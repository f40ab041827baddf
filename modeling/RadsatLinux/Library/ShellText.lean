import Mathlib.Data.List.Basic
import Mathlib.Data.List.Infix
import Mathlib.Data.List.Lex
import Mathlib.Tactic.IntervalCases

/-!
# Text in shell scripts

What a greedy `sed` expression `s/.*key\(...\)/` leaves of a line, the shell expansions that
cut a text at a word or a character, file name patterns, and numbers with leading zeros, which
as texts are in the order that they are in as numbers.
-/

namespace RadsatLinux.Library.ShellText

variable {α : Type} [DecidableEq α]

/-- What stands after the last occurrence of `key`. -/
def afterLast (key : List α) : List α → Option (List α)
  | [] => if key = [] then some [] else none
  | a :: text =>
      match afterLast key text with
      | some rest => some rest
      | none => if key <+: a :: text then some ((a :: text).drop key.length) else none

theorem afterLast_append_none {key rest text : List α} (h : afterLast key text = none) :
    afterLast (key ++ rest) text = none := by
  induction text with
  | nil =>
      unfold afterLast at h ⊢
      split at h
      · cases h
      · next hkey => exact if_neg fun heq => hkey (List.append_eq_nil_iff.mp heq).1
  | cons a text ih =>
      rw [afterLast] at h ⊢
      cases htail : afterLast key text with
      | some found =>
          rw [htail] at h
          cases h
      | none =>
          rw [htail] at h
          rw [ih htail]
          dsimp only at h ⊢
          split at h
          · cases h
          · next hkey => exact if_neg fun hlong => hkey ((List.prefix_append _ _).trans hlong)

/-- A longer key ends at the same place if the rest of it follows there. -/
theorem afterLast_append {key rest after text : List α}
    (h : afterLast key text = some (rest ++ after)) :
    afterLast (key ++ rest) text = some after := by
  induction text with
  | nil =>
      unfold afterLast at h ⊢
      split at h
      · next hkey =>
          obtain ⟨hrest, hafter⟩ := List.append_eq_nil_iff.mp (Option.some.inj h).symm
          rw [hkey, hrest, hafter]
          rfl
      · cases h
  | cons a text ih =>
      rw [afterLast] at h ⊢
      cases htail : afterLast key text with
      | some found =>
          rw [htail] at h
          obtain rfl : found = rest ++ after := Option.some.inj h
          rw [ih htail]
      | none =>
          rw [htail] at h
          rw [afterLast_append_none htail]
          dsimp only at h ⊢
          split at h
          · next hkey =>
              obtain ⟨tail, htext⟩ := hkey
              rw [← htext, List.drop_left] at h
              obtain rfl : tail = rest ++ after := Option.some.inj h
              rw [← htext, ← List.append_assoc, if_pos (List.prefix_append _ _), List.drop_left]
          · cases h

/-- `${text#word}` -/
def dropWord (word text : List α) : List α :=
  if word <+: text then text.drop word.length else text

theorem dropWord_append (word text : List α) : dropWord word (word ++ text) = text := by
  rw [dropWord, if_pos (List.prefix_append _ _), List.drop_left]

/-- `${text#*mark}` -/
def afterFirst (mark : α) (text : List α) : List α :=
  if mark ∈ text then (text.dropWhile (· ≠ mark)).tail else text

/-! ## File name patterns -/

/-- A pattern of `*`, `?` and plain characters. -/
def glob : List Char → List Char → Bool
  | [], text => text.isEmpty
  | ch :: pattern, text =>
      if ch = '*' then text.tails.any (glob pattern)
      else text.head?.any (fun c => ch == '?' || ch == c) && glob pattern text.tail

theorem glob_star (text : List Char) : glob ['*'] text = true := by
  rw [glob, if_pos rfl, List.any_eq_true]
  exact ⟨[], (List.mem_tails _ _).mpr List.nil_suffix, rfl⟩

/-- Plain text and then a star: the names that begin with it. -/
theorem glob_append_star {key text : List Char} (hplain : ∀ ch ∈ key, ch ≠ '*' ∧ ch ≠ '?') :
    glob (key ++ ['*']) text = true ↔ key <+: text := by
  induction key generalizing text with
  | nil => exact iff_of_true (glob_star text) List.nil_prefix
  | cons ch key ih =>
      obtain ⟨hstar, hquestion⟩ := hplain ch List.mem_cons_self
      rw [List.cons_append, glob, if_neg hstar]
      cases text with
      | nil => exact iff_of_false Bool.false_ne_true (fun h => by cases List.prefix_nil.mp h)
      | cons c rest =>
          have hih : glob (key ++ ['*']) rest = true ↔ key <+: rest :=
            ih fun ch hch => hplain ch (List.mem_cons_of_mem _ hch)
          have hchar : (ch == '?') = false := beq_false_of_ne hquestion
          rw [List.cons_prefix_cons, ← hih, List.head?_cons, List.tail_cons, Option.any_some, hchar,
            Bool.false_or, Bool.and_eq_true, beq_iff_eq]

/-! ## Numbers with leading zeros -/

/-- The last `width` decimal digits. -/
def padded : Nat → Nat → List Char
  | 0, _ => []
  | width + 1, n => padded width (n / 10) ++ [Nat.digitChar (n % 10)]

theorem length_padded (width n : Nat) : (padded width n).length = width := by
  induction width generalizing n with
  | zero => rfl
  | succ width ih => rw [padded, List.length_append, ih, List.length_singleton]

theorem append_lt_append {x y : List Char} (hlength : x.length = y.length) (hlt : x < y)
    (u v : List Char) : x ++ u < y ++ v := by
  induction x generalizing y with
  | nil =>
      rw [List.length_eq_zero_iff.mp hlength.symm] at hlt
      exact absurd hlt (List.lt_irrefl _)
  | cons a x ih =>
      cases y with
      | nil => cases hlength
      | cons b y =>
          rw [List.cons_append, List.cons_append, List.cons_lt_cons_iff]
          rcases List.cons_lt_cons_iff.mp hlt with hhead | ⟨rfl, htail⟩
          · exact .inl hhead
          · exact .inr ⟨rfl, ih (Nat.succ.inj hlength) htail⟩

theorem digitChar_lt {a b : Nat} (hlt : a < b) (hb : b < 10) :
    Nat.digitChar a < Nat.digitChar b := by
  interval_cases b <;> interval_cases a <;> decide

theorem padded_lt {width a b : Nat} (hlt : a < b) (hb : b < 10 ^ width) :
    padded width a < padded width b := by
  induction width generalizing a b with
  | zero => omega
  | succ width ih =>
      rw [padded, padded]
      rcases Nat.lt_or_eq_of_le (Nat.div_le_div_right (c := 10) (Nat.le_of_lt hlt)) with h | h
      · have hhigh : b / 10 < 10 ^ width := by omega
        exact append_lt_append (by rw [length_padded, length_padded]) (ih h hhigh) _ _
      · rw [h]
        exact List.append_left_lt (List.cons_lt_cons_iff.mpr
          (.inl (digitChar_lt (by omega) (Nat.mod_lt _ (Nat.zero_lt_succ 9)))))

/-- A number, a separator and what follows: the order of the numbers, and then of the rest. -/
theorem padded_append_lt {width a b : Nat} {mark : Char} {u v : List Char}
    (hb : b < 10 ^ width) (h : a < b ∨ a = b ∧ u < v) :
    padded width a ++ mark :: u < padded width b ++ mark :: v := by
  rcases h with hlt | ⟨rfl, hrest⟩
  · exact append_lt_append (by rw [length_padded, length_padded]) (padded_lt hlt hb) _ _
  · exact List.append_left_lt (List.cons_lt_cons_iff.mpr (.inr ⟨rfl, hrest⟩))

end RadsatLinux.Library.ShellText
