import Mathlib.Data.List.Basic
import Mathlib.Data.List.Infix

/-!
# Lines and fields

What `sed` and `awk` do to a text: a character is put for another one, a line is cut at the first
separator or found by a word and the mark that ends it, and a program reads line after line.
-/

namespace RadsatLinux.Library.Fields

variable {α : Type} [DecidableEq α]

/-- `s/c/new/g` -/
def substitute (c : α) (new text : List α) : List α :=
  text.flatMap fun a => if a = c then new else [a]

theorem substitute_append (c : α) (new text rest : List α) :
    substitute c new (text ++ rest) = substitute c new text ++ substitute c new rest :=
  List.flatMap_append

theorem substitute_of_not_mem {c : α} {text : List α} (h : c ∉ text) (new : List α) :
    substitute c new text = text := by
  induction text with
  | nil => rfl
  | cons a text ih =>
      rw [List.mem_cons, not_or] at h
      rw [substitute, List.flatMap_cons, if_neg (Ne.symm h.1)]
      exact congrArg (a :: ·) (ih h.2)

/-! ## Cutting -/

/-- What stands before the first `sep`, and after it if there is one. -/
def cutAt (sep : List α) : List α → List α × Option (List α)
  | [] => ([], none)
  | a :: text =>
      if sep <+: a :: text then ([], some ((a :: text).drop sep.length))
      else (a :: (cutAt sep text).1, (cutAt sep text).2)

theorem cutAt_cons_ne {mark a : α} (h : mark ≠ a) (sep text : List α) :
    cutAt (mark :: sep) (a :: text) =
      (a :: (cutAt (mark :: sep) text).1, (cutAt (mark :: sep) text).2) := by
  rw [cutAt, if_neg fun hprefix => h (List.cons_prefix_cons.mp hprefix).1]

theorem cutAt_of_not_mem {mark : α} {text : List α} (h : mark ∉ text) (sep : List α) :
    cutAt (mark :: sep) text = (text, none) := by
  induction text with
  | nil => rfl
  | cons a text ih =>
      rw [List.mem_cons, not_or] at h
      rw [cutAt_cons_ne h.1, ih h.2]

theorem cutAt_append {mark : α} {text : List α} (h : mark ∉ text) (sep rest : List α) :
    cutAt (mark :: sep) (text ++ mark :: (sep ++ rest)) = (text, some rest) := by
  induction text with
  | nil =>
      have hprefix : mark :: sep <+: mark :: (sep ++ rest) := List.prefix_append (mark :: sep) rest
      have hdrop : (mark :: (sep ++ rest)).drop (mark :: sep).length = rest := List.drop_left
      rw [List.nil_append, cutAt, if_pos hprefix, hdrop]
  | cons a text ih =>
      rw [List.mem_cons, not_or] at h
      rw [List.cons_append, cutAt_cons_ne h.1, ih h.2]

theorem cutAt_concat {mark a : α} {text : List α} (h : mark ∉ text) :
    cutAt [mark, a] (text ++ [mark]) = (text ++ [mark], none) := by
  induction text with
  | nil =>
      have hprefix : ¬ [mark, a] <+: [mark] := fun hprefix =>
        Nat.not_succ_le_self 1 hprefix.length_le
      rw [List.nil_append, cutAt, if_neg hprefix, cutAt]
  | cons b text ih =>
      rw [List.mem_cons, not_or] at h
      rw [List.cons_append, cutAt_cons_ne h.1, ih h.2]

/-! ## A word and the mark that ends it -/

omit [DecidableEq α] in
theorem prefix_mark_iff {mark : α} {word text : List α} (hword : mark ∉ word) (htext : mark ∉ text)
    (rest : List α) : word ++ [mark] <+: text ++ mark :: rest ↔ word = text := by
  constructor
  · intro hprefix
    induction word generalizing text with
    | nil =>
        cases text with
        | nil => rfl
        | cons a text =>
            rw [List.mem_cons, not_or] at htext
            exact absurd (List.cons_prefix_cons.mp hprefix).1 htext.1
    | cons b word ih =>
        rw [List.mem_cons, not_or] at hword
        cases text with
        | nil => exact absurd (List.cons_prefix_cons.mp hprefix).1.symm hword.1
        | cons a text =>
            rw [List.mem_cons, not_or] at htext
            obtain ⟨rfl, htail⟩ := List.cons_prefix_cons.mp hprefix
            rw [ih hword.2 htext.2 htail]
  · rintro rfl
    exact ⟨rest, List.append_assoc word [mark] rest⟩

omit [DecidableEq α] in
theorem infix_append_mark_iff {mark : α} {word text : List α} (hword : mark ∉ word)
    (htext : mark ∉ text) (rest : List α) :
    word ++ [mark] <:+: text ++ mark :: rest ↔ word <:+ text ∨ word ++ [mark] <:+: rest := by
  induction text with
  | nil =>
      have hprefix := prefix_mark_iff hword List.not_mem_nil rest
      rw [List.nil_append] at hprefix ⊢
      rw [List.infix_cons_iff, hprefix, List.suffix_nil]
  | cons a text ih =>
      have hprefix := prefix_mark_iff hword htext rest
      rw [List.mem_cons, not_or] at htext
      rw [List.cons_append] at hprefix ⊢
      rw [List.infix_cons_iff, hprefix, ih htext.2, List.suffix_cons_iff, or_assoc]

omit [DecidableEq α] in
/-- With one mark in the line, the words around a mark are around that one. -/
theorem infix_around_mark_iff {mark : α} {text rest : List α} (htext : mark ∉ text)
    (hrest : mark ∉ rest) (word next : List α) :
    word ++ mark :: next <:+: text ++ mark :: rest ↔ word <:+ text ∧ next <+: rest := by
  constructor
  · rintro ⟨before, after, heq⟩
    rw [← List.append_assoc, List.append_assoc, List.cons_append] at heq
    obtain ⟨hbefore, -, hafter⟩ := (List.append_cons_inj_of_notMem htext hrest).mp heq.symm
    exact ⟨⟨before, hbefore.symm⟩, ⟨after, hafter.symm⟩⟩
  · rintro ⟨⟨before, rfl⟩, ⟨after, rfl⟩⟩
    refine ⟨before, after, ?_⟩
    simp only [List.append_assoc, List.cons_append]

omit [DecidableEq α] in
theorem infix_mark_iff {mark : α} {text rest : List α} (htext : mark ∉ text)
    (hrest : mark ∉ rest) (word : List α) :
    word ++ [mark] <:+: text ++ mark :: rest ↔ word <:+ text :=
  (infix_around_mark_iff htext hrest word []).trans (and_iff_left List.nil_prefix)

omit [DecidableEq α] in
theorem prefix_append_cons_iff {a : α} {word : List α} (h : a ∉ word) (text rest : List α) :
    word <+: text ++ a :: rest ↔ word <+: text := by
  refine ⟨fun hprefix => ?_, fun hprefix => hprefix.trans (List.prefix_append text _)⟩
  rcases List.prefix_or_prefix_of_prefix hprefix (List.prefix_append text _) with hle | ⟨more, rfl⟩
  · exact hle
  · cases more with
    | nil => exact ⟨[], by rw [List.append_nil, List.append_nil]⟩
    | cons b more =>
        have hhead := (List.prefix_append_right_inj text).mp hprefix
        obtain ⟨rfl, -⟩ := List.cons_prefix_cons.mp hhead
        exact absurd (List.mem_append_right text List.mem_cons_self) h

omit [DecidableEq α] in
/-- A word does not reach over a character that is not in it. -/
theorem infix_append_cons_iff {a : α} {word : List α} (h : a ∉ word) (text rest : List α) :
    word <:+: text ++ a :: rest ↔ word <:+: text ∨ word <:+: rest := by
  induction text with
  | nil =>
      have hprefix := prefix_append_cons_iff h [] rest
      rw [List.nil_append] at hprefix ⊢
      rw [List.infix_cons_iff, hprefix, List.prefix_nil, List.infix_nil]
  | cons b text ih =>
      have hprefix := prefix_append_cons_iff h (b :: text) rest
      rw [List.cons_append] at hprefix ⊢
      rw [List.infix_cons_iff, hprefix, ih, List.infix_cons_iff, or_assoc]

/-! ## Programs that read lines -/

/-- What a line does to the variables of a program, and what is printed for it. -/
abbrev Program (σ α : Type) := σ → List α → σ × List (List α)

def run {σ : Type} (program : Program σ α) : σ → List (List α) → σ × List (List α)
  | s, [] => (s, [])
  | s, line :: lines =>
      ((run program (program s line).1 lines).1,
        (program s line).2 ++ (run program (program s line).1 lines).2)

variable {σ : Type} {program : Program σ α}

omit [DecidableEq α] in
theorem run_append (s : σ) (lines more : List (List α)) :
    run program s (lines ++ more) =
      ((run program (run program s lines).1 more).1,
        (run program s lines).2 ++ (run program (run program s lines).1 more).2) := by
  induction lines generalizing s with
  | nil => rfl
  | cons line lines ih => rw [List.cons_append, run, ih, run, List.append_assoc]

/-- The program takes `s` to `s'` over the lines of `text`, and prints `out`. -/
def Prints (program : Program σ α) (newline : α) (s : σ) (text : List α) (s' : σ)
    (out : List (List α)) : Prop :=
  run program s (text.splitOn newline) = (s', out)

variable {newline : α} {s s₁ s₂ : σ} {out out₁ out₂ : List (List α)}

namespace Prints

theorem line {text : List α} (h : newline ∉ text) (hprogram : program s text = (s₁, out)) :
    Prints program newline s text s₁ out := by
  rw [Prints, List.splitOn_eq_singleton h, run, run, hprogram, List.append_nil]

theorem lines {text more : List α} (h : Prints program newline s text s₁ out₁)
    (hmore : Prints program newline s₁ more s₂ out₂) :
    Prints program newline s (text ++ newline :: more) s₂ (out₁ ++ out₂) := by
  rw [Prints] at h hmore ⊢
  rw [List.splitOn_append_cons_self, run_append, h, hmore]

end Prints

end RadsatLinux.Library.Fields
