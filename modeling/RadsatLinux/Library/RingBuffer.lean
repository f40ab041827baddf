import Mathlib.Data.List.Basic
import Mathlib.Logic.Function.Basic

/-!
# Circular buffers

A circular buffer keeps its elements in cells that wrap around at the capacity: `tail` is
the cell of the oldest one, `head` the cell of the next to come.  `contents` lists what is
in it, oldest first, and the two operations are those of a queue on that list.
-/

namespace RadsatLinux.Library.RingBuffer

variable {α : Type} {cap : Nat}

structure Circular (α : Type) where
  slots : Nat → α
  head : Nat
  tail : Nat
  count : Nat

namespace Circular

/-- The cells lie within the capacity, and the new end is `count` cells past the old one. -/
structure Ok (cap : Nat) (r : Circular α) : Prop where
  head_lt : r.head < cap
  tail_lt : r.tail < cap
  count_le : r.count ≤ cap
  head_eq : r.head = (r.tail + r.count) % cap

def contents (cap : Nat) (r : Circular α) : List α :=
  (List.range r.count).map fun i => r.slots ((r.tail + i) % cap)

def push (cap : Nat) (x : α) (r : Circular α) : Circular α where
  slots := Function.update r.slots r.head x
  head := (r.head + 1) % cap
  tail := r.tail
  count := r.count + 1

def pop (cap : Nat) (r : Circular α) : Circular α :=
  { r with tail := (r.tail + 1) % cap, count := r.count - 1 }

@[simp]
theorem contents_length (r : Circular α) : (r.contents cap).length = r.count := by
  simp [contents]

theorem contents_nil {r : Circular α} (hempty : r.count = 0) : r.contents cap = [] := by
  simp [contents, hempty]

theorem Ok.cap_pos {r : Circular α} (h : r.Ok cap) : 0 < cap :=
  Nat.zero_lt_of_lt h.tail_lt

theorem ok_empty {r : Circular α} (hcap : 0 < cap) (hhead : r.head = 0) (htail : r.tail = 0)
    (hcount : r.count = 0) : r.Ok cap := by
  constructor
  · omega
  · omega
  · omega
  · rw [hhead, htail, hcount, Nat.zero_mod]

theorem Ok.push {r : Circular α} (h : r.Ok cap) (hroom : r.count < cap) (x : α) :
    (r.push cap x).Ok cap := by
  constructor
  · exact Nat.mod_lt _ h.cap_pos
  · exact h.tail_lt
  · exact hroom
  · change (r.head + 1) % cap = (r.tail + (r.count + 1)) % cap
    rw [h.head_eq, Nat.mod_add_mod, Nat.add_assoc]

theorem Ok.pop {r : Circular α} (h : r.Ok cap) (hsome : 0 < r.count) : (r.pop cap).Ok cap := by
  constructor
  · exact h.head_lt
  · exact Nat.mod_lt _ h.cap_pos
  · exact Nat.le_trans (Nat.sub_le _ _) h.count_le
  · change r.head = ((r.tail + 1) % cap + (r.count - 1)) % cap
    have hnext : r.tail + 1 + (r.count - 1) = r.tail + r.count := by omega
    rw [h.head_eq, Nat.mod_add_mod, hnext]

/-- Two cells fewer than `cap` apart are different cells. -/
theorem cell_ne {start i n : Nat} (hi : i < n) (hn : n < cap) :
    (start + i) % cap ≠ (start + n) % cap := by
  intro heq
  have hdvd : cap ∣ start + n - (start + i) :=
    Nat.dvd_of_mod_eq_zero (Nat.sub_mod_eq_zero_of_mod_eq heq.symm)
  have hle := Nat.le_of_dvd (by omega) hdvd
  omega

/-- The new element comes last. -/
theorem contents_push {r : Circular α} (h : r.Ok cap) (hroom : r.count < cap) (x : α) :
    (r.push cap x).contents cap = r.contents cap ++ [x] := by
  have hkept : ∀ i ∈ List.range r.count,
      Function.update r.slots r.head x ((r.tail + i) % cap) = r.slots ((r.tail + i) % cap) := by
    intro i hi
    apply Function.update_of_ne
    rw [h.head_eq]
    exact cell_ne (List.mem_range.mp hi) hroom
  have hnew : Function.update r.slots r.head x ((r.tail + r.count) % cap) = x := by
    rw [← h.head_eq]
    exact Function.update_self _ _ _
  change (List.range (r.count + 1)).map _ = _
  rw [List.range_succ, List.map_append, List.map_singleton]
  exact congrArg₂ (· ++ [·]) (List.map_congr_left hkept) hnew

/-- The oldest element goes first. -/
theorem contents_pop {r : Circular α} (h : r.Ok cap) (hsome : 0 < r.count) :
    r.contents cap = r.slots r.tail :: (r.pop cap).contents cap := by
  obtain ⟨n, hn⟩ : ∃ n, r.count = n + 1 := ⟨r.count - 1, by omega⟩
  have hrest : (r.pop cap).contents cap =
      (List.range n).map fun i => r.slots ((r.tail + 1 + i) % cap) := by
    simp [contents, Circular.pop, hn]
  rw [hrest, contents, hn, List.range_succ_eq_map, List.map_cons, List.map_map, Nat.add_zero,
    Nat.mod_eq_of_lt h.tail_lt]
  refine congrArg _ (List.map_congr_left fun i _ => ?_)
  change r.slots ((r.tail + (i + 1)) % cap) = _
  rw [Nat.add_assoc, Nat.add_comm 1 i]

end Circular

end RadsatLinux.Library.RingBuffer
