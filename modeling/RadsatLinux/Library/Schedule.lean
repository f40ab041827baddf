import Mathlib

/-!
# Steps one after the other

A step takes some time or never returns, as its fate decides.  A list of steps is at its end when
every one of them has returned.
-/

namespace RadsatLinux.Library.Schedule

variable {α β : Type} (returns : α → β → Option Nat)

/-- When the steps are done, the first of them begun at `now`. -/
def finish : List α → (Nat → β) → Nat → Option Nat
  | [], _, now => some now
  | step :: steps, fates, now =>
      (returns step (fates 0)).bind fun t => finish steps (fun i => fates (i + 1)) (now + t)

/-- What the steps cost together. -/
def total (cost : α → β → Nat) : List α → (Nat → β) → Nat
  | [], _ => 0
  | step :: steps, fates => cost step (fates 0) + total cost steps fun i => fates (i + 1)

variable {returns}

theorem finish_append (steps more : List α) (fates : Nat → β) (now : Nat) :
    finish returns (steps ++ more) fates now =
      (finish returns steps fates now).bind
        (finish returns more fun i => fates (i + steps.length)) := by
  induction steps generalizing fates now with
  | nil => rfl
  | cons step steps ih =>
      rw [List.cons_append, finish, finish, Option.bind_assoc]
      exact Option.bind_congr fun t _ => ih _ _

theorem finish_isSome_iff (steps : List α) (fates : Nat → β) (now : Nat) :
    (finish returns steps fates now).isSome = true ↔
      ∀ i step, steps[i]? = some step → (returns step (fates i)).isSome = true := by
  induction steps generalizing fates now with
  | nil => exact iff_of_true rfl fun i step hstep => by cases hstep
  | cons first steps ih =>
      rw [finish]
      constructor
      · intro h i step hstep
        cases hreturns : returns first (fates 0) with
        | none =>
            rw [hreturns] at h
            cases h
        | some t =>
            rw [hreturns, Option.bind_some] at h
            cases i with
            | zero =>
                cases hstep
                rw [hreturns]
                rfl
            | succ i => exact (ih _ _).mp h i step hstep
      · intro h
        obtain ⟨t, hreturns⟩ := Option.isSome_iff_exists.mp (h 0 first rfl)
        rw [hreturns, Option.bind_some]
        exact (ih _ _).mpr fun i step hstep => h (i + 1) step hstep

/-- Steps that return in time are done in time. -/
theorem finish_le (cost : α → β → Nat) {steps : List α} {fates : Nat → β}
    (h : ∀ i step, steps[i]? = some step →
      ∃ t, returns step (fates i) = some t ∧ t ≤ cost step (fates i)) (now : Nat) :
    ∃ done, finish returns steps fates now = some done ∧ done ≤ now + total cost steps fates := by
  induction steps generalizing fates now with
  | nil => exact ⟨now, rfl, Nat.le_refl _⟩
  | cons first steps ih =>
      obtain ⟨t, hreturns, hcost⟩ := h 0 first rfl
      obtain ⟨done, hdone, hle⟩ := ih (fun i step hstep => h (i + 1) step hstep) (now + t)
      refine ⟨done, ?_, ?_⟩
      · rw [finish, hreturns, Option.bind_some, hdone]
      · rw [total]
        omega

theorem total_add (cost extra : α → β → Nat) (steps : List α) (fates : Nat → β) :
    total (fun step fate => cost step fate + extra step fate) steps fates =
      total cost steps fates + total extra steps fates := by
  induction steps generalizing fates with
  | nil => rfl
  | cons step steps ih =>
      rw [total, total, total, ih]
      omega

theorem total_const (cost : α → Nat) (steps : List α) (fates : Nat → β) :
    total (fun step _ => cost step) steps fates = (steps.map cost).sum := by
  induction steps generalizing fates with
  | nil => rfl
  | cons step steps ih => rw [total, ih, List.map_cons, List.sum_cons]

end RadsatLinux.Library.Schedule
