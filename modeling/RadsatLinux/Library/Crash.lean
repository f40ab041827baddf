import Mathlib.Logic.Relation

/-!
# Computations that may be cut short

A computation of `EStateM ε σ` either returns in a new state or stops with an
interruption, and in both cases the state it leaves behind is kept.  `wp` is the
weakest precondition with one postcondition for each ending.  `Round` starts such a
computation on durable data with fresh volatile data, and keeps the durable part of
whatever state the round ends in; an invariant of one round is one of every run.
-/

namespace RadsatLinux.Library.Crash

variable {ε σ α β : Type}

/-- `Q` holds of the result and state when `m` returns from `s`, and `R` of the
interruption and state when it is cut short. -/
def wp (m : EStateM ε σ α) (Q : α → σ → Prop) (R : ε → σ → Prop) (s : σ) : Prop :=
  match m s with
  | .ok a s' => Q a s'
  | .error e s' => R e s'

theorem wp_ok {m : EStateM ε σ α} {Q : α → σ → Prop} {R : ε → σ → Prop} {s s' : σ} {a : α}
    (h : wp m Q R s) (hrun : m s = .ok a s') : Q a s' := by
  simpa only [wp, hrun] using h

theorem wp_error {m : EStateM ε σ α} {Q : α → σ → Prop} {R : ε → σ → Prop} {s s' : σ} {e : ε}
    (h : wp m Q R s) (hrun : m s = .error e s') : R e s' := by
  simpa only [wp, hrun] using h

/-- Weakening of both postconditions. -/
theorem wp_mono {m : EStateM ε σ α} {Q Q' : α → σ → Prop} {R R' : ε → σ → Prop} {s : σ}
    (h : wp m Q R s) (hQ : ∀ a s', Q a s' → Q' a s') (hR : ∀ e s', R e s' → R' e s') :
    wp m Q' R' s := by
  unfold wp at h ⊢
  cases hrun : m s with
  | ok a s' =>
      rw [hrun] at h
      exact hQ a s' h
  | error e s' =>
      rw [hrun] at h
      exact hR e s' h

/-- Two specifications of one run hold together. -/
theorem wp_and {m : EStateM ε σ α} {Q Q' : α → σ → Prop} {R R' : ε → σ → Prop} {s : σ}
    (h : wp m Q R s) (h' : wp m Q' R' s) :
    wp m (fun a s' => Q a s' ∧ Q' a s') (fun e s' => R e s' ∧ R' e s') s := by
  unfold wp at h h' ⊢
  cases hrun : m s with
  | ok a s' =>
      rw [hrun] at h h'
      exact ⟨h, h'⟩
  | error e s' =>
      rw [hrun] at h h'
      exact ⟨h, h'⟩

/-- A postcondition that says nothing of the end. -/
theorem wp_const {m : EStateM ε σ α} {s : σ} {P : Prop}
    (h : wp m (fun _ _ => P) (fun _ _ => P) s) : P := by
  unfold wp at h
  cases hrun : m s <;> (rw [hrun] at h; exact h)

theorem wp_self (m : EStateM ε σ α) (s : σ) :
    wp m (fun a s' => m s = .ok a s') (fun e s' => m s = .error e s') s := by
  unfold wp
  cases m s <;> rfl

/-- A postcondition on the state alone, when every ending is in one state. -/
theorem wp_state_iff {m : EStateM ε σ α} {P : σ → Prop} {s x : σ}
    (h : wp m (fun _ s' => s' = x) (fun _ s' => s' = x) s) :
    wp m (fun _ s' => P s') (fun _ s' => P s') s ↔ P x := by
  unfold wp at h ⊢
  cases hrun : m s with
  | ok a s' =>
      rw [hrun] at h
      rw [h]
  | error e s' =>
      rw [hrun] at h
      rw [h]

@[simp]
theorem wp_pure (a : α) (Q : α → σ → Prop) (R : ε → σ → Prop) (s : σ) :
    wp (pure a : EStateM ε σ α) Q R s ↔ Q a s := Iff.rfl

@[simp]
theorem wp_throw (e : ε) (Q : α → σ → Prop) (R : ε → σ → Prop) (s : σ) :
    wp (throw e : EStateM ε σ α) Q R s ↔ R e s := Iff.rfl

@[simp]
theorem wp_get (Q : σ → σ → Prop) (R : ε → σ → Prop) (s : σ) :
    wp (get : EStateM ε σ σ) Q R s ↔ Q s s := Iff.rfl

@[simp]
theorem wp_modify (f : σ → σ) (Q : PUnit → σ → Prop) (R : ε → σ → Prop) (s : σ) :
    wp (modify f : EStateM ε σ PUnit) Q R s ↔ Q ⟨⟩ (f s) := Iff.rfl

@[simp]
theorem wp_bind (m : EStateM ε σ α) (f : α → EStateM ε σ β) (Q : β → σ → Prop)
    (R : ε → σ → Prop) (s : σ) :
    wp (m >>= f) Q R s ↔ wp m (fun a => wp (f a) Q R) R s := by
  change (match EStateM.bind m f s with | .ok a s' => Q a s' | .error e s' => R e s') ↔ _
  unfold EStateM.bind wp
  cases m s <;> rfl

/-- Sequencing with a chosen intermediate assertion. -/
theorem wp_seq {m : EStateM ε σ α} {f : α → EStateM ε σ β} {Q : α → σ → Prop}
    {Q' : β → σ → Prop} {R : ε → σ → Prop} {s : σ}
    (hm : wp m Q R s) (hf : ∀ a s', Q a s' → wp (f a) Q' R s') : wp (m >>= f) Q' R s :=
  (wp_bind m f Q' R s).mpr (wp_mono hm hf fun _ _ h => h)

/-- A step that is known to return. -/
theorem wp_of_ok {m : EStateM ε σ α} {f : α → EStateM ε σ β} {s s' : σ} {a : α}
    {Q : β → σ → Prop} {R : ε → σ → Prop} (hrun : m s = .ok a s') (hf : wp (f a) Q R s') :
    wp (m >>= f) Q R s := by
  rw [wp_bind, wp, hrun]
  exact hf

/-- What each turn of a loop over a list keeps, the loop keeps. -/
theorem wp_forM {l : List β} {f : β → EStateM ε σ PUnit} {I : σ → Prop} {J : ε → σ → Prop}
    (hf : ∀ a ∈ l, ∀ s, I s → wp (f a) (fun _ => I) J s) {s : σ} (hI : I s) :
    wp (l.forM f) (fun _ => I) J s := by
  induction l generalizing s with
  | nil => exact hI
  | cons a l ih =>
      change wp (f a >>= fun _ => l.forM f) (fun _ => I) J s
      refine wp_seq (hf a List.mem_cons_self s hI) fun _ s' hI' => ?_
      exact ih (fun b hb => hf b (List.mem_cons_of_mem a hb)) hI'

theorem bind_of_ok {m : EStateM ε σ α} (f : α → EStateM ε σ β) {s s' : σ} {a : α}
    (hrun : m s = .ok a s') : (m >>= f) s = f a s' := by
  change EStateM.bind m f s = f a s'
  rw [EStateM.bind, hrun]

/-! ## Runs that return -/

/-- The result of a run that returned, and what `view` shows of its state. -/
def returned (view : σ → β) : EStateM.Result ε σ α → Option (α × β)
  | .ok a s => some (a, view s)
  | .error _ _ => none

theorem ok_of_returned {view : σ → β} {r : EStateM.Result ε σ α} {a : α} {b : β}
    (h : returned view r = some (a, b)) : ∃ s, r = .ok a s ∧ view s = b := by
  cases r with
  | ok a' s =>
      cases h
      exact ⟨s, rfl, rfl⟩
  | error e s => cases h

/-! ## Frames -/

section Frames

variable {r : σ → σ → Prop}

/-- Whichever way `m` ends, the state it ends in is related by `r` to the one it starts in. -/
def Keeps (r : σ → σ → Prop) (m : EStateM ε σ α) : Prop :=
  ∀ s, wp m (fun _ s' => r s s') (fun _ s' => r s s') s

theorem Keeps.pure (hrefl : ∀ s, r s s) (a : α) : Keeps r (Pure.pure a : EStateM ε σ α) :=
  fun s => hrefl s

theorem Keeps.bind (htrans : ∀ s₁ s₂ s₃, r s₁ s₂ → r s₂ s₃ → r s₁ s₃)
    {m : EStateM ε σ α} {f : α → EStateM ε σ β} (hm : Keeps r m) (hf : ∀ a, Keeps r (f a)) :
    Keeps r (m >>= f) := by
  intro s
  refine wp_seq (hm s) fun a s' h => ?_
  exact wp_mono (hf a s') (fun _ _ h' => htrans _ _ _ h h') fun _ _ h' => htrans _ _ _ h h'

theorem Keeps.of_ok {m : EStateM ε σ α} {s s' : σ} {a : α} (hm : Keeps r m)
    (hrun : m s = .ok a s') : r s s' := by
  have hkept := hm s
  rw [wp, hrun] at hkept
  exact hkept

end Frames

/-! ## Endings -/

/-- `m`, started in `s`, ends in `s'`, by returning or by being cut short. -/
def EndsIn (m : EStateM ε σ α) (s s' : σ) : Prop :=
  (∃ a, m s = .ok a s') ∨ ∃ e, m s = .error e s'

theorem EndsIn.wp_state {m : EStateM ε σ α} {P : σ → Prop} {s s' : σ} (hends : EndsIn m s s')
    (h : wp m (fun _ s' => P s') (fun _ s' => P s') s) : P s' := by
  rcases hends with ⟨a, hrun⟩ | ⟨e, hrun⟩
  · exact wp_ok h hrun
  · exact wp_error h hrun

/-! ## Rounds -/

section Rounds

variable {υ δ : Type} (start : υ → δ → σ) (keep : σ → δ) (m : EStateM ε σ α)
  (fresh : υ → Prop) (admitted : ε → Prop)

/-- One round: `m` started on the durable data `d` with some fresh volatile data,
and the durable data it leaves when it returns or is cut short. -/
inductive Round (d : δ) : δ → Prop where
  | done {v : υ} {a : α} {s : σ} (hfresh : fresh v) (hrun : m (start v d) = .ok a s) :
      Round d (keep s)
  | cut {v : υ} {e : ε} {s : σ} (hfresh : fresh v) (hrun : m (start v d) = .error e s)
      (hcut : admitted e) : Round d (keep s)

variable {start keep m fresh admitted}

/-- What one round keeps, every run of rounds keeps. -/
theorem Round.invariant {I : δ → Prop}
    (hround : ∀ v d, fresh v → I d →
      wp m (fun _ s => I (keep s)) (fun e s => admitted e → I (keep s)) (start v d))
    {d d' : δ} (hrun : Relation.ReflTransGen (Round start keep m fresh admitted) d d')
    (hinit : I d) : I d' := by
  induction hrun with
  | refl => exact hinit
  | tail _ hlast ih =>
      cases hlast with
      | done hfresh hrun => exact wp_ok (hround _ _ hfresh ih) hrun
      | cut hfresh hrun hcut => exact wp_error (hround _ _ hfresh ih) hrun hcut

end Rounds

end RadsatLinux.Library.Crash
