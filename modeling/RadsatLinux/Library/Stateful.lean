import Mathlib.Init

/-!
# Computations on a state

`wp` is the weakest precondition of a computation of `StateM`, and `Keeps` says that a
computation relates the state it starts in to the one it ends in, whatever it returns: a
frame, or an order that only goes down.  `Meets` is a triple for a computation in an environment
that acts while it runs, and that promises how it acts.
-/

namespace RadsatLinux.Library.Stateful

variable {σ α β : Type}

/-- `Q` holds of the result and the state of `m` started in `s`. -/
def wp (m : StateM σ α) (Q : α → σ → Prop) (s : σ) : Prop :=
  Q (m s).1 (m s).2

@[simp]
theorem wp_pure (a : α) (Q : α → σ → Prop) (s : σ) : wp (pure a : StateM σ α) Q s ↔ Q a s :=
  Iff.rfl

@[simp]
theorem wp_bind (m : StateM σ α) (f : α → StateM σ β) (Q : β → σ → Prop) (s : σ) :
    wp (m >>= f) Q s ↔ wp m (fun a => wp (f a) Q) s :=
  Iff.rfl

@[simp]
theorem wp_get (Q : σ → σ → Prop) (s : σ) : wp (get : StateM σ σ) Q s ↔ Q s s :=
  Iff.rfl

@[simp]
theorem wp_modify (f : σ → σ) (Q : PUnit → σ → Prop) (s : σ) :
    wp (modify f : StateM σ PUnit) Q s ↔ Q ⟨⟩ (f s) :=
  Iff.rfl

/-- Sequencing with a chosen intermediate assertion. -/
theorem wp_seq {m : StateM σ α} {f : α → StateM σ β} {Q : α → σ → Prop} {Q' : β → σ → Prop}
    {s : σ} (hm : wp m Q s) (hf : ∀ a s', Q a s' → wp (f a) Q' s') : wp (m >>= f) Q' s :=
  hf _ _ hm

/-- Sequencing when nothing needs to be known of the first part. -/
theorem wp_next {m : StateM σ α} {f : α → StateM σ β} {Q : β → σ → Prop} {s : σ}
    (hf : ∀ a s', wp (f a) Q s') : wp (m >>= f) Q s :=
  hf _ _

theorem bind_apply (m : StateM σ α) (f : α → StateM σ β) (s : σ) :
    (m >>= f) s = f (m s).1 (m s).2 :=
  rfl

theorem get_apply (s : σ) : (get : StateM σ σ) s = (s, s) :=
  rfl

theorem modify_apply (f : σ → σ) (s : σ) : (modify f : StateM σ PUnit) s = (⟨⟩, f s) :=
  rfl

/-! ## Relations between the first and the last state -/

variable {r : σ → σ → Prop}

def Keeps (r : σ → σ → Prop) (m : StateM σ α) : Prop :=
  ∀ s, r s (m s).2

theorem Keeps.pure (hrefl : ∀ s, r s s) (a : α) : Keeps r (Pure.pure a : StateM σ α) :=
  fun s => hrefl s

theorem Keeps.bind (htrans : ∀ s₁ s₂ s₃, r s₁ s₂ → r s₂ s₃ → r s₁ s₃)
    {m : StateM σ α} {f : α → StateM σ β} (hm : Keeps r m) (hf : ∀ a, Keeps r (f a)) :
    Keeps r (m >>= f) :=
  fun s => htrans _ _ _ (hm s) (hf _ _)

/-! ## In an environment -/

/-- The state shows what the environment has done so far, and if its promise is kept in a later
state, it was kept in the earlier ones. -/
structure Environment (later : σ → σ → Prop) (kept : σ → Prop) : Prop where
  refl : ∀ s, later s s
  trans : ∀ s₁ s₂ s₃, later s₁ s₂ → later s₂ s₃ → later s₁ s₃
  earlier : ∀ s s', later s s' → kept s' → kept s

/-- Started in `P`, with the promise kept to its end, `m` ends in `Q`. -/
structure Meets (later : σ → σ → Prop) (kept : σ → Prop) (P : σ → Prop) (m : StateM σ α)
    (Q : α → σ → Prop) : Prop where
  later : Keeps later m
  holds : ∀ s, P s → kept (m s).2 → Q (m s).1 (m s).2

section Triples

variable {later : σ → σ → Prop} {kept : σ → Prop} (environment : Environment later kept)
  {P P' : σ → Prop} {Q Q' : α → σ → Prop} {R : β → σ → Prop}

theorem Meets.mono {m : StateM σ α} (h : Meets later kept P m Q) (hpre : ∀ s, P' s → P s)
    (hpost : ∀ a s, Q a s → Q' a s) : Meets later kept P' m Q' where
  later := h.later
  holds s hs hkept := hpost _ _ (h.holds s (hpre s hs) hkept)

/-- A computation that goes on from the state it reads. -/
theorem Meets.get {f : σ → StateM σ β}
    (hf : ∀ read, Meets later kept (fun s => P s ∧ s = read) (f read) R) :
    Meets later kept P (MonadState.get >>= f) R where
  later s := (hf s).later s
  holds s hs hkept := (hf s).holds s ⟨hs, rfl⟩ hkept

theorem Meets.update {f : σ → σ} {Q : PUnit → σ → Prop} (hlater : ∀ s, later s (f s))
    (h : ∀ s, P s → Q ⟨⟩ (f s)) : Meets later kept P (modify f) Q where
  later := hlater
  holds s hs _ := h s hs

include environment

theorem Environment.pure (a : α) (h : ∀ s, P s → Q a s) : Meets later kept P (Pure.pure a) Q where
  later := Keeps.pure environment.refl a
  holds s hs _ := h s hs

theorem Environment.bind {m : StateM σ α} {f : α → StateM σ β} (hm : Meets later kept P m Q)
    (hf : ∀ a, Meets later kept (Q a) (f a) R) : Meets later kept P (m >>= f) R where
  later := Keeps.bind environment.trans hm.later fun a => (hf a).later
  holds s hs hkept :=
    (hf _).holds _ (hm.holds s hs (environment.earlier _ _ ((hf _).later _) hkept)) hkept

end Triples

end RadsatLinux.Library.Stateful
