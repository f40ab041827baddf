import RadsatLinux.UBoot.KeyFrames

/-!
# The count of failed boots

Key 8 over the lifetime of a board.  `fram_bump_u64` starts from 0 when it cannot read the
key, so a count that was missed once starts over; as long as none is, the count only grows.
-/

namespace RadsatLinux.UBoot.BootFails

open RadsatLinux.Library.Crash
open RadsatLinux.Fram.Record RadsatLinux.Fram.Memory
open RadsatLinux.UBoot.Hardware RadsatLinux.UBoot.FramMission
open RadsatLinux.UBoot.Layout RadsatLinux.UBoot.LayoutGate
open RadsatLinux.UBoot.Recovery RadsatLinux.UBoot.KeyFrames

variable (fatFile : Disk → String → Option Disk)

/-! ## The two halves of a boot -/

/-- `radsat_fram_recovery_needed` up to the record of the probe: the bus to go back to and
whether the probe found a kernel, or `none` without the bus. -/
def checkProbe : Boot (Option (Nat × Bool)) := do
  let oldBus ← i2cGetBusNum
  if ← i2cSetBusNum configFramI2cBus then return none
  framEnsureLayoutHeader
  let probeOk := (← radsatEmmcProbe fatFile) == 0
  let _ ← framSetBool framKeyLastEmmcProbeOk probeOk
  return some (oldBus, probeOk)

/-- The rest of the boot. -/
def afterProbe (oldBus : Nat) (probeOk : Bool) : Boot (Option Int) := do
  let needed ← latchedAfterProbe probeOk
  let _ ← i2cSetBusNum oldBus
  if needed then return some (← radsatFramRunRecovery fatFile)
  return none

theorem recoveryBoot_eq :
    recoveryBoot fatFile = (do
      match ← checkProbe fatFile with
      | none => return none
      | some (oldBus, probeOk) => afterProbe fatFile oldBus probeOk) := by
  unfold recoveryBoot radsatFramRecoveryNeeded checkProbe afterProbe
  simp only [bind_assoc]
  congr
  funext oldBus
  congr
  funext busFails
  cases busFails with
  | true => rfl
  | false => simp only [bind_assoc, Bool.false_eq_true, if_false, pure_bind]

/-! ## Lives -/

/-- What a reader makes of the count. -/
def bootFails (chip : Chip) : Option U64 :=
  keyValue u64Kind framKeyTotalBootFails chip

/-- A board over many boots.  `last` is the value that key 8 last read as, and 0 as long as it
never did. -/
structure Life where
  durable : Durable
  last : Nat

def Life.after (l : Life) (durable : Durable) : Life :=
  ⟨durable, ((bootFails durable.fram).map BitVec.toNat).getD l.last⟩

/-- A boot from `durable` leaves `durable'`, with any failing transactions and the power
possibly cut. -/
def BootsTo (volatile : PowerOn) (durable durable' : Durable) : Prop :=
  ∃ b', EndsIn (recoveryBoot fatFile) (powerOn volatile durable) b' ∧ b'.toDurable = durable'

/-- The probe has failed and is recorded; `b` is the board as the count is to be bumped. -/
def ProbeFails (volatile : PowerOn) (durable : Durable) (b : Board) : Prop :=
  ∃ oldBus, checkProbe fatFile (powerOn volatile durable) = .ok (some (oldBus, false)) b

/-- The count is not read: the transaction fails, or slot A holds no good record. -/
def CountMissed (b : Board) : Prop :=
  (nextEvent b).isCut = false ∧ ((nextEvent b).isOk = false ∨ bootFails b.fram = none)

/-- A count other than 0 that was readable once is not missed, and has not come to its end. -/
def CountServed (volatile : PowerOn) (l : Life) : Prop :=
  ∀ b, ProbeFails fatFile volatile l.durable b →
    (CountMissed b → l.last = 0) ∧ l.last + 1 < 2 ^ 64

/-- A boot that does not miss the count, or anything that leaves key 8 alone. -/
inductive Step : Life → Life → Prop where
  | boot {volatile : PowerOn} {l : Life} {durable : Durable}
      (hserved : CountServed fatFile volatile l)
      (hboot : BootsTo fatFile volatile l.durable durable) : Step l (l.after durable)
  | linux {l : Life} {durable : Durable}
      (hkey : slotA durable.fram framKeyTotalBootFails =
        slotA l.durable.fram framKeyTotalBootFails) : Step l (l.after durable)

/-- What a boot should do to the count. -/
structure LifetimeCount (volatile : PowerOn) (l : Life) (durable : Durable) : Prop where
  kept : ∀ v, bootFails durable.fram = some v → l.last ≤ v.toNat
  raised : ∀ b, ProbeFails fatFile volatile l.durable b → (∀ event ∈ volatile.i2c, event = .ok) →
    (bootFails durable.fram).map BitVec.toNat = some (l.last + 1)

/-- The chip holds the count that was last read, if any, and a torn update of it shows. -/
structure Tracked (l : Life) : Prop where
  read : ∀ v, bootFails l.durable.fram = some v → v.toNat = l.last
  tears : bootFails l.durable.fram ≠ none ∨ l.last = 0 →
    TearsDetected framKeyTotalBootFails l.durable.fram (BitVec.ofNat 64 (l.last + 1))

section Runs

variable {fatFile} {volatile : PowerOn} {l l' l₀ : Life} {b b' : Board} {durable : Durable}

/-! ## Up to the bump -/

theorem keeps_checkProbe : Keeps (SlotKept framKeyTotalBootFails) (checkProbe fatFile) :=
  KeyFrames.keeps_then keeps_i2cGetBusNum fun _ =>
    KeyFrames.keeps_then (keeps_i2cSetBusNum _) fun _ =>
    keeps_ite (KeyFrames.keeps_pure _) <|
    KeyFrames.keeps_then (KeyFrames.keeps_framEnsureLayoutHeader (by decide)) fun _ =>
    KeyFrames.keeps_then (keeps_radsatEmmcProbe fatFile) fun _ =>
    KeyFrames.keeps_then (keeps_framSetKey _ _ (by decide) (by decide) (by decide)) fun _ =>
    KeyFrames.keeps_pure _

theorem keeps_framSetKey_framOnly {α : Type} (kind : ValueKind α) (id : U8) (value : α) :
    Keeps FramOnly (framSetKey kind id value) := by
  have hthen {β γ : Type} {m : Boot β} {f : β → Boot γ} (hm : Keeps FramOnly m)
      (hf : ∀ a, Keeps FramOnly (f a)) : Keeps FramOnly (m >>= f) :=
    Keeps.bind (r := FramOnly) (fun _ _ _ => FramOnly.trans) hm hf
  have hpure (failed : Bool) : Keeps FramOnly (pure failed : Boot Bool) :=
    Keeps.pure FramOnly.refl failed
  refine hthen (Layout.keeps_framWrite _ _) fun failed => ?_
  cases failed with
  | true => exact hpure true
  | false =>
      refine hthen (Layout.keeps_framWrite _ _) fun failed => ?_
      cases failed with
      | true => exact hpure true
      | false => exact hpure false

/-- After a probe the bus of the chip is selected. -/
theorem checkProbe_bus (b : Board) :
    wp (checkProbe fatFile)
      (fun r b' => r ≠ none → b'.bus = configFramI2cBus ∧ b'.i2c <:+ b.i2c)
      (fun _ _ => True) b := by
  unfold checkProbe i2cGetBusNum
  simp only [wp_bind, wp_get, wp_pure, wp_i2cSetBusNum_iff]
  cases hselected : b.busFails.headD false with
  | true => exact fun hnone => absurd rfl hnone
  | false =>
      have hbus : (afterSelect configFramI2cBus b).bus = configFramI2cBus := by
        rw [afterSelect, hselected]
        rfl
      simp only [Bool.false_eq_true, if_false]
      rw [wp_bind]
      refine wp_mono (Layout.keeps_framEnsureLayoutHeader _) (fun _ b₁ h₁ => ?_)
        fun _ _ _ => trivial
      rw [wp_bind]
      refine wp_mono (radsatEmmcProbe_spec b₁) (fun _ b₂ h₂ => ?_) fun _ _ _ => trivial
      rw [wp_bind]
      refine wp_mono (keeps_framSetKey_framOnly _ _ _ b₂) (fun _ b₃ h₃ _ => ?_)
        fun _ _ _ => trivial
      refine ⟨?_, ?_⟩
      · rw [h₃.bus, h₂.1.bus, h₁.bus, hbus]
      · have hsuffix := h₃.events
        rw [h₂.1.i2c] at hsuffix
        exact hsuffix.trans h₁.events

theorem keeps_afterProbe_true (oldBus : Nat) :
    Keeps (SlotKept framKeyTotalBootFails) (afterProbe fatFile oldBus true) := by
  refine KeyFrames.keeps_then ?_ fun needed => KeyFrames.keeps_then (keeps_i2cSetBusNum _) fun _ =>
    keeps_ite (KeyFrames.keeps_then ?_ fun _ => KeyFrames.keeps_pure _) (KeyFrames.keeps_pure _)
  · exact KeyFrames.keeps_then (keeps_framReadKey _ _) fun _ => KeyFrames.keeps_pure _
  · exact keeps_radsatFramRunRecovery fatFile (by decide) (by decide) (by decide) (by decide)
      (by decide) (by decide)

/-- What the boot does once the count has been bumped. -/
theorem keeps_latched (oldBus : Nat) :
    Keeps (SlotKept framKeyTotalBootFails) (do
      let _ ← framSetBool framKeyEmmcRecoveryNeeded true
      let _ ← i2cSetBusNum oldBus
      return some (← radsatFramRunRecovery fatFile)) :=
  KeyFrames.keeps_then (keeps_framSetKey _ _ (by decide) (by decide) (by decide)) fun _ =>
    KeyFrames.keeps_then (keeps_i2cSetBusNum _) fun _ =>
    KeyFrames.keeps_then (keeps_radsatFramRunRecovery fatFile (by decide) (by decide) (by decide)
      (by decide) (by decide) (by decide)) fun _ => KeyFrames.keeps_pure _

theorem afterProbe_false (oldBus : Nat) :
    afterProbe fatFile oldBus false = (do
      let _ ← framBumpU64 framKeyTotalBootFails
      let _ ← framSetBool framKeyEmmcRecoveryNeeded true
      let _ ← i2cSetBusNum oldBus
      return some (← radsatFramRunRecovery fatFile)) := by
  unfold afterProbe latchedAfterProbe
  simp only [Bool.not_false, if_true, bind_assoc, pure_bind]

/-! ## The bump -/

/-- Slot A of the count holds a torn version of what it held on `b` and the record of
`count`. -/
def BumpedTo (count : U64) (b b' : Board) : Prop :=
  ∃ stored, slotA b'.fram framKeyTotalBootFails =
    tear (slotA b.fram framKeyTotalBootFails) (framEncodeU64 framKeyTotalBootFails count 1) stored

/-- What the read of the count yields on the bus of the chip. -/
theorem seen_count (hbus : b.bus = configFramI2cBus) :
    (seen (keyOffset framKeyTotalBootFails) 32 b).bind (framDecode u64Kind framKeyTotalBootFails) =
      if (nextEvent b).isOk = true then bootFails b.fram else none := by
  rw [seen]
  by_cases hok : (nextEvent b).isOk = true
  · rw [if_pos ⟨hok, hbus⟩, if_pos hok]
    rfl
  · rw [if_neg fun hgood => hok hgood.1, if_neg hok]
    rfl

/-- A bump that is not cut short at its read writes the count after the one that it reads, or
after 0. -/
theorem wp_framBumpU64 {count : U64} (hbus : b.bus = configFramI2cBus)
    (hcut : (nextEvent b).isCut = false)
    (hread : ∀ v, bootFails b.fram = some v → v + 1 = count)
    (hmissed : CountMissed b → (1 : U64) = count) :
    wp (framBumpU64 framKeyTotalBootFails) (fun _ b' => BumpedTo count b b')
      (fun _ b' => BumpedTo count b b') b := by
  have hwrite (value : U64) (hvalue : value = count) :
      wp (framSetU64 framKeyTotalBootFails value) (fun _ b' => BumpedTo count b b')
        (fun _ b' => BumpedTo count b b') (useEvent b) := by
    rw [hvalue]
    exact wp_framSetKey_torn u64Kind count (by decide) (useEvent b)
  unfold framBumpU64 framReadU64
  rw [wp_bind, wp_framReadKey_iff, seen_count hbus, hcut, if_neg Bool.false_ne_true]
  cases hok : (nextEvent b).isOk with
  | false => exact hwrite _ (hmissed ⟨hcut, Or.inl hok⟩)
  | true =>
      rw [if_pos rfl]
      cases hcount : bootFails b.fram with
      | some v => exact hwrite _ (hread v hcount)
      | none => exact hwrite _ (hmissed ⟨hcut, Or.inr hcount⟩)

theorem wp_framBumpU64_cut (hcut : (nextEvent b).isCut = true) :
    wp (framBumpU64 framKeyTotalBootFails) (fun _ _ => False)
      (fun _ b' => SlotKept framKeyTotalBootFails b b') b := by
  unfold framBumpU64 framReadU64
  rw [wp_bind, wp_framReadKey_iff, if_pos hcut]
  rfl

theorem nextEvent_ok (hevents : ∀ event ∈ b.i2c, event = .ok) : nextEvent b = .ok := by
  unfold nextEvent
  cases hi2c : b.i2c with
  | nil => rfl
  | cons event rest => exact hevents event (by rw [hi2c]; exact List.mem_cons_self)

/-- A bump on which nothing fails. -/
theorem wp_framBumpU64_ok (hbus : b.bus = configFramI2cBus)
    (hevents : ∀ event ∈ b.i2c, event = .ok) :
    wp (framBumpU64 framKeyTotalBootFails)
      (fun _ b' => bootFails b'.fram = some ((bootFails b.fram).getD 0 + 1))
      (fun _ _ => False) b := by
  have hused : ∀ event ∈ (useEvent b).i2c, event = .ok :=
    fun event hmem => hevents event (List.mem_of_mem_tail hmem)
  have hrel : (useEvent b).I2cReliable := by
    intro event hmem stored hfail
    rw [hused event hmem] at hfail
    cases hfail
  unfold framBumpU64 framReadU64
  rw [wp_bind, wp_framReadKey_iff, seen_count hbus, nextEvent_ok hevents]
  simp only [I2cEvent.isCut_ok, I2cEvent.isOk_ok, Bool.false_eq_true, if_false, if_true]
  have hbus' : (useEvent b).bus = configFramI2cBus := hbus
  refine wp_mono (framWriteKeySlots_spec _ (by decide) hbus' hrel) ?_ ?_
  · rintro _ b' ⟨-, -, hslot⟩
    rw [bootFails, keyValue, hslot]
    exact framDecode_framEncode u64Kind _ _ 1
  · rintro e b' ⟨-, ⟨stored, rest, hi2c, -⟩ | ⟨stored, rest, hi2c, -⟩⟩
    · cases hused (.cut stored) (by rw [hi2c]; exact List.mem_cons_self)
    · cases hused (.cut stored) (by rw [hi2c]; simp)

/-! ## One boot -/

theorem ofNat_succ (n : Nat) : BitVec.ofNat 64 n + 1 = BitVec.ofNat 64 (n + 1) := by
  rw [BitVec.ofNat_add]
  rfl

theorem eq_ofNat_of_toNat {v : U64} {n : Nat} (h : v.toNat = n) : v = BitVec.ofNat 64 n := by
  rw [← h, BitVec.ofNat_toNat, BitVec.setWidth_eq]

/-- What a boot may do to key 8 if it does not miss the count: nothing, or write the next one. -/
def Advances (l : Life) (b b' : Board) : Prop :=
  SlotKept framKeyTotalBootFails b b' ∨
    BumpedTo (BitVec.ofNat 64 (l.last + 1)) b b' ∧ l.last + 1 < 2 ^ 64 ∧
      (bootFails b.fram ≠ none ∨ l.last = 0)

theorem Advances.after {b₁ b₂ : Board} (hbefore : SlotKept framKeyTotalBootFails b b₁)
    (h : Advances l b₁ b₂) (hafter : SlotKept framKeyTotalBootFails b₂ b') : Advances l b b' := by
  rcases h with hkept | ⟨⟨stored, hslot⟩, hroom, hread⟩
  · exact Or.inl ((hbefore.trans hkept).trans hafter)
  · refine Or.inr ⟨⟨stored, ?_⟩, hroom, ?_⟩
    · rw [Eq.trans hafter hslot, hbefore]
    · rw [bootFails, ← hbefore.keyValue_eq u64Kind]
      exact hread

theorem wp_afterProbe_false (oldBus : Nat) (hbus : b.bus = configFramI2cBus)
    (hread : ∀ v, bootFails b.fram = some v → v.toNat = l.last)
    (hmissed : CountMissed b → l.last = 0) (hroom : l.last + 1 < 2 ^ 64) :
    wp (afterProbe fatFile oldBus false) (fun _ b' => Advances l b b')
      (fun _ b' => Advances l b b') b := by
  have hbump : wp (framBumpU64 framKeyTotalBootFails) (fun _ b' => Advances l b b')
      (fun _ b' => Advances l b b') b := by
    cases hcut : (nextEvent b).isCut with
    | true => exact wp_mono (wp_framBumpU64_cut hcut) nofun fun _ _ h => Or.inl h
    | false =>
        have hknown : bootFails b.fram ≠ none ∨ l.last = 0 := by
          by_cases hnone : bootFails b.fram = none
          · exact Or.inr (hmissed ⟨hcut, Or.inr hnone⟩)
          · exact Or.inl hnone
        have hnext : ∀ v, bootFails b.fram = some v → v + 1 = BitVec.ofNat 64 (l.last + 1) := by
          intro v hv
          rw [eq_ofNat_of_toNat (hread v hv), ofNat_succ]
        have hzero : CountMissed b → (1 : U64) = BitVec.ofNat 64 (l.last + 1) := by
          intro hmiss
          rw [hmissed hmiss]
          rfl
        exact wp_mono (wp_framBumpU64 hbus hcut hnext hzero)
          (fun _ _ h => Or.inr ⟨h, hroom, hknown⟩) fun _ _ h => Or.inr ⟨h, hroom, hknown⟩
  rw [afterProbe_false]
  refine wp_seq hbump fun _ b₁ h₁ => ?_
  exact wp_mono (keeps_latched oldBus b₁) (fun _ b' h => h₁.after (.refl _ b) h)
    fun _ b' h => h₁.after (.refl _ b) h

/-- A boot that does not miss the count leaves it, or writes the next one. -/
theorem advances_of_boot (htracked : Tracked l) (hserved : CountServed fatFile volatile l)
    (hends : EndsIn (recoveryBoot fatFile) (powerOn volatile l.durable) b') :
    Advances l (powerOn volatile l.durable) b' := by
  refine hends.wp_state (P := fun b' => Advances l (powerOn volatile l.durable) b') ?_
  rw [recoveryBoot_eq]
  refine wp_seq (wp_mono (wp_and (wp_self _ _) (wp_and (keeps_checkProbe _) (checkProbe_bus _)))
    (fun _ _ h => h) fun _ _ h => Or.inl h.2.1) ?_
  rintro r b ⟨hrun, hkept, hbus⟩
  cases r with
  | none => exact Or.inl hkept
  | some found =>
  obtain ⟨oldBus, probeOk⟩ := found
  have hkept : SlotKept framKeyTotalBootFails (powerOn volatile l.durable) b := hkept
  cases probeOk with
  | true =>
      exact wp_mono (keeps_afterProbe_true oldBus b) (fun _ _ h => Or.inl (hkept.trans h))
        fun _ _ h => Or.inl (hkept.trans h)
  | false =>
      obtain ⟨hmissed, hroom⟩ := hserved b ⟨oldBus, hrun⟩
      have hread : ∀ v, bootFails b.fram = some v → v.toNat = l.last := by
        intro v hv
        rw [bootFails, hkept.keyValue_eq] at hv
        exact htracked.read v hv
      exact wp_mono (wp_afterProbe_false oldBus (hbus nofun).1 hread hmissed hroom)
        (fun _ b' h => h.after hkept (.refl _ b')) fun _ b' h => h.after hkept (.refl _ b')

theorem wp_afterProbe_ok (oldBus : Nat) (hbus : b.bus = configFramI2cBus)
    (hevents : ∀ event ∈ b.i2c, event = .ok) :
    wp (afterProbe fatFile oldBus false)
      (fun _ b' => bootFails b'.fram = some ((bootFails b.fram).getD 0 + 1))
      (fun _ b' => bootFails b'.fram = some ((bootFails b.fram).getD 0 + 1)) b := by
  rw [afterProbe_false]
  refine wp_seq (wp_mono (wp_framBumpU64_ok hbus hevents) (fun _ _ h => h) nofun) ?_
  intro _ b₁ h₁
  have hlatched (b₂ : Board) (h : SlotKept framKeyTotalBootFails b₁ b₂) :
      bootFails b₂.fram = some ((bootFails b.fram).getD 0 + 1) :=
    (h.keyValue_eq u64Kind).trans h₁
  exact wp_mono (keeps_latched oldBus b₁) (fun _ b₂ h => hlatched b₂ h) fun _ b₂ h => hlatched b₂ h

/-- A boot on which the probe fails and no transaction does counts it. -/
theorem counted_of_boot (htracked : Tracked l) (hserved : CountServed fatFile volatile l)
    (hfails : ProbeFails fatFile volatile l.durable b)
    (hevents : ∀ event ∈ volatile.i2c, event = .ok)
    (hends : EndsIn (recoveryBoot fatFile) (powerOn volatile l.durable) b') :
    (bootFails b'.fram).map BitVec.toNat = some (l.last + 1) := by
  obtain ⟨hmissed, hroom⟩ := hserved b hfails
  obtain ⟨oldBus, hrun⟩ := hfails
  have hkept : SlotKept framKeyTotalBootFails (powerOn volatile l.durable) b :=
    keeps_checkProbe.of_ok hrun
  have hcount : bootFails b.fram = bootFails l.durable.fram := hkept.keyValue_eq u64Kind
  have hafter := @checkProbe_bus fatFile (powerOn volatile l.durable)
  rw [wp, hrun] at hafter
  obtain ⟨hbus, hsuffix⟩ := hafter (Option.some_ne_none _)
  have hleft : ∀ event ∈ b.i2c, event = .ok := fun event hmem =>
    hevents event (hsuffix.subset hmem)
  have hboot := @wp_afterProbe_ok fatFile b oldBus hbus hleft
  have hvalue : ((bootFails b.fram).getD 0 + 1).toNat = l.last + 1 := by
    have hread : ((bootFails b.fram).getD 0).toNat = l.last := by
      cases hfound : bootFails b.fram with
      | some v => exact htracked.read v (hcount.symm.trans hfound)
      | none =>
          have hcut : (nextEvent b).isCut = false := by rw [nextEvent_ok hleft]; rfl
          exact (hmissed ⟨hcut, Or.inr hfound⟩).symm
    rw [BitVec.toNat_add, hread]
    exact Nat.mod_eq_of_lt hroom
  have hrest : recoveryBoot fatFile (powerOn volatile l.durable) =
      afterProbe fatFile oldBus false b := by
    rw [recoveryBoot_eq]
    exact bind_of_ok _ hrun
  unfold wp at hboot
  rcases hends with ⟨r, hend⟩ | ⟨e, hend⟩
  all_goals
    rw [hrest] at hend
    rw [hend] at hboot
    rw [hboot, Option.map_some, hvalue]

/-! ## All boots -/

theorem Life.after_eq {n : Nat}
    (h : (bootFails durable.fram).map BitVec.toNat = some n) : l.after durable = ⟨durable, n⟩ := by
  rw [Life.after, h, Option.getD_some]

theorem Life.after_none (h : bootFails durable.fram = none) :
    l.after durable = ⟨durable, l.last⟩ := by
  rw [Life.after, h]
  rfl

/-- A life that leaves slot A of the count alone. -/
theorem Tracked.kept (htracked : Tracked l)
    (hslot : slotA durable.fram framKeyTotalBootFails =
      slotA l.durable.fram framKeyTotalBootFails) :
    Tracked (l.after durable) ∧ (l.after durable).last = l.last := by
  have hcount : bootFails durable.fram = bootFails l.durable.fram :=
    congrArg (framDecode u64Kind framKeyTotalBootFails) hslot
  have hafter : l.after durable = ⟨durable, l.last⟩ := by
    cases hread : bootFails l.durable.fram with
    | none => exact Life.after_none (hcount.trans hread)
    | some v =>
        refine Life.after_eq ?_
        rw [hcount, hread, Option.map_some, htracked.read v hread]
  have hkept : Tracked ⟨durable, l.last⟩ := by
    refine ⟨fun v hv => htracked.read v (hcount.symm.trans hv), fun hread => ?_⟩
    have hknown : bootFails l.durable.fram ≠ none ∨ l.last = 0 := by
      rcases hread with hsome | hzero
      · exact Or.inl fun hnone => hsome (hcount.trans hnone)
      · exact Or.inr hzero
    intro stored
    rw [hslot]
    exact htracked.tears hknown stored
  rw [hafter]
  exact ⟨hkept, rfl⟩

/-- A boot that may only write the next count keeps track of it. -/
theorem Tracked.advanced (htracked : Tracked l)
    (h : Advances l (powerOn volatile l.durable) b') :
    Tracked (l.after b'.toDurable) ∧ l.last ≤ (l.after b'.toDurable).last := by
  have hsame (hslot : slotA b'.fram framKeyTotalBootFails =
      slotA l.durable.fram framKeyTotalBootFails) :
      Tracked (l.after b'.toDurable) ∧ l.last ≤ (l.after b'.toDurable).last := by
    obtain ⟨hafter, hlast⟩ :
        Tracked (l.after b'.toDurable) ∧ (l.after b'.toDurable).last = l.last :=
      htracked.kept hslot
    exact ⟨hafter, Nat.le_of_eq hlast.symm⟩
  rcases h with hkept | ⟨⟨stored, hslot⟩, hroom, hknown⟩
  · exact hsame hkept
  · have htears := htracked.tears hknown
    have hslot : slotA b'.fram framKeyTotalBootFails =
        tear (slotA l.durable.fram framKeyTotalBootFails)
          (framEncodeU64 framKeyTotalBootFails (BitVec.ofNat 64 (l.last + 1)) 1) stored := hslot
    rcases htears stored with hold | hnew | hcrc
    · rw [hold] at hslot
      exact hsame hslot
    · -- The next count is in place.
      have hcount : bootFails b'.fram = some (BitVec.ofNat 64 (l.last + 1)) := by
        rw [bootFails, keyValue, hslot, hnew]
        exact framDecode_framEncode u64Kind _ _ 1
      have hvalue : (BitVec.ofNat 64 (l.last + 1)).toNat = l.last + 1 := by
        rw [BitVec.toNat_ofNat, Nat.mod_eq_of_lt hroom]
      have hafter : l.after b'.toDurable = ⟨b'.toDurable, l.last + 1⟩ := by
        refine Life.after_eq ?_
        rw [hcount, Option.map_some, hvalue]
      rw [hafter]
      refine ⟨⟨fun v hv => ?_, fun _ => ?_⟩, Nat.le_succ _⟩
      · cases hcount.symm.trans hv
        exact hvalue
      · rw [← ofNat_succ]
        exact tearsDetected_of_count (hslot.trans hnew)
    · -- The count is gone, and stays so unless it was never there.
      have hnone : bootFails b'.fram = none := by
        rw [bootFails, keyValue, hslot]
        exact framDecode_of_not_crcOk u64Kind _ hcrc
      rw [Life.after_none hnone]
      refine ⟨⟨fun v hv => ?_, fun _ => htears.torn hslot⟩, Nat.le_refl _⟩
      cases hnone.symm.trans hv

theorem Step.tracked (hstep : Step fatFile l l') (htracked : Tracked l) :
    Tracked l' ∧ l.last ≤ l'.last := by
  cases hstep with
  | boot hserved hboot =>
      obtain ⟨b', hends, rfl⟩ := hboot
      exact htracked.advanced (advances_of_boot htracked hserved hends)
  | linux hkey =>
      obtain ⟨hafter, hlast⟩ := htracked.kept hkey
      exact ⟨hafter, Nat.le_of_eq hlast.symm⟩

theorem tracked_of_run (hrun : Relation.ReflTransGen (Step fatFile) l₀ l)
    (hinit : Tracked l₀) : Tracked l ∧ l₀.last ≤ l.last := by
  induction hrun with
  | refl => exact ⟨hinit, Nat.le_refl _⟩
  | tail _ hlast ih =>
      obtain ⟨htracked, hle⟩ := hlast.tracked ih.1
      exact ⟨htracked, ih.2.trans hle⟩

/-- In every run of boots that do not miss a count other than 0, the values that key 8 reads
as never decrease, and the next such boot counts a probe that fails. -/
theorem lifetimeCount_of_run (hinit : Tracked l₀)
    (hrun : Relation.ReflTransGen (Step fatFile) l₀ l) :
    (∀ l' v v', Relation.ReflTransGen (Step fatFile) l l' →
      bootFails l.durable.fram = some v → bootFails l'.durable.fram = some v' → v ≤ v') ∧
    ∀ volatile durable, CountServed fatFile volatile l →
      BootsTo fatFile volatile l.durable durable → LifetimeCount fatFile volatile l durable := by
  have htracked := (tracked_of_run hrun hinit).1
  constructor
  · intro l' v v' hrun' hv hv'
    obtain ⟨htracked', hle⟩ := tracked_of_run hrun' htracked
    rw [← htracked.read v hv, ← htracked'.read v' hv'] at hle
    exact hle
  · rintro volatile durable hserved ⟨b', hends, rfl⟩
    obtain ⟨hafter, hle⟩ := htracked.advanced (advances_of_boot htracked hserved hends)
    refine ⟨fun v hv => ?_, fun b hfails hevents => ?_⟩
    · rw [Life.after_eq (by rw [hv]; rfl)] at hle
      exact hle
    · exact counted_of_boot htracked hserved hfails hevents hends

/-! ## Where a life begins -/

theorem tracked_of_record {value : U64} (hlast : l.last = value.toNat)
    (hslot : slotA l.durable.fram framKeyTotalBootFails =
      framEncodeU64 framKeyTotalBootFails value 1) : Tracked l := by
  have hcount : bootFails l.durable.fram = some value := by
    rw [bootFails, keyValue, hslot]
    exact framDecode_framEncode u64Kind _ value 1
  refine ⟨fun v hv => ?_, fun _ => ?_⟩
  · cases hcount.symm.trans hv
    exact hlast.symm
  · rw [hlast, ← ofNat_succ, BitVec.ofNat_toNat, BitVec.setWidth_eq]
    exact tearsDetected_of_count hslot

/-- On a chip that was never written the first record, too, is torn visibly. -/
theorem tracked_of_blank (hlast : l.last = 0)
    (hslot : slotA l.durable.fram framKeyTotalBootFails = Vector.replicate 32 0xff) :
    Tracked l := by
  refine ⟨fun v hv => ?_, fun _ => ?_⟩
  · cases (keyValue_of_blank hslot).symm.trans hv
  · rw [hlast]
    exact tearsDetected_of_blank (Or.inl rfl) hslot

end Runs

/-! ## A count that starts over -/

def noKernel (_ : Disk) (_ : String) : Option Disk :=
  none

/-- Two boots have failed. -/
def twoFails : Durable :=
  ⟨chipWith framKeyTotalBootFails (framEncodeU64 framKeyTotalBootFails 2 1), fun _ _ => 0,
    fun _ _ => 0⟩

/-- The read of the count fails, and so does the selection of the bus for a restore. -/
def countUnread : PowerOn :=
  ⟨0, .sd, fun _ _ => 0, [false, false, true], [.ok, .ok, .ok, .ok, .fail 0], []⟩

/-- The third boot that fails does not read the count, and puts it back to 1. -/
theorem not_lifetimeCount :
    Tracked ⟨twoFails, 2⟩ ∧ bootFails twoFails.fram = some 2 ∧
      ∃ durable, BootsTo noKernel countUnread twoFails durable ∧
        bootFails durable.fram = some 1 ∧
        ¬ LifetimeCount noKernel countUnread ⟨twoFails, 2⟩ durable := by
  have hslot : slotA twoFails.fram framKeyTotalBootFails =
      framEncodeU64 framKeyTotalBootFails 2 1 := by decide +kernel
  have hboot : returned (fun b => bootFails b.fram)
      (recoveryBoot noKernel (powerOn countUnread twoFails)) = some (some (-1), some 1) := by
    decide +kernel
  obtain ⟨b, hrun, hcount⟩ := ok_of_returned hboot
  refine ⟨tracked_of_record rfl hslot, ?_, b.toDurable, ⟨b, Or.inl ⟨_, hrun⟩, rfl⟩, hcount,
    fun hlife => ?_⟩
  · rw [bootFails, keyValue, hslot]
    exact framDecode_framEncode u64Kind _ 2 1
  · exact absurd (hlife.kept 1 hcount) (by decide)

/-- A board with a blank chip. -/
def blank : Durable :=
  ⟨fun _ => 0xff, fun _ _ => 0, fun _ _ => 0⟩

/-- Nothing fails but the selection of the bus for a restore. -/
def countRead : PowerOn :=
  ⟨0, .sd, fun _ _ => 0, [false, false, true], [], []⟩

/-- The first boot of a board fails, and is counted. -/
theorem lifetimeCount_of_run_blank : ∃ l, Relation.ReflTransGen (Step noKernel) ⟨blank, 0⟩ l ∧
    bootFails l.durable.fram = some 1 ∧
    ∀ volatile durable, CountServed noKernel volatile l →
      BootsTo noKernel volatile l.durable durable → LifetimeCount noKernel volatile l durable := by
  have hslot : slotA blank.fram framKeyTotalBootFails = Vector.replicate 32 0xff := by
    decide +kernel
  have hboot : returned (fun b => bootFails b.fram)
      (recoveryBoot noKernel (powerOn countRead blank)) = some (some (-1), some 1) := by
    decide +kernel
  obtain ⟨b, hrun, hcount⟩ := ok_of_returned hboot
  have hserved : CountServed noKernel countRead ⟨blank, 0⟩ := fun _ _ => ⟨fun _ => rfl, by decide⟩
  have hboots : BootsTo noKernel countRead blank b.toDurable := ⟨b, Or.inl ⟨_, hrun⟩, rfl⟩
  have hstep : Step noKernel ⟨blank, 0⟩ (Life.after ⟨blank, 0⟩ b.toDurable) :=
    .boot hserved hboots
  have htracked : Tracked ⟨blank, 0⟩ := tracked_of_blank rfl hslot
  obtain ⟨-, hnext⟩ := lifetimeCount_of_run htracked (.single hstep)
  exact ⟨_, .single hstep, hcount, hnext⟩

end RadsatLinux.UBoot.BootFails
