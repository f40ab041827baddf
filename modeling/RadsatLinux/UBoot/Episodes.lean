import RadsatLinux.UBoot.Attempts

/-!
# Recovery episodes

Boots, restores and what Linux does in between, from one successful restore to the next.
Nothing resets the attempt counter, so that an episode finds the attempts of all earlier
ones counted against it.
-/

namespace RadsatLinux.UBoot.Episodes

open RadsatLinux.Library.Crash RadsatLinux.Library.BlockDevice
open RadsatLinux.Fram.Record RadsatLinux.Fram.Memory RadsatLinux.Fram.Burst
open RadsatLinux.UBoot.Hardware RadsatLinux.UBoot.FramMission
open RadsatLinux.UBoot.Layout RadsatLinux.UBoot.LayoutGate
open RadsatLinux.UBoot.Recovery RadsatLinux.UBoot.RestoreSafety RadsatLinux.UBoot.KeyFrames
open RadsatLinux.UBoot.Attempts

variable (fatFile : Disk → String → Option Disk)

/-! ## Histories -/

/-- A board over many boots.  `begun` counts the restores begun from sector 0, down to those
whose update of the counter was cut short, and `since` the copies started there since the
last restore that succeeded. -/
structure History where
  durable : Durable
  begun : Nat
  since : Nat

/-- Whether a copy that was entered at `offset` was started there or resumed. -/
def started (offset : Nat) : Nat :=
  if offset = 0 then 1 else 0

/-- Whether the power went while or after the counter was updated. -/
def cutAfterCount (b b' : Board) : Nat :=
  if slotA b'.fram framKeyEmmcRecoveryAttempts = slotA b.fram framKeyEmmcRecoveryAttempts then 0
  else 1

/-- One boot, with any failing transactions and the power possibly cut, or anything that
Linux does: it writes no key 10, and may complete a restore of its own. -/
inductive Step : History → History → Prop where
  | checkCut {volatile : PowerOn} {h : History} {e : PowerCut} {b : Board}
      (hneeded : radsatFramRecoveryNeeded fatFile (powerOn volatile h.durable) = .error e b) :
      Step h { h with durable := b.toDurable }
  | notNeeded {volatile : PowerOn} {h : History} {b : Board}
      (hneeded : radsatFramRecoveryNeeded fatFile (powerOn volatile h.durable) = .ok false b) :
      Step h { h with durable := b.toDurable }
  | enterCut {volatile : PowerOn} {h : History} {e : PowerCut} {b b' : Board}
      (hneeded : radsatFramRecoveryNeeded fatFile (powerOn volatile h.durable) = .ok true b)
      (henter : enterRestore b = .error e b') :
      Step h { h with durable := b'.toDurable, begun := h.begun + cutAfterCount b b' }
  | refused {volatile : PowerOn} {h : History} {b b' : Board}
      (hneeded : radsatFramRecoveryNeeded fatFile (powerOn volatile h.durable) = .ok true b)
      (henter : enterRestore b = .ok none b') : Step h { h with durable := b'.toDurable }
  | restored {volatile : PowerOn} {h : History} {b b' b'' : Board} {oldBus offset : Nat}
      (hneeded : radsatFramRecoveryNeeded fatFile (powerOn volatile h.durable) = .ok true b)
      (henter : enterRestore b = .ok (some (oldBus, offset)) b')
      (hrestore : restoreFrom fatFile oldBus offset b' = .ok 0 b'') :
      Step h ⟨b''.toDurable, h.begun + started offset, 0⟩
  | failed {volatile : PowerOn} {h : History} {b b' b'' : Board} {oldBus offset : Nat} {ret : Int}
      (hneeded : radsatFramRecoveryNeeded fatFile (powerOn volatile h.durable) = .ok true b)
      (henter : enterRestore b = .ok (some (oldBus, offset)) b')
      (hrestore : restoreFrom fatFile oldBus offset b' = .ok ret b'') (hret : ret ≠ 0) :
      Step h ⟨b''.toDurable, h.begun + started offset, h.since + started offset⟩
  | restoreCut {volatile : PowerOn} {h : History} {b b' b'' : Board} {oldBus offset : Nat}
      {e : PowerCut}
      (hneeded : radsatFramRecoveryNeeded fatFile (powerOn volatile h.durable) = .ok true b)
      (henter : enterRestore b = .ok (some (oldBus, offset)) b')
      (hrestore : restoreFrom fatFile oldBus offset b' = .error e b'') :
      Step h ⟨b''.toDurable, h.begun + started offset, h.since + started offset⟩
  | linux {h : History} {durable : Durable} {since : Nat}
      (hkey : slotA durable.fram framKeyEmmcRecoveryAttempts =
        slotA h.durable.fram framKeyEmmcRecoveryAttempts)
      (hsince : since = h.since ∨ since = 0) : Step h ⟨durable, h.begun, since⟩

/-- No boot that needs recovery and selects the FRAM bus is turned back at the cap. -/
def HasBudget (h : History) : Prop :=
  ∀ volatile b b', radsatFramRecoveryNeeded fatFile (powerOn volatile h.durable) = .ok true b →
    b.busFails.headD false = false → enterRestore b ≠ .ok none b'

/-- An episode has its own budget: while it has started fewer copies than the cap, none of
its boots is turned back. -/
def EpisodeBudget (h : History) : Prop :=
  h.since < framRecoveryAttemptCap.toNat → HasBudget fatFile h

/-- What updates leave in the slot of the counter: the body of the record of a count up to `n`,
with whatever checksum, or nothing that reads as a count before the first record is complete. -/
inductive CounterSlot (n : Nat) (chip : Chip) : Prop where
  | record {v : U64} (hv : v.toNat ≤ n) (hbyte : v.toNat < 2 ^ 8)
      (hbody : ∀ i (hi : i < 28), (slotA chip framKeyEmmcRecoveryAttempts)[i] =
        (framEncodeU64 framKeyEmmcRecoveryAttempts v 1)[i]) : CounterSlot n chip
  | unread (hnone : counter chip = none)
      (htears : TearsDetected framKeyEmmcRecoveryAttempts chip 1) : CounterSlot n chip

section Runs

variable {fatFile} {n : Nat} {b b' b'' : Board} {h h' h₀ : History}

theorem CounterSlot.congr {chip chip' : Chip} (h : CounterSlot n chip)
    (hslot : slotA chip' framKeyEmmcRecoveryAttempts = slotA chip framKeyEmmcRecoveryAttempts) :
    CounterSlot n chip' := by
  cases h with
  | record hv hbyte hbody =>
      refine .record hv hbyte fun i hi => ?_
      rw [hslot]
      exact hbody i hi
  | unread hnone htears =>
      refine .unread ?_ fun count => ?_
      · rw [counter, keyValue, hslot]
        exact hnone
      · rw [hslot]
        exact htears count

theorem CounterSlot.kept (h : CounterSlot n b.fram)
    (hkept : SlotKept framKeyEmmcRecoveryAttempts b b') : CounterSlot n b'.fram :=
  h.congr hkept

theorem CounterSlot.mono {m : Nat} {chip : Chip} (h : CounterSlot n chip) (hle : n ≤ m) :
    CounterSlot m chip := by
  cases h with
  | record hv hbyte hbody => exact .record (hv.trans hle) hbyte hbody
  | unread hnone htears => exact .unread hnone htears

/-- The counter reads no more than `n`. -/
theorem CounterSlot.counter_le {chip : Chip} {v : U64} (h : CounterSlot n chip)
    (hcounter : counter chip = some v) : v.toNat ≤ n := by
  cases h with
  | record hv hbyte hbody =>
      rw [eq_of_framDecode_body u64Kind _ _ 1 hbody hcounter]
      exact hv
  | unread hnone htears =>
      rw [hnone] at hcounter
      cases hcounter

/-- A count below the cap, and the one after it, fit a byte. -/
theorem toNat_succ_of_lt_cap {v : U64} (hcap : v < framRecoveryAttemptCap) :
    (v + 1).toNat = v.toNat + 1 ∧ v.toNat + 1 < 2 ^ 8 := by
  have hlt : v.toNat < 5 := hcap
  have hone : (1 : U64).toNat = 1 := rfl
  refine ⟨?_, by omega⟩
  rw [BitVec.toNat_add, hone]
  exact Nat.mod_eq_of_lt (by omega)

/-- One count more, whatever the update of the counter came to. -/
theorem CounterSlot.counted (h : CounterSlot n b.fram) (hcounted : Counted b b') :
    CounterSlot (n + 1) b'.fram := by
  obtain ⟨v, count, hread, hcap, hslot⟩ := hcounted
  have hv : v.toNat ≤ n := by
    rcases hread with hcounter | hzero
    · exact h.counter_le hcounter
    · rw [hzero]
      exact Nat.zero_le n
  obtain ⟨hnext, hsmall⟩ := toNat_succ_of_lt_cap hcap
  have hbyte' : (v + 1).toNat < 2 ^ 8 := by omega
  have hrecord (hbody : ∀ i (hi : i < 28), (slotA b'.fram framKeyEmmcRecoveryAttempts)[i] =
      (framEncodeU64 framKeyEmmcRecoveryAttempts (v + 1) 1)[i]) : CounterSlot (n + 1) b'.fram :=
    .record (by omega) hbyte' hbody
  cases h with
  | @record w hw hbyte hbody =>
      rcases tear_body_of_byte _ 1 hbyte hbyte' hbody count with hold | hnew
      · rw [← hslot] at hold
        exact .record (hw.trans (Nat.le_succ n)) hbyte hold
      · rw [← hslot] at hnew
        exact hrecord hnew
  | unread hnone htears =>
      -- The count was not read, and the first record is written, perhaps once more.
      have hzero : v = 0 := hread.resolve_left fun hcounter => by
        rw [hnone] at hcounter
        cases hcounter
      subst hzero
      rcases htears count with hold | hnew | hcrc
      · exact (CounterSlot.unread hnone htears).congr (hslot.trans hold) |>.mono (Nat.le_succ n)
      · refine hrecord fun i hi => ?_
        rw [hslot]
        exact congrArg (fun raw : Slot => raw[i]) hnew
      · refine .unread ?_ (htears.torn hslot)
        rw [counter, keyValue, hslot]
        exact framDecode_of_not_crcOk u64Kind _ hcrc

theorem keeps_restoreFrom (oldBus offset : Nat) :
    Keeps (SlotKept framKeyEmmcRecoveryAttempts) (restoreFrom fatFile oldBus offset) :=
  KeyFrames.keeps_then keeps_mmcRescan fun _ =>
    KeyFrames.keeps_then (keeps_copyFrom _ _ (by decide) (by decide)) fun _ =>
    keeps_ite (KeyFrames.keeps_pure _) <|
    KeyFrames.keeps_then (keeps_radsatEmmcProbe fatFile) fun _ =>
    keeps_ite (KeyFrames.keeps_pure _) <|
    KeyFrames.keeps_then (keeps_clearRecovery _ (by decide) (by decide) (by decide) (by decide)
      (by decide)) fun _ => KeyFrames.keeps_pure _

theorem keeps_needed :
    Keeps (SlotKept framKeyEmmcRecoveryAttempts) (radsatFramRecoveryNeeded fatFile) :=
  keeps_radsatFramRecoveryNeeded fatFile (by decide) (by decide) (by decide) (by decide)

theorem kept_of_error {α : Type} {id : U8} {m : Boot α} {e : PowerCut}
    (hm : Keeps (SlotKept id) m) (hrun : m b = .error e b') : SlotKept id b b' := by
  have hkept := hm b
  rw [wp, hrun] at hkept
  exact hkept

/-- A copy that is entered at `offset` has counted when it starts over. -/
theorem counterSlot_entered {oldBus offset : Nat} (hcount : CounterSlot n b.fram)
    (henter : enterRestore b = .ok (some (oldBus, offset)) b') :
    CounterSlot (n + started offset) b'.fram := by
  obtain ⟨-, hresumed, hslot⟩ := wp_ok (enterRestore_spec b) henter
  unfold started
  split
  · rcases hslot with hkept | hcounted
    · exact (hcount.kept hkept).mono (Nat.le_succ n)
    · exact hcount.counted hcounted
  · next hoffset =>
      refine hcount.kept (hresumed ?_)
      rintro bus heq
      cases heq
      exact hoffset rfl

/-- A step keeps the counter within the restores begun. -/
theorem Step.counterSlot (hstep : Step fatFile h h')
    (hcount : CounterSlot h.begun h.durable.fram) : CounterSlot h'.begun h'.durable.fram := by
  have hneededKept {volatile : PowerOn} {needed : Bool} {b : Board}
      (hneeded : radsatFramRecoveryNeeded fatFile (powerOn volatile h.durable) = .ok needed b) :
      CounterSlot h.begun b.fram :=
    CounterSlot.kept (b := powerOn volatile h.durable) hcount (keeps_needed.of_ok hneeded)
  cases hstep with
  | @checkCut volatile _ e b hneeded =>
      exact CounterSlot.kept (b := powerOn volatile h.durable) hcount
        (kept_of_error keeps_needed hneeded)
  | notNeeded hneeded => exact hneededKept hneeded
  | @enterCut volatile _ e b b' hneeded henter =>
      unfold cutAfterCount
      split
      · next hsame => exact (hneededKept hneeded).congr hsame
      · next hchanged =>
          have hcounted := (wp_error (enterRestore_spec b) henter).resolve_left hchanged
          exact (hneededKept hneeded).counted hcounted
  | @refused volatile _ b b' hneeded henter =>
      exact (hneededKept hneeded).kept ((wp_ok (enterRestore_spec b) henter).2.1 nofun)
  | restored hneeded henter hrestore =>
      exact (counterSlot_entered (hneededKept hneeded) henter).kept
        ((keeps_restoreFrom _ _).of_ok hrestore)
  | failed hneeded henter hrestore hret =>
      exact (counterSlot_entered (hneededKept hneeded) henter).kept
        ((keeps_restoreFrom _ _).of_ok hrestore)
  | restoreCut hneeded henter hrestore =>
      exact (counterSlot_entered (hneededKept hneeded) henter).kept
        (kept_of_error (keeps_restoreFrom _ _) hrestore)
  | linux hkey hsince => exact hcount.congr hkey

theorem counterSlot_of_run (hrun : Relation.ReflTransGen (Step fatFile) h₀ h)
    (hinit : CounterSlot h₀.begun h₀.durable.fram) : CounterSlot h.begun h.durable.fram := by
  induction hrun with
  | refl => exact hinit
  | tail _ hlast ih => exact hlast.counterSlot ih

/-- With a counter below the cap no boot is turned back. -/
theorem hasBudget_of_counterSlot (hcount : CounterSlot n h.durable.fram)
    (hn : n < framRecoveryAttemptCap.toNat) : HasBudget fatFile h := by
  intro volatile b b' hneeded hselected henter
  have hkept : SlotKept _ (powerOn volatile h.durable) b := keeps_needed.of_ok hneeded
  rcases (wp_ok (enterRestore_spec b) henter).1 rfl with hfails | ⟨v, hv, hcap⟩
  · rw [hselected] at hfails
    cases hfails
  · rw [counter, hkept.keyValue_eq] at hv
    have hle := hcount.counter_le hv
    have hcap : framRecoveryAttemptCap.toNat ≤ v.toNat := hcap
    omega

/-- In every run of boots, an episode has its budget as long as fewer restores than the cap
were begun in all, those of earlier episodes included. -/
theorem episodeBudget_of_run (hinit : CounterSlot h₀.begun h₀.durable.fram)
    (hrun : Relation.ReflTransGen (Step fatFile) h₀ h)
    (hbegun : h.begun < framRecoveryAttemptCap.toNat) : EpisodeBudget fatFile h :=
  fun _ => hasBudget_of_counterSlot (counterSlot_of_run hrun hinit) hbegun

/-- With the counter at the cap, a boot on which nothing fails is turned back. -/
theorem refused_at_cap {v : U64} (hquiet : b.Quiet) (hcounter : counter b.fram = some v)
    (hcap : framRecoveryAttemptCap ≤ v) : ∃ b', enterRestore b = .ok none b' := by
  have hspec : wp enterRestore (fun r _ => r = none) (fun _ _ => False) b := by
    obtain ⟨hbus, hi2c, -⟩ := hquiet
    have hselected : b.busFails.headD false = false := by rw [hbus]; rfl
    have hcourse (k : Nat) : course b k = .ok := by rw [course, hi2c, List.drop_nil]; rfl
    have h₀ : Later b 0 (afterSelect configFramI2cBus b) := by
      refine ⟨?_, rfl, rfl, rfl⟩
      change (if b.busFails.headD false = true then b.bus else configFramI2cBus) = _
      rw [hselected, if_neg Bool.false_ne_true]
    have h₁ : Later b 1 (useEvent (afterSelect configFramI2cBus b)) := h₀.use _
    have hread : keyValue u64Kind framKeyEmmcRecoveryAttempts b.fram = some v := hcounter
    unfold enterRestore i2cGetBusNum framReadU64
    simp only [wp_bind, wp_get, wp_pure, wp_i2cSetBusNum_iff, hselected, Bool.false_eq_true,
      if_false, wp_framReadKey_iff, h₀.nextEvent, h₁.nextEvent, seen_later h₁ rfl, hcourse,
      I2cEvent.isCut_ok, I2cEvent.isOk_ok, if_true, hread, Option.getD_some, enterWith,
      if_pos hcap]
  unfold wp at hspec
  split at hspec
  · next r b' hrun =>
      rw [hspec] at hrun
      exact ⟨b', hrun⟩
  · exact hspec.elim

/-- A restore that returns 0 came through the copy loop. -/
theorem entered_of_restored (hrun : radsatFramRunRecovery fatFile b = .ok 0 b'') :
    ∃ oldBus offset b', enterRestore b = .ok (some (oldBus, offset)) b' ∧
      restoreFrom fatFile oldBus offset b' = .ok 0 b'' := by
  rw [radsatFramRunRecovery_eq] at hrun
  change EStateM.bind enterRestore _ b = _ at hrun
  unfold EStateM.bind at hrun
  split at hrun
  · next r b' henter =>
      cases r with
      | none => cases hrun
      | some entry => exact ⟨entry.1, entry.2, b', henter, hrun⟩
  · cases hrun

theorem counterSlot_of_record {chip : Chip} {v : U64} (hv : v.toNat ≤ n)
    (hbyte : v.toNat < 2 ^ 8) (hslot : slotA chip framKeyEmmcRecoveryAttempts =
      framEncodeU64 framKeyEmmcRecoveryAttempts v 1) : CounterSlot n chip := by
  refine .record hv hbyte fun i hi => ?_
  rw [hslot]

/-- A counter that was never written. -/
theorem counterSlot_of_blank {chip : Chip}
    (hslot : slotA chip framKeyEmmcRecoveryAttempts = Vector.replicate 32 0xff) :
    CounterSlot n chip :=
  .unread (keyValue_of_blank hslot) (tearsDetected_of_blank (Or.inr rfl) hslot)

end Runs

/-! ## An episode without a budget -/

/-- Every disk has a kernel. -/
def alwaysBoots (disk : Disk) (_ : String) : Option Disk :=
  some disk

def setLatch (chip : Chip) : Chip :=
  writeAt chip (keyOffset framKeyEmmcRecoveryNeeded).toNat
    (framEncodeBool framKeyEmmcRecoveryNeeded true 1) 32

/-- Recovery is latched after four attempts that failed. -/
def fourthFailed : Durable :=
  ⟨setLatch (chipWith framKeyEmmcRecoveryAttempts
    (framEncodeU64 framKeyEmmcRecoveryAttempts 4 1)), fun _ _ => 0, fun _ _ => 1⟩

/-- The fifth attempt starts over and counts. -/
theorem fifth_entered :
    (match radsatFramRecoveryNeeded alwaysBoots (powerOn quietPowerOn fourthFailed) with
      | .ok true b =>
          match enterRestore b with
          | .ok (some (_, 0)) b' => counter b'.fram == some 5
          | _ => false
      | _ => false) = true := by
  decide +kernel

theorem reliable_of_quiet {b : Board} (hquiet : b.Quiet) : b.I2cReliable := by
  simp [Board.I2cReliable, hquiet.2.1]

theorem quiet_of_needed {b b' : Board} {needed : Bool} (hquiet : b.Quiet)
    (hneeded : radsatFramRecoveryNeeded alwaysBoots b = .ok needed b') :
    b'.Quiet ∧ b'.writes = b.writes := by
  have hspec := radsatFramRecoveryNeeded_framed alwaysBoots (reliable_of_quiet hquiet)
  obtain ⟨hmod, -⟩ := wp_ok hspec hneeded
  exact ⟨hmod.quiet hquiet, hmod.writes⟩

/-- A set latch is found by a boot on which nothing fails. -/
theorem needed_of_latch {b : Board} (hquiet : b.Quiet)
    (hlatch : keyValue boolKind framKeyEmmcRecoveryNeeded b.fram = some true) :
    ∃ b', radsatFramRecoveryNeeded alwaysBoots b = .ok true b' := by
  have hspec := radsatFramRecoveryNeeded_framed alwaysBoots (reliable_of_quiet hquiet)
  cases hneeded : radsatFramRecoveryNeeded alwaysBoots b with
  | ok needed b' =>
      obtain ⟨-, hasks⟩ := wp_ok hspec hneeded
      rw [hasks hquiet (Or.inr hlatch)]
      exact ⟨b', rfl⟩
  | error e b' =>
      rw [Framed, wp, hneeded] at hspec
      exact absurd hquiet hspec.1

/-- With an attempt left a boot on which nothing fails restores the eMMC. -/
theorem restored_of_quiet {b : Board} (hquiet : b.Quiet) (hwrites : b.writes = [])
    (hcap : (counter b.fram).getD 0 < framRecoveryAttemptCap) :
    ∃ b', radsatFramRunRecovery alwaysBoots b = .ok 0 b' := by
  have hsafe : Safe (fun _ _ _ => True) 0 b.toDurable b := by
    refine ⟨rfl, fun _ _ => rfl, ?_, ?_, ?_, Nat.le_refl _⟩
    · simp [hwrites]
    · exact reliable_of_quiet hquiet
    · exact fun _ _ => trivial
  have hrestorable : Restorable (fun _ _ _ => True) 0 alwaysBoots b.toDurable b.fram := by
    exact ⟨hcap, fun emmc _ _ => by simp [HasKernel, alwaysBoots]⟩
  have hspec := radsatFramRunRecovery_spec (fun _ _ => trivial) (Nat.zero_le span) alwaysBoots hsafe
  cases hrun : radsatFramRunRecovery alwaysBoots b with
  | ok ret b' =>
      obtain ⟨-, -, -, hprogress⟩ := wp_ok hspec hrun
      rw [(hprogress hquiet hrestorable).1]
      exact ⟨b', rfl⟩
  | error e b' => exact absurd hquiet (wp_error hspec hrun).1

theorem slotA_setLatch (chip : Chip) :
    slotA (setLatch chip) framKeyEmmcRecoveryAttempts =
      slotA chip framKeyEmmcRecoveryAttempts :=
  readAt_writeAt_apart chip _ 32 (Or.inr (by decide))

theorem keyValue_setLatch (chip : Chip) :
    keyValue boolKind framKeyEmmcRecoveryNeeded (setLatch chip) = some true := by
  have hslot : slotA (setLatch chip) framKeyEmmcRecoveryNeeded =
      framEncode boolKind framKeyEmmcRecoveryNeeded true 1 :=
    readAt_writeAt_full chip _ _
  rw [keyValue, hslot, framDecode_framEncode]

/-- The fifth attempt succeeds and the latch is set again: the episode that begins then is
refused its first copy. -/
theorem not_episodeBudget :
    CounterSlot 4 fourthFailed.fram ∧
      ∃ h, Relation.ReflTransGen (Step alwaysBoots) ⟨fourthFailed, 4, 4⟩ h ∧
        h.since = 0 ∧ ¬ EpisodeBudget alwaysBoots h := by
  have hslot : slotA fourthFailed.fram framKeyEmmcRecoveryAttempts =
      framEncodeU64 framKeyEmmcRecoveryAttempts 4 1 :=
    (slotA_setLatch _).trans (readAt_writeAt_full _ _ _)
  have hcounter : counter fourthFailed.fram = some 4 := by
    rw [counter, keyValue, hslot]
    exact framDecode_framEncode u64Kind _ 4 1
  have hentered := fifth_entered
  obtain ⟨b, hneeded⟩ := needed_of_latch (quietPowerOn_quiet fourthFailed) (keyValue_setLatch _)
  have hkept : SlotKept _ (powerOn quietPowerOn fourthFailed) b := keeps_needed.of_ok hneeded
  obtain ⟨hquiet, hwrites⟩ := quiet_of_needed (quietPowerOn_quiet fourthFailed) hneeded
  have hcounter₁ : counter b.fram = some 4 := Eq.trans (hkept.keyValue_eq u64Kind) hcounter
  obtain ⟨b'', hrun⟩ := restored_of_quiet hquiet hwrites (by rw [hcounter₁]; decide)
  obtain ⟨oldBus, offset, b', henter, hrestore⟩ := entered_of_restored hrun
  rw [hneeded] at hentered
  dsimp only at hentered
  rw [henter] at hentered
  cases offset with
  | succ offset => cases hentered
  | zero =>
  have hcounter₂ : counter b'.fram = some 5 := eq_of_beq hentered
  have hcounter₃ : counter (setLatch b''.fram) = some 5 := by
    have hkept₂ : SlotKept _ b' b'' := (keeps_restoreFrom oldBus 0).of_ok hrestore
    rw [counter, keyValue, slotA_setLatch]
    exact Eq.trans (hkept₂.keyValue_eq u64Kind) hcounter₂
  have hrestored : Step alwaysBoots ⟨fourthFailed, 4, 4⟩ ⟨b''.toDurable, 4 + started 0, 0⟩ :=
    .restored hneeded henter hrestore
  have hlinux : Step alwaysBoots ⟨b''.toDurable, 4 + started 0, 0⟩
      ⟨{ b''.toDurable with fram := setLatch b''.fram }, 4 + started 0, 0⟩ :=
    .linux (slotA_setLatch b''.fram) (Or.inl rfl)
  refine ⟨?_, _, (Relation.ReflTransGen.single hrestored).tail hlinux, rfl, fun hbudget => ?_⟩
  · exact counterSlot_of_record (by decide) (by decide) hslot
  · obtain ⟨b₁, hneeded₁⟩ := needed_of_latch
      (quietPowerOn_quiet { b''.toDurable with fram := setLatch b''.fram }) (keyValue_setLatch _)
    have hkept₁ : SlotKept _ (powerOn quietPowerOn _) b₁ := keeps_needed.of_ok hneeded₁
    have hquiet₁ := (quiet_of_needed (quietPowerOn_quiet _) hneeded₁).1
    obtain ⟨b₂, hrefused⟩ := refused_at_cap hquiet₁
      (Eq.trans (hkept₁.keyValue_eq u64Kind) hcounter₃) (by decide)
    have hsince : 0 < framRecoveryAttemptCap.toNat := by decide
    exact hbudget hsince _ _ _ hneeded₁ (by rw [hquiet₁.1]; rfl) hrefused

/-- A new board with recovery latched. -/
def newBoard : Durable := ⟨setLatch fun _ => 0xff, fun _ _ => 0, fun _ _ => 1⟩

theorem newBoard_slot :
    slotA newBoard.fram framKeyEmmcRecoveryAttempts = Vector.replicate 32 0xff := by
  have hblank : slotA (fun _ => 0xff) framKeyEmmcRecoveryAttempts = Vector.replicate 32 0xff := by
    simp [slotA, readAt, Vector.ext_iff]
  exact (slotA_setLatch _).trans hblank

/-- The first restore of a new board succeeds, and the latch is set again: the episode that
begins then has its budget. -/
theorem episodeBudget_of_run_relatched : ∃ b b'' begun,
    radsatFramRecoveryNeeded alwaysBoots (powerOn quietPowerOn newBoard) = .ok true b ∧
      radsatFramRunRecovery alwaysBoots b = .ok 0 b'' ∧
      keyValue boolKind framKeyEmmcRecoveryNeeded (setLatch b''.fram) = some true ∧
      Relation.ReflTransGen (Step alwaysBoots) ⟨newBoard, 0, 0⟩
        ⟨{ b''.toDurable with fram := setLatch b''.fram }, begun, 0⟩ ∧
      EpisodeBudget alwaysBoots
        ⟨{ b''.toDurable with fram := setLatch b''.fram }, begun, 0⟩ := by
  obtain ⟨b, hneeded⟩ :=
    needed_of_latch (quietPowerOn_quiet newBoard) (keyValue_setLatch fun _ => 0xff)
  obtain ⟨hquiet, hwrites⟩ := quiet_of_needed (quietPowerOn_quiet newBoard) hneeded
  have hkept : SlotKept _ (powerOn quietPowerOn newBoard) b := keeps_needed.of_ok hneeded
  have hcounter : counter b.fram = none :=
    Eq.trans (hkept.keyValue_eq u64Kind) (keyValue_of_blank newBoard_slot)
  obtain ⟨b'', hrun⟩ := restored_of_quiet hquiet hwrites (by rw [hcounter]; decide)
  obtain ⟨oldBus, offset, b', henter, hrestore⟩ := entered_of_restored hrun
  have hrestored : Step alwaysBoots ⟨newBoard, 0, 0⟩ ⟨b''.toDurable, 0 + started offset, 0⟩ :=
    .restored hneeded henter hrestore
  have hlinux : Step alwaysBoots ⟨b''.toDurable, 0 + started offset, 0⟩
      ⟨{ b''.toDurable with fram := setLatch b''.fram }, 0 + started offset, 0⟩ :=
    .linux (slotA_setLatch b''.fram) (Or.inl rfl)
  have hsteps := (Relation.ReflTransGen.single hrestored).tail hlinux
  have hbegun : 0 + started offset < framRecoveryAttemptCap.toNat := by
    have hcap : framRecoveryAttemptCap.toNat = 5 := rfl
    unfold started
    split <;> omega
  have hinit : CounterSlot 0 newBoard.fram := counterSlot_of_blank newBoard_slot
  have hbudget : EpisodeBudget alwaysBoots
      ⟨{ b''.toDurable with fram := setLatch b''.fram }, 0 + started offset, 0⟩ :=
    episodeBudget_of_run hinit hsteps hbegun
  exact ⟨b, b'', _, hneeded, hrun, keyValue_setLatch _, hsteps, hbudget⟩

end RadsatLinux.UBoot.Episodes
