import RadsatLinux.UBoot.FramMission

/-!
# The layout header and the blank chip

`fram_region_blank`, `fram_layout_present_invalid` and `fram_ensure_layout_header` of
`common/fram_mission.c`, over any course of the I2C transactions.  A board takes its next
transaction from the front of its queue; `framRead_run` and `framWrite_run` say what one
read and one write come to, failed and interrupted ones included.
-/

namespace RadsatLinux.UBoot.Layout

open RadsatLinux.Library.Crash RadsatLinux.Library.LittleEndian
open RadsatLinux.Fram.Record RadsatLinux.Fram.Memory
open RadsatLinux.UBoot.Hardware RadsatLinux.UBoot.FramMission

/-! ## The code -/

def framLayoutVersionMin : U16 := 1

def headerMagic (hdr : Vector U8 16) : U32 := joinBytes 32 [hdr[0], hdr[1], hdr[2], hdr[3]]

def headerVersion (hdr : Vector U8 16) : U16 := joinBytes 16 [hdr[4], hdr[5]]

/-- The magic and a version in the accepted range.  The other ten bytes are not looked at. -/
def headerAccepted (hdr : Vector U8 16) : Bool :=
  headerMagic hdr == framLayoutMagic && decide (framLayoutVersionMin ≤ headerVersion hdr) &&
    decide (headerVersion hdr ≤ framLayoutVersion)

def headerInvalid (hdr : Vector U8 16) : Bool :=
  !hdr.toList.all blankByte && !headerAccepted hdr

def framLayoutPresentInvalid : Boot Bool := do
  match ← framRead framLayoutOffset 16 with
  | none => return false
  | some hdr => return headerInvalid hdr

/-- 1 when every byte is blank, 0 when some byte is not, -1 when a read fails. -/
def framRegionBlank (offset : U16) (left : Nat) : Boot Int := do
  if left = 0 then return 1
  let n := if 32 < left then 32 else left
  match ← framRead offset n with
  | none => return -1
  | some buf =>
      if buf.toList.all blankByte then
        framRegionBlank (offset + BitVec.ofNat 16 n) (left - n)
      else return 0
termination_by left
decreasing_by
  split <;> omega

/-! ## One transaction -/

/-- The course of the next transaction. -/
def nextEvent (b : Board) : I2cEvent := b.i2c.headD .ok

def useEvent (b : Board) : Board := { b with i2c := b.i2c.tail }

theorem nextI2c_run (b : Board) : nextI2c b = .ok (nextEvent b) (useEvent b) := by
  rcases b with ⟨durable, ⟨bus, mmcDevice, load, busFails, i2c, mmc⟩, writes⟩
  cases i2c with
  | nil => rfl
  | cons event rest => rfl

theorem framOnly_use (b : Board) : FramOnly b (useEvent b) :=
  ⟨rfl, List.tail_suffix b.i2c⟩

theorem wp_nextI2c_iff {Q : I2cEvent → Board → Prop} {R : PowerCut → Board → Prop} {b : Board} :
    wp nextI2c Q R b ↔ Q (nextEvent b) (useEvent b) := by
  rw [wp, nextI2c_run]

/-- What a read that returns yields: the chip's bytes when the transaction is good and the
chip's bus is selected. -/
def seen (offset : U16) (n : Nat) (b : Board) : Option (Vector U8 n) :=
  if (nextEvent b).isOk ∧ b.bus = configFramI2cBus then some (readAt b.fram offset.toNat n)
  else none

theorem wp_framRead_iff {offset : U16} {n : Nat} {b : Board}
    {Q : Option (Vector U8 n) → Board → Prop} {R : PowerCut → Board → Prop} :
    wp (framRead offset n) Q R b ↔
      if (nextEvent b).isCut then R .elsewhere (useEvent b)
      else Q (seen offset n b) (useEvent b) := by
  unfold framRead
  rw [wp_bind, wp_nextI2c_iff]
  cases hevent : nextEvent b with
  | ok =>
      simp only [wp_bind, wp_get, wp_pure]
      by_cases hbus : b.bus = configFramI2cBus <;>
        simp [I2cEvent.isCut, I2cEvent.isOk, seen, hevent, useEvent, hbus]
  | fail count =>
      simp only [wp_pure]
      simp [I2cEvent.isCut, I2cEvent.isOk, seen, hevent]
  | cut count => rfl

/-- The board after a write of `buf` on the chip's bus. -/
def afterWrite {n : Nat} (offset : U16) (buf : Vector U8 n) (b : Board) : Board :=
  { useEvent b with fram := writeAt b.fram offset.toNat buf ((nextEvent b).stored n) }

/-- On the chip's bus a write stores what its transaction lets through, and returns unless
the power goes. -/
theorem wp_framWrite_iff {n : Nat} {offset : U16} {buf : Vector U8 n} {b : Board}
    {Q : Bool → Board → Prop} {R : PowerCut → Board → Prop} (hbus : b.bus = configFramI2cBus) :
    wp (framWrite offset buf) Q R b ↔
      if (nextEvent b).isCut then
        R (.framWrite (readAt b.fram offset.toNat n).toList buf.toList
          (readAt (afterWrite offset buf b).fram offset.toNat n).toList) (afterWrite offset buf b)
      else Q (!(nextEvent b).isOk) (afterWrite offset buf b) := by
  have hbus' : (useEvent b).bus = configFramI2cBus := hbus
  have hbne : (b.bus != configFramI2cBus) = false := by simp [hbus]
  unfold framWrite
  rw [wp_bind, wp_nextI2c_iff]
  cases hevent : nextEvent b with
  | ok =>
      simp only [storeFram, wp_bind, wp_modify, wp_get, wp_pure, if_pos hbus']
      simp [I2cEvent.isCut, I2cEvent.isOk, afterWrite, hevent, I2cEvent.stored, useEvent, hbne]
  | fail count =>
      simp only [storeFram, wp_bind, wp_modify, wp_pure, if_pos hbus']
      simp [I2cEvent.isCut, I2cEvent.isOk, afterWrite, hevent, I2cEvent.stored, useEvent]
  | cut count =>
      simp only [storeFram, wp_bind, wp_modify, wp_get, wp_throw, if_pos hbus']
      simp [I2cEvent.isCut, afterWrite, hevent, I2cEvent.stored, useEvent]

/-- The board after a selection of `bus`; a selection that fails leaves the bus alone. -/
def afterSelect (bus : Nat) (b : Board) : Board :=
  { b with
    busFails := b.busFails.tail
    bus := if b.busFails.headD false then b.bus else bus }

theorem i2cSetBusNum_run (bus : Nat) (b : Board) :
    i2cSetBusNum bus b = .ok (b.busFails.headD false) (afterSelect bus b) := by
  rcases b with ⟨durable, ⟨old, mmcDevice, load, busFails, i2c, mmc⟩, writes⟩
  cases busFails with
  | nil => rfl
  | cons fails rest => cases fails <;> rfl

theorem wp_i2cSetBusNum_iff {bus : Nat} {b : Board} {Q : Bool → Board → Prop}
    {R : PowerCut → Board → Prop} :
    wp (i2cSetBusNum bus) Q R b ↔ Q (b.busFails.headD false) (afterSelect bus b) := by
  rw [wp, i2cSetBusNum_run]

/-! ## Frames -/

/-- Only I2C events were used up. -/
structure ReadOnly (b b' : Board) : Prop where
  framOnly : FramOnly b b'
  fram : b'.fram = b.fram

theorem ReadOnly.refl (b : Board) : ReadOnly b b := ⟨.refl b, rfl⟩

theorem ReadOnly.trans {b b₁ b₂ : Board} (h : ReadOnly b b₁) (h' : ReadOnly b₁ b₂) :
    ReadOnly b b₂ :=
  ⟨h.framOnly.trans h'.framOnly, h'.fram.trans h.fram⟩

theorem keeps_framRead (offset : U16) (n : Nat) : Keeps ReadOnly (framRead offset n) := by
  intro b
  have hused : ReadOnly b (useEvent b) := ⟨framOnly_use b, rfl⟩
  rw [wp_framRead_iff]
  split
  · exact hused
  · exact hused

theorem keeps_then {α β : Type} {m : Boot α} {f : α → Boot β} (hm : Keeps ReadOnly m)
    (hf : ∀ a, Keeps ReadOnly (f a)) : Keeps ReadOnly (m >>= f) :=
  Keeps.bind (r := ReadOnly) (fun _ _ _ => ReadOnly.trans) hm hf

/-- A read, and then something that only reads. -/
theorem keeps_read_then {α : Type} {offset : U16} {n : Nat} {f : Option (Vector U8 n) → Boot α}
    (hf : ∀ r, Keeps ReadOnly (f r)) : Keeps ReadOnly (framRead offset n >>= f) :=
  keeps_then (keeps_framRead offset n) hf

theorem keeps_pure {α : Type} (a : α) : Keeps ReadOnly (pure a : Boot α) :=
  Keeps.pure ReadOnly.refl a

theorem keeps_framLayoutPresentInvalid : Keeps ReadOnly framLayoutPresentInvalid := by
  refine keeps_read_then fun r => ?_
  cases r with
  | none => exact keeps_pure false
  | some hdr => exact keeps_pure (headerInvalid hdr)

theorem keeps_framRegionBlank (offset : U16) (left : Nat) :
    Keeps ReadOnly (framRegionBlank offset left) := by
  induction offset, left using framRegionBlank.induct with
  | case1 offset =>
      rw [framRegionBlank]
      exact keeps_pure 1
  | case2 offset left hleft n ih =>
      rw [framRegionBlank, if_neg hleft]
      refine keeps_read_then fun r => ?_
      cases r with
      | none => exact keeps_pure (-1)
      | some buf =>
          dsimp only
          split
          · exact ih
          · exact keeps_pure 0

theorem keeps_framWrite {n : Nat} (offset : U16) (buf : Vector U8 n) :
    Keeps FramOnly (framWrite offset buf) := by
  intro b
  have hused := framOnly_use b
  have hstored (chip : Chip) : FramOnly b { useEvent b with fram := chip } :=
    hused.trans (framOnly_store chip)
  unfold framWrite
  rw [wp_bind, wp_nextI2c_iff]
  cases nextEvent b with
  | ok =>
      simp only [storeFram, wp_bind, wp_modify, wp_get, wp_pure]
      split
      · exact hstored _
      · exact hused
  | fail count =>
      simp only [storeFram, wp_bind, wp_modify, wp_pure]
      split
      · exact hstored _
      · exact hused
  | cut count =>
      simp only [storeFram, wp_bind, wp_modify, wp_get, wp_throw]
      split
      · exact hstored _
      · exact hused

theorem keeps_framEnsureLayoutHeader : Keeps FramOnly framEnsureLayoutHeader := by
  have hread : Keeps FramOnly (framRead framLayoutOffset 16) := fun b =>
    wp_mono (keeps_framRead framLayoutOffset 16 b) (fun _ _ h => h.framOnly)
      fun _ _ h => h.framOnly
  have hdone : Keeps FramOnly (pure () : Boot Unit) := Keeps.pure FramOnly.refl ()
  refine Keeps.bind (r := FramOnly) (fun _ _ _ => FramOnly.trans) hread fun r => ?_
  cases r with
  | none => exact hdone
  | some hdr =>
      dsimp only
      split
      · exact Keeps.bind (r := FramOnly) (fun _ _ _ => FramOnly.trans)
          (keeps_framWrite framLayoutOffset layoutHeader) fun _ => hdone
      · exact hdone

/-! ## When the header is stamped -/

/-- The bytes at the place of the layout header. -/
def headerOf (chip : Chip) : Vector U8 16 := readAt chip framLayoutOffset.toNat 16

/-- No header is accepted before, and one is whichever way the code ends. -/
def StampsHeader (b : Board) : Prop :=
  headerAccepted (headerOf b.fram) = false ∧
    wp framEnsureLayoutHeader (fun _ b' => headerAccepted (headerOf b'.fram) = true)
      (fun _ b' => headerAccepted (headerOf b'.fram) = true) b

/-- Every byte below the layout header is blank. -/
def RegionBlank (chip : Chip) : Prop :=
  ∀ a, a < framLayoutOffset.toNat → blankByte (chip a) = true

/-- The sixteen bytes of the header are read and are blank, and the write that follows stores the
magic and the version, or leaves out only the high byte of the version where that is zero. -/
structure HeaderTaken (b : Board) : Prop where
  bus : b.bus = configFramI2cBus
  readOk : (nextEvent b).isOk = true
  blank : (headerOf b.fram).toList.all blankByte = true
  writeOk : 6 ≤ (nextEvent (useEvent b)).stored 16 ∨
    (nextEvent (useEvent b)).stored 16 = 5 ∧ (headerOf b.fram)[5] = 0

/-- A chip with data below a header that is blank. -/
structure Relabels (b : Board) : Prop where
  taken : HeaderTaken b
  data : ∃ a, a < framLayoutOffset.toNat ∧ b.fram a ≠ 0x00 ∧ b.fram a ≠ 0xff

theorem headerAccepted_layoutHeader : headerAccepted layoutHeader = true := by decide

/-- The version of a header with blank bytes in its place is not in the range. -/
theorem headerAccepted_blank {hdr : Vector U8 16} (hlow : blankByte hdr[4] = true)
    (hhigh : blankByte hdr[5] = true) : headerAccepted hdr = false := by
  have hversion : ∀ low ∈ [0x00#8, 0xff#8], ∀ high ∈ [0x00#8, 0xff#8],
      (decide (framLayoutVersionMin ≤ joinBytes 16 [low, high]) &&
        decide (joinBytes 16 [low, high] ≤ framLayoutVersion)) = false := by decide
  have hmem (byte : U8) (h : blankByte byte = true) : byte ∈ [0x00#8, 0xff#8] := by
    simpa [blankByte] using h
  rw [headerAccepted, Bool.and_assoc]
  exact Bool.and_eq_false_imp.mpr fun _ => hversion _ (hmem _ hlow) _ (hmem _ hhigh)

theorem tear_getElem (old new : Vector U8 16) (count i : Nat) (hi : i < 16) :
    (tear old new count)[i] = if i < count then new[i] else old[i] := by
  simp [tear]

/-- Headers that agree in the first six bytes are the same to the code. -/
theorem headerAccepted_congr {hdr hdr' : Vector U8 16}
    (h : ∀ i (hi : i < 6), hdr[i] = hdr'[i]) : headerAccepted hdr = headerAccepted hdr' := by
  rw [headerAccepted, headerAccepted, headerMagic, headerMagic, headerVersion, headerVersion,
    h 0 (by decide), h 1 (by decide), h 2 (by decide), h 3 (by decide), h 4 (by decide),
    h 5 (by decide)]

theorem headerAccepted_tear {hdr : Vector U8 16} (hblank : hdr.toList.all blankByte = true)
    (count : Nat) : headerAccepted (tear hdr layoutHeader count) = true ↔
      6 ≤ count ∨ count = 5 ∧ hdr[5] = 0 := by
  have hbyte (i : Nat) (hi : i < 16) : blankByte hdr[i] = true :=
    List.all_eq_true.mp hblank _ (by simp)
  have hnew (i : Nat) (hi : i < 6) (hle : i < count) :
      (tear hdr layoutHeader count)[i] = layoutHeader[i] := by
    rw [tear_getElem _ _ _ i (by omega), if_pos hle]
  have hold (i : Nat) (hi : i < 16) (hge : count ≤ i) :
      (tear hdr layoutHeader count)[i] = hdr[i] := by
    rw [tear_getElem _ _ _ i hi, if_neg (Nat.not_lt.mpr hge)]
  rcases Nat.lt_trichotomy count 5 with hshort | rfl | hlong
  · have hfalse : headerAccepted (tear hdr layoutHeader count) = false := by
      refine headerAccepted_blank ?_ ?_
      · rw [hold 4 (by decide) (by omega)]
        exact hbyte 4 (by decide)
      · rw [hold 5 (by decide) (by omega)]
        exact hbyte 5 (by decide)
    rw [hfalse]
    exact iff_of_false Bool.false_ne_true (by omega)
  · -- The high byte of the version stays, and decides.
    have hagree : headerAccepted (tear hdr layoutHeader 5) =
        headerAccepted (layoutHeader.set 5 hdr[5]) := by
      refine headerAccepted_congr fun i hi => ?_
      rcases Nat.lt_or_ge i 5 with hlt | hge
      · rw [hnew i hi hlt, Vector.getElem_set_ne _ _ (by omega)]
      · obtain rfl : i = 5 := by omega
        rw [hold 5 (by decide) hge, Vector.getElem_set_self]
    rw [hagree]
    have hcases : hdr[5] = 0x00 ∨ hdr[5] = 0xff := by
      simpa [blankByte] using hbyte 5 (by decide)
    rcases hcases with hzero | hset
    · rw [hzero]
      decide
    · rw [hset]
      decide
  · have htrue : headerAccepted (tear hdr layoutHeader count) = true :=
      (headerAccepted_congr fun i hi => hnew i hi (by omega)).trans headerAccepted_layoutHeader
    exact iff_of_true htrue (Or.inl hlong)

/-- A board whose header is not read as blank keeps its chip. -/
theorem framEnsureLayoutHeader_keeps {b : Board}
    (hblank : ∀ hdr, seen framLayoutOffset 16 b = some hdr → hdr.toList.all blankByte = false) :
    wp framEnsureLayoutHeader (fun _ b' => b' = useEvent b) (fun _ b' => b' = useEvent b) b := by
  unfold framEnsureLayoutHeader
  rw [wp_bind, wp_framRead_iff]
  split
  · rfl
  · cases hseen : seen framLayoutOffset 16 b with
    | none => rfl
    | some hdr =>
        dsimp only
        rw [if_neg (by simp [hblank hdr hseen])]
        rfl

/-- A header that is read as blank is overwritten by what the next write lets through. -/
theorem framEnsureLayoutHeader_writes {b : Board}
    (hbus : b.bus = configFramI2cBus) (hok : (nextEvent b).isOk = true)
    (hblank : (headerOf b.fram).toList.all blankByte = true) :
    wp framEnsureLayoutHeader
      (fun _ b' => b' = afterWrite framLayoutOffset layoutHeader (useEvent b))
      (fun _ b' => b' = afterWrite framLayoutOffset layoutHeader (useEvent b)) b := by
  have hseen : seen framLayoutOffset 16 b = some (headerOf b.fram) := if_pos ⟨hok, hbus⟩
  have hnocut : (nextEvent b).isCut = false := by
    cases hevent : nextEvent b <;> simp_all [I2cEvent.isOk, I2cEvent.isCut]
  unfold framEnsureLayoutHeader
  rw [wp_bind, wp_framRead_iff, if_neg (by simp [hnocut]), hseen]
  dsimp only
  rw [if_pos hblank, wp_bind, wp_framWrite_iff (b := useEvent b) hbus]
  split
  · rfl
  · rfl

theorem stampsHeader_iff (b : Board) : StampsHeader b ↔ HeaderTaken b := by
  by_cases hread : (b.bus = configFramI2cBus ∧ (nextEvent b).isOk = true) ∧
      (headerOf b.fram).toList.all blankByte = true
  · obtain ⟨⟨hbus, hok⟩, hblank⟩ := hread
    have hbefore : headerAccepted (headerOf b.fram) = false :=
      headerAccepted_blank (List.all_eq_true.mp hblank _ (by simp))
        (List.all_eq_true.mp hblank _ (by simp))
    have hleft : headerOf (afterWrite framLayoutOffset layoutHeader (useEvent b)).fram =
        tear (headerOf b.fram) layoutHeader ((nextEvent (useEvent b)).stored 16) :=
      readAt_writeAt_same b.fram _ layoutHeader _
    rw [StampsHeader, wp_state_iff (P := fun b' => headerAccepted (headerOf b'.fram) = true)
      (framEnsureLayoutHeader_writes hbus hok hblank), hleft, headerAccepted_tear hblank]
    constructor
    · rintro ⟨-, hstored⟩
      exact ⟨hbus, hok, hblank, hstored⟩
    · intro h
      exact ⟨hbefore, h.writeOk⟩
  · have hkeeps : wp framEnsureLayoutHeader (fun _ b' => b' = useEvent b)
        (fun _ b' => b' = useEvent b) b := by
      refine framEnsureLayoutHeader_keeps fun hdr hseen => ?_
      unfold seen at hseen
      split at hseen
      · next hgood =>
          cases hseen
          exact eq_false_of_ne_true fun hblank => hread ⟨⟨hgood.2, hgood.1⟩, hblank⟩
      · cases hseen
    have hsame : headerOf (useEvent b).fram = headerOf b.fram := rfl
    rw [StampsHeader, wp_state_iff (P := fun b' => headerAccepted (headerOf b'.fram) = true) hkeeps,
      hsame]
    constructor
    · rintro ⟨hold, hnew⟩
      exact absurd (hold.symm.trans hnew) Bool.false_ne_true
    · intro h
      exact absurd ⟨⟨h.bus, h.readOk⟩, h.blank⟩ hread

theorem not_regionBlank_iff (chip : Chip) : ¬ RegionBlank chip ↔
    ∃ a, a < framLayoutOffset.toNat ∧ chip a ≠ 0x00 ∧ chip a ≠ 0xff := by
  simp only [RegionBlank, blankByte, Bool.or_eq_true, beq_iff_eq, not_forall, not_or, exists_prop]

/-- A header is stamped on a blank chip only, but for the chips with data below sixteen blank
bytes: the code looks at the place of the header alone. -/
theorem stampsHeader_blank_iff (b : Board) :
    (StampsHeader b → RegionBlank b.fram) ↔ ¬ Relabels b := by
  rw [stampsHeader_iff]
  constructor
  · rintro h ⟨htaken, hdata⟩
    exact (not_regionBlank_iff b.fram).mpr hdata (h htaken)
  · intro h htaken
    by_contra hdata
    exact h ⟨htaken, (not_regionBlank_iff b.fram).mp hdata⟩

/-- The header of layout version 2, at its own offset, and a true bool in key 2. -/
def oldLayoutChip : Chip :=
  writeAt (chipWith 2 (framEncodeBool 2 true 1)) 2048
    (#v[0x46, 0x52, 0x41, 0x4d, 2, 0, 0, 0, 0, 0, 0, 0, 0, 0, 0, 0] : Vector U8 16) 16

/-- A chip that holds layout version 2 and its records is relabelled. -/
theorem stampsHeader_oldLayoutChip :
    StampsHeader (boardWith oldLayoutChip []) ∧
      ¬ RegionBlank (boardWith oldLayoutChip []).fram := by
  constructor
  · exact (stampsHeader_iff _).mpr ⟨rfl, rfl, by decide +kernel, Or.inl (by decide)⟩
  · intro hblank
    have hbyte := hblank 2048 (by decide)
    revert hbyte
    decide +kernel

end RadsatLinux.UBoot.Layout
