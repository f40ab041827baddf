import RadsatLinux.InstallOs.CopySafety
import RadsatLinux.InstallOs.EmmcToSd

/-!
# Backup slots on the card

`do_sd_backups`, and `do_emmc_to_sd` with `--backups`: copies of an image span fill the card
behind the primary.  Both clone the image that the primary is made of.  `do_emmc_to_sd` then
signs the primary alone, so that its slots are clones of the primary only when the eMMC bears
the signature of the card already.
-/

namespace RadsatLinux.InstallOs.Backups

open RadsatLinux.Library.Crash RadsatLinux.Library.BlockDevice RadsatLinux.Library.ShellNumber
open RadsatLinux.UBoot.Hardware
open RadsatLinux.InstallOs.Commands RadsatLinux.InstallOs.Script
open RadsatLinux.InstallOs.Restore RadsatLinux.InstallOs.Latch RadsatLinux.InstallOs.EmmcToSd
open RadsatLinux.InstallOs.CopySafety

/-! ## The commands -/

def doSdBackups : Script Unit := do
  let _ ← needSd
  let span := imageSpanSectors ((← get).parts .sd)
  if testLe span 0 then throw (.exit 1)
  confirm
  stopServices
  createSdBackupsFrom .sd span

/-- The commands that fill backup slots. -/
inductive Backup where
  | sdBackups
  | emmcToSd
  deriving DecidableEq

namespace Backup

def run : Backup → Script Unit
  | .sdBackups => doSdBackups
  | .emmcToSd => doEmmcToSd

/-- The disk whose image is cloned. -/
def source : Backup → MmcDevice
  | .sdBackups => .sd
  | .emmcToSd => .emmc

def span (command : Backup) (s : System) : Nat :=
  imageSpanSectors (s.parts command.source)

/-- The card with the primary in its slot, before any clone is written. -/
def primary (command : Backup) (s : System) : Disk :=
  match command with
  | .sdBackups => s.sd
  | .emmcToSd => setSignature sdSignature (overwrite s.sd 0 (command.span s) s.emmc)

theorem span_lt (command : Backup) (s : System) : command.span s < 2 ^ 31 := imageSpanSectors_lt _

/-- The user agrees, the card has its block device, and `do_emmc_to_sd` has an eMMC and does not
run from the card. -/
def Accepts (command : Backup) (s : System) (sd : BlockDev) : Prop :=
  Confirmed s ∧ sd.node = true ∧ (command = .emmcToSd →
    (findCard .emmc s.devs).isSome = true ∧ rootDiskName s ≠ sd.name)

end Backup

/-- Every `dd` succeeds. -/
def Succeeds (s : System) : Prop :=
  (∀ event ∈ s.dds, event = .ok) ∧ ∀ event ∈ s.signatures, event = .ok

/-- `dd if=<sd> of=<sd> bs=512 skip=$((N*SPAN)) count=SPAN`, as the slot map says. -/
def restoreSlot (slot : ImageSlot) (disk : Disk) : Disk :=
  overwrite disk 0 slot.sectors fun k => disk (slot.offset + k)

/-- The slots that fit on the card, the primary among them. -/
def capacity (size span : Nat) : Nat := max 1 (size / span)

/-- What is asked of a command that has filled the card. -/
structure ClonesPrimary (command : Backup) (size : Nat) (s s' : System) : Prop where
  clones : ∀ i, 1 ≤ i → i < capacity size (command.span s) → ∀ j, j < command.span s →
    s'.sd (i * command.span s + j) = s'.sd j
  restores : ∀ slot ∈ s'.slotMap, slot ∈ s.slotMap ∨ restoreSlot slot s'.sd = s'.sd
  above : ∀ k, capacity size (command.span s) * command.span s ≤ k → s'.sd k = s.sd k
  primary : command = .sdBackups → ∀ j, j < command.span s → s'.sd j = s.sd j
  writesInside : ∀ first count d, (.sdWrite first count, d) ∈ s'.trace →
    (.sdWrite first count, d) ∈ s.trace ∨ first + count ≤ size
  readsInside : ∀ disk, (∀ k, k < size → disk k = s.sd k) →
    ∀ t', command.run { s with sd := disk } = .ok () t' → ∀ k, k < size → t'.sd k = s'.sd k

/-- The first sector bears `KLNX`. -/
def SdSigned (disk : Disk) : Prop :=
  ∀ j : Fin 512, 440 ≤ j.val → j.val < 444 → disk 0 j = sdSignature j

/-- The card has fewer than 2^31 sectors, and the image to clone is signed as the primary is;
or there is no room for a backup.  On a larger card nothing is cloned, and the slots must
have been clones before. -/
def Clonable (command : Backup) (size : Nat) (s : System) : Prop :=
  if size < 2 ^ 31 then
    size / command.span s < 2 ∨ command = .sdBackups ∨ SdSigned s.emmc
  else ∀ i, 1 ≤ i → i < capacity size (command.span s) → ∀ j, j < command.span s →
    s.sd (i * command.span s + j) = command.primary s j

/-! ## The number of slots -/

/-- The slots that a command fills, the primary among them. -/
def slotCount (size span : Nat) : Nat :=
  if size < 2 ^ 31 then capacity size span else 1

theorem slotsOf_small {size span : Nat} (hsize : size < 2 ^ 31) (hfits : span ≤ size) :
    slotsOf size span = (size / span : Nat) := by
  rw [slotsOf, shellInt_small hsize, shellInt_small (by omega)]
  exact (Int.ofNat_tdiv size span).symm

/-- The number of sectors of a large card is taken for a negative one. -/
theorem slotsOf_large {size span : Nat} (hsize : 2 ^ 31 ≤ size) (hfits : span ≤ size) :
    slotsOf size span < 2 := by
  rw [slotsOf, shellInt_large hsize, Int.neg_tdiv]
  by_cases hsmall : span < 2 ^ 31
  · rw [shellInt_small hsmall, ← Int.ofNat_tdiv]
    exact Int.lt_of_le_of_lt (Int.neg_nonpos_of_nonneg (Int.natCast_nonneg _)) (by decide)
  · have hle : 2 ^ 32 - min size (2 ^ 32 - 1) ≤ 2 ^ 32 - min span (2 ^ 32 - 1) := by omega
    have hone : (2 ^ 32 - min size (2 ^ 32 - 1)) / (2 ^ 32 - min span (2 ^ 32 - 1)) ≤ 1 :=
      Nat.div_le_of_le_mul (by rwa [Nat.mul_one])
    rw [shellInt_large (Nat.not_lt.mp hsmall), Int.tdiv_neg, ← Int.ofNat_tdiv, neg_neg]
    omega

theorem slotsOf_cases {size span : Nat} (hspan : 0 < span) (hfits : span ≤ size) :
    slotsOf size span < 2 ∧ slotCount size span = 1 ∨
      2 ≤ slotCount size span ∧ slotsOf size span = slotCount size span := by
  unfold slotCount
  split
  · rename_i hsize
    rw [slotsOf_small hsize hfits, capacity]
    have hone : 0 < size / span := Nat.div_pos hfits hspan
    omega
  · rename_i hsize
    exact Or.inl ⟨slotsOf_large (Nat.not_lt.mp hsize) hfits, rfl⟩

theorem slotCount_le_capacity (size span : Nat) : slotCount size span ≤ capacity size span := by
  unfold slotCount
  split
  · exact Nat.le_refl _
  · exact Nat.le_max_left _ _

theorem capacity_mul_le {size span : Nat} (hspan : 0 < span) (hfits : span ≤ size) :
    capacity size span * span ≤ size := by
  have hone : 1 ≤ size / span := Nat.div_pos hfits hspan
  rw [capacity, Nat.max_eq_right hone]
  exact Nat.div_mul_le_self size span

/-- Where slots are filled, the shell can count the sectors of the card. -/
theorem size_lt_of_slots {size span : Nat} (htwo : 2 ≤ slotCount size span) : size < 2 ^ 31 := by
  by_contra hlarge
  rw [slotCount, if_neg hlarge] at htwo
  omega

theorem slotCount_mul_le {size span : Nat} (hspan : 0 < span) (hfits : span ≤ size)
    (htwo : 2 ≤ slotCount size span) :
    slotCount size span * span ≤ size ∧ slotCount size span * span < 2 ^ 31 := by
  have hsmall := size_lt_of_slots htwo
  have hend : slotCount size span * span ≤ size :=
    Nat.le_trans (Nat.mul_le_mul_right span (slotCount_le_capacity _ _))
      (capacity_mul_le hspan hfits)
  exact ⟨hend, Nat.lt_of_le_of_lt hend hsmall⟩

theorem slotStart_eq {span slots i : Nat} (hspan : 0 < span) (hcount : slots * span < 2 ^ 31)
    (hi : i < slots) : slotStart span i = i * span := by
  have hend : i * span + span ≤ slots * span := slot_end_le hi
  have hle : i ≤ i * span := Nat.le_mul_of_pos_right i hspan
  rw [slotStart, shellInt_mul (by omega) (by omega) (by omega), Int.toNat_natCast]

/-! ## One command after the other -/

section Commands

variable {s₀ s : System} {size : Nat} {disk : Disk} {entries : List ImageSlot}
  {R : Stop → System → Prop}

/-- In a run from `s₀` in which every `dd` succeeds, the card now has the contents `disk`, and
the slot map these entries. -/
structure After (s₀ : System) (size : Nat) (entries : List ImageSlot) (disk : Disk) (s : System) :
    Prop where
  sd : s.sd = disk
  emmc : s.emmc = s₀.emmc
  devs : s.devs = s₀.devs
  doBackups : s.doBackups = s₀.doBackups
  slotMap : s.slotMap = entries
  dds : ∀ event ∈ s.dds, event = .ok
  signatures : ∀ event ∈ s.signatures, event = .ok
  inside : ∀ first count d, (.sdWrite first count, d) ∈ s.trace →
    (.sdWrite first count, d) ∈ s₀.trace ∨ first + count ≤ size

/-- What a `dd` reads from either disk. -/
def contentsOf (s₀ : System) (disk : Disk) : MmcDevice → Disk
  | .sd => disk
  | .emmc => s₀.emmc

theorem all_ok_next {events : List MmcEvent} (hok : ∀ event ∈ events, event = .ok) :
    events.headD .ok = .ok ∧ ∀ event ∈ events.tail, event = .ok := by
  cases events with
  | nil => exact ⟨rfl, hok⟩
  | cons event rest => exact ⟨hok event List.mem_cons_self, fun event hmem =>
      hok event (List.mem_cons_of_mem _ hmem)⟩

theorem inside_cons {trace old : List (Action × Durable)} {first count : Nat} {d : Durable}
    (h : ∀ first count d, (.sdWrite first count, d) ∈ trace →
      (.sdWrite first count, d) ∈ old ∨ first + count ≤ size) (hend : first + count ≤ size) :
    ∀ first' count' d', (.sdWrite first' count', d') ∈ (Action.sdWrite first count, d) :: trace →
      (.sdWrite first' count', d') ∈ old ∨ first' + count' ≤ size := by
  intro first' count' d' hmem
  rcases List.mem_cons.mp hmem with heq | hold
  · cases heq
    exact Or.inr hend
  · exact h first' count' d' hold

theorem dd_after (src : MmcDevice) {bs skip seek count : Nat} (h : After s₀ size entries disk s)
    (hend : seek * bs + count * bs ≤ size) :
    wp (dd src .sd bs skip seek count) (fun _ => After s₀ size entries
      (overwrite disk (seek * bs) (count * bs) fun i =>
        contentsOf s₀ disk src (i - seek * bs + skip * bs))) R s := by
  obtain ⟨hnext, hlater⟩ := all_ok_next h.dds
  have hsource : s.disk src = contentsOf s₀ disk src := by
    cases src with
    | sd => exact h.sd
    | emmc => exact h.emmc
  unfold dd
  dsimp only
  rw [wp_bind, record, wp_modify, wp_bind, wp_nextDd]
  cases hevent : s.dds.headD .ok with
  | ok =>
      have hstored : overwrite s.sd (seek * bs) (count * bs) (fun i =>
          s.disk src (i - seek * bs + skip * bs)) = overwrite disk (seek * bs) (count * bs)
          fun i => contentsOf s₀ disk src (i - seek * bs + skip * bs) := by
        rw [h.sd, hsource]
      exact ⟨hstored, h.emmc, h.devs, h.doBackups, h.slotMap, hlater, h.signatures,
        inside_cons h.inside hend⟩
  | fail left => cases hnext.symm.trans hevent
  | cut left => cases hnext.symm.trans hevent

/-- A copy behind the start of the card. -/
theorem ddSpan_slot (src : MmcDevice) {span seek : Nat} (h : After s₀ size entries disk s)
    (hseek : 0 < seek) (hend : seek + span ≤ size) :
    wp (ddSpan src .sd span seek 0) (fun _ => After s₀ size entries
      (overwrite disk seek span fun i => contentsOf s₀ disk src (i - seek))) R s := by
  have hone := @dd_after s₀ s size disk entries R src 1 0 seek span h (by omega)
  rw [Nat.mul_one, Nat.mul_one] at hone
  rw [ddSpan_offset src .sd (Or.inr (Nat.ne_of_gt hseek))]
  exact wp_seq hone fun _ _ h' => h'

/-- A `dd` that reads and writes at the same position. -/
theorem dd_same {bs pos count first sectors : Nat} (h : After s₀ size entries disk s)
    (hfirst : pos * bs = first) (hsectors : count * bs = sectors) (hend : first + sectors ≤ size) :
    wp (dd .emmc .sd bs pos pos count)
      (fun _ => After s₀ size entries (overwrite disk first sectors s₀.emmc)) R s := by
  subst hfirst hsectors
  have hdata : overwrite disk (pos * bs) (count * bs)
      (fun i => contentsOf s₀ disk .emmc (i - pos * bs + pos * bs)) =
        overwrite disk (pos * bs) (count * bs) s₀.emmc := by
    refine overwrite_congr fun i hlow _ => ?_
    rw [Nat.sub_add_cancel hlow]
    rfl
  rw [← hdata]
  exact dd_after .emmc h hend

/-- The copy of the primary: large blocks, and then the rest. -/
theorem ddSpan_primary {span : Nat} (hsmall : span < 2 ^ 31)
    (h : After s₀ size entries disk s) (hend : span ≤ size) :
    wp (ddSpan .emmc .sd span 0 0)
      (fun _ => After s₀ size entries (overwrite disk 0 span s₀.emmc)) R s := by
  have hblocks : span / 8192 * 8192 + span % 8192 = span := Nat.div_add_mod' span 8192
  have hlarge : wp (dd .emmc .sd 8192 0 0 (span / 8192))
      (fun _ => After s₀ size entries (overwrite disk 0 (span / 8192 * 8192) s₀.emmc)) R s :=
    dd_same h (Nat.zero_mul 8192) rfl (by omega)
  have hrest {disk : Disk} {s : System} (h : After s₀ size entries disk s) :
      wp (dd .emmc .sd 1 (span / 8192 * 8192) (span / 8192 * 8192) (span % 8192))
        (fun _ => After s₀ size entries
          (overwrite disk (span / 8192 * 8192) (span % 8192) s₀.emmc)) R s :=
    dd_same h (Nat.mul_one _) (Nat.mul_one _) (by omega)
  rw [ddSpan_start .emmc .sd hsmall]
  split
  · rename_i hmultiple
    rw [hmultiple, Nat.add_zero] at hblocks
    rw [hblocks] at hlarge
    exact wp_seq hlarge fun _ _ h' => h'
  by_cases hblk : 0 < span / 8192
  · have hwhole := overwrite_append disk s₀.emmc 0 (span / 8192 * 8192) (span % 8192)
    rw [Nat.zero_add, hblocks] at hwhole
    rw [if_pos hblk]
    refine wp_seq hlarge fun _ s' h' => ?_
    have hlast := hrest h'
    rw [hwhole] at hlast
    exact wp_seq hlast fun _ _ h'' => h''
  · have hstart : span / 8192 * 8192 = 0 := by
      rw [Nat.eq_zero_of_not_pos hblk, Nat.zero_mul]
    rw [hstart, Nat.zero_add] at hblocks
    have hwhole : overwrite disk (span / 8192 * 8192) (span % 8192) s₀.emmc =
        overwrite disk 0 span s₀.emmc := by
      rw [hstart, hblocks]
    have hlast := hrest h
    rw [hwhole] at hlast
    rw [if_neg hblk]
    exact wp_seq hlast fun _ _ h' => h'

theorem setDiskSignatureSd_after (h : After s₀ size entries disk s) (hsize : 1 ≤ size) :
    wp setDiskSignatureSd (fun _ => After s₀ size entries (setSignature sdSignature disk)) R s := by
  obtain ⟨hnext, hlater⟩ := all_ok_next h.signatures
  unfold setDiskSignatureSd writeSignature
  rw [wp_bind, record, wp_modify, wp_bind, wp_nextSignature]
  cases hevent : s.signatures.headD .ok with
  | ok =>
      exact ⟨congrArg (setSignature sdSignature) h.sd, h.emmc, h.devs, h.doBackups, h.slotMap,
        h.dds, hlater, inside_cons h.inside hsize⟩
  | fail left => cases hnext.symm.trans hevent
  | cut left => cases hnext.symm.trans hevent

/-- The loop, by induction on its slot.  What it reads from lies before the slots it writes. -/
theorem writeSlots_after (src : MmcDevice) {image : Disk} {span slots i : Nat} (hspan : 0 < span)
    (hend : slots * span ≤ size) (hcount : slots * span < 2 ^ 31) (hi : 1 ≤ i)
    (h : After s₀ size entries disk s)
    (hreads : ∀ j, j < span → contentsOf s₀ disk src j = image j) :
    wp (writeSlots src span slots i)
      (fun _ => After s₀ size entries (tile disk image span i slots)) R s := by
  induction i using writeSlots.induct slots generalizing disk s with
  | case1 i htest ih =>
      have hlt := lt_of_testLt htest
      have hslot : i * span + span ≤ slots * span := slot_end_le hlt
      have hbehind : span ≤ i * span := Nat.le_mul_of_pos_left span hi
      have hcopied : overwrite disk (i * span) span
          (fun k => contentsOf s₀ disk src (k - i * span)) =
            overwrite disk (i * span) span fun k => image (k - i * span) :=
        overwrite_congr fun k hlow hhigh => hreads _ (by omega)
      have hcopy :=
        @ddSpan_slot s₀ s size disk entries R src span (i * span) h (by omega) (by omega)
      rw [hcopied] at hcopy
      rw [writeSlots, if_pos htest, slotStart_eq hspan hcount hlt]
      refine wp_seq hcopy fun _ s' h' => ?_
      rw [← tile_succ hlt]
      refine ih (by omega) h' fun j hj => ?_
      rw [← hreads j hj]
      cases src with
      | sd =>
          dsimp only [contentsOf]
          exact overwrite_outside (Or.inl (Nat.lt_of_lt_of_le hj hbehind))
      | emmc => rfl
  | case2 i hge =>
      have hslots : slots ≤ slots * span := Nat.le_mul_of_pos_right slots hspan
      have hover : slots ≤ i := by
        rw [testLt_natCast, decide_eq_true_eq] at hge
        omega
      rw [writeSlots, if_neg hge, tile_of_le hover]
      exact h

/-- The entries that are there after `create_sd_backups_from`. -/
def entriesAfter (old : List ImageSlot) (size span : Nat) : List ImageSlot :=
  if slotsOf size span < 2 then old else slotEntries span (slotCount size span)

theorem createSdBackupsFrom_after (src : MmcDevice) {sd : BlockDev} {image : Disk} {span : Nat}
    (hsd : findCard .sd s₀.devs = some sd) (hnode : sd.node = false → ∀ s', R (.exit 1) s')
    (hspan : 0 < span) (hsmall : span < 2 ^ 31) (hfits : span ≤ sd.size)
    (h : After s₀ sd.size entries disk s)
    (hreads : ∀ j, j < span → contentsOf s₀ disk src j = image j) :
    wp (createSdBackupsFrom src span) (fun _ => After s₀ sd.size (entriesAfter entries sd.size span)
      (tile disk image span 1 (slotCount sd.size span))) R s := by
  unfold createSdBackupsFrom entriesAfter
  have hempty : ¬ testLe span 0 = true := by
    rw [testLe_natCast_zero, decide_eq_true_eq]
    omega
  have hlarge : ¬ testGt span sd.size = true := by
    rw [testGt_of_small hsmall, decide_eq_true_eq]
    omega
  rw [wp_bind, wp_needSd, h.devs, hsd]
  dsimp only
  by_cases hmissing : sd.node = false
  · rw [if_neg (by simp [hmissing])]
    exact hnode hmissing s
  rw [if_pos (by simpa using hmissing), if_neg hempty, if_neg hlarge]
  rcases slotsOf_cases hspan hfits with ⟨hfew, hone⟩ | ⟨htwo, hslots⟩
  · rw [if_pos hfew, if_pos hfew, hone, tile_of_le (Nat.le_refl 1)]
    exact h
  · have hmany : ¬ slotsOf sd.size span < 2 := by omega
    obtain ⟨hend, hcount⟩ := slotCount_mul_le hspan hfits htwo
    rw [if_neg hmany, if_neg hmany, hslots, Int.toNat_natCast]
    refine wp_seq (writeSlots_after src hspan hend hcount (Nat.le_refl 1) h hreads)
      fun _ s' h' => ?_
    exact { h' with slotMap := rfl }

end Commands

/-! ## A run -/

section Run

variable {command : Backup} {s s' : System} {sd : BlockDev}

/-- The card when the command has returned. -/
def cardAfter (command : Backup) (s : System) (size : Nat) : Disk :=
  tile (command.primary s) (s.disk command.source) (command.span s) 1
    (slotCount size (command.span s))

def FilledFrom (command : Backup) (s : System) (size : Nat) : System → Prop :=
  After s size (entriesAfter s.slotMap size (command.span s)) (cardAfter command s size)

theorem after_stopped (hok : Succeeds s) (size : Nat) :
    After s size s.slotMap s.sd (stopped s) :=
  ⟨rfl, rfl, rfl, rfl, rfl, hok.1, hok.2, fun _ _ _ => Or.inl⟩

theorem doSdBackups_fills (hsd : findCard .sd s.devs = some sd)
    (hspan : 0 < Backup.sdBackups.span s) (hfits : Backup.sdBackups.span s ≤ sd.size)
    (hok : Succeeds s) :
    wp doSdBackups (fun _ => FilledFrom .sdBackups s sd.size)
      (fun _ _ => ¬ Backup.sdBackups.Accepts s sd) s := by
  have hempty : ¬ testLe (imageSpanSectors (s.parts .sd)) 0 = true := by
    rw [testLe_natCast_zero, decide_eq_true_eq]
    exact Nat.ne_of_gt hspan
  have hnode (hmissing : sd.node = false) : ¬ Backup.sdBackups.Accepts s sd :=
    fun h => Bool.false_ne_true (hmissing.symm.trans h.2.1)
  unfold doSdBackups
  rw [wp_bind, wp_needSd, hsd]
  dsimp only
  by_cases hmissing : sd.node = false
  · rw [if_neg (by simp [hmissing])]
    exact hnode hmissing
  rw [if_pos (by simpa using hmissing), wp_bind, wp_get, if_neg hempty]
  rcases confirm_cases s with ⟨-, hconfirm⟩ | ⟨hdeclined, hconfirm⟩
  · refine wp_of_ok hconfirm ?_
    rw [wp_bind, wp_stopServices]
    exact createSdBackupsFrom_after .sd hsd (fun hmissing _ => hnode hmissing) hspan
      (Backup.span_lt .sdBackups s) hfits (after_stopped hok sd.size) fun _ _ => rfl
  · rw [wp_bind, wp, hconfirm]
    exact fun h => hdeclined h.1

theorem doEmmcToSd_fills (hsd : findCard .sd s.devs = some sd)
    (hspan : 0 < Backup.emmcToSd.span s) (hfits : Backup.emmcToSd.span s ≤ sd.size)
    (hbackups : s.doBackups = true) (hok : Succeeds s) :
    wp doEmmcToSd (fun _ => FilledFrom .emmcToSd s sd.size)
      (fun _ _ => ¬ Backup.emmcToSd.Accepts s sd) s := by
  have hnode (hmissing : sd.node = false) : ¬ Backup.emmcToSd.Accepts s sd :=
    fun h => Bool.false_ne_true (hmissing.symm.trans h.2.1)
  unfold doEmmcToSd
  rcases checkCard_cases s with ⟨sd', hchecked, -, hcheck⟩ | ⟨hrefused, hcheck⟩
  · rcases confirm_cases s with ⟨-, hconfirm⟩ | ⟨hdeclined, hconfirm⟩
    · refine wp_of_ok hcheck (wp_of_ok hconfirm ?_)
      rw [wp_bind, wp_stopServices]
      refine wp_seq (ddSpan_primary (Backup.span_lt .emmcToSd s) (after_stopped hok sd.size) hfits)
        fun _ copied hcopied => ?_
      refine wp_seq (setDiskSignatureSd_after hcopied (by omega)) fun _ signed hsigned => ?_
      rw [wp_bind, wp_get, hsigned.doBackups, if_pos hbackups]
      exact createSdBackupsFrom_after .emmc hsd (fun hmissing _ => hnode hmissing) hspan
        (Backup.span_lt .emmcToSd s) hfits hsigned fun _ _ => rfl
    · refine wp_of_ok hcheck ?_
      rw [wp_bind, wp, hconfirm]
      exact fun h => hdeclined h.1
  · rw [wp_bind, wp, hcheck]
    rintro ⟨-, -, haccepted⟩
    obtain ⟨hemmc, hroot⟩ := haccepted rfl
    exact hroot (hrefused sd ⟨hsd, hemmc, hspan, hfits⟩)

theorem run_fills (hsd : findCard .sd s.devs = some sd) (hspan : 0 < command.span s)
    (hfits : command.span s ≤ sd.size) (hbackups : command = .emmcToSd → s.doBackups = true)
    (hok : Succeeds s) :
    wp command.run (fun _ => FilledFrom command s sd.size) (fun _ _ => ¬ command.Accepts s sd)
      s := by
  cases command with
  | sdBackups => exact doSdBackups_fills hsd hspan hfits hok
  | emmcToSd => exact doEmmcToSd_fills hsd hspan hfits (hbackups rfl) hok

/-- A command that is accepted returns. -/
theorem run_returns (hsd : findCard .sd s.devs = some sd) (hspan : 0 < command.span s)
    (hfits : command.span s ≤ sd.size) (hbackups : command = .emmcToSd → s.doBackups = true)
    (hok : Succeeds s) (haccepts : command.Accepts s sd) : ∃ s', command.run s = .ok () s' := by
  have hfills := run_fills hsd hspan hfits hbackups hok
  cases hrun : command.run s with
  | ok a s' => exact ⟨s', rfl⟩
  | error e s' => exact absurd haccepts (wp_error hfills hrun)

/-! ## What is on the card -/

theorem cardAfter_primary {size j : Nat} (hj : j < command.span s) :
    cardAfter command s size j = command.primary s j := by
  rw [cardAfter, tile_outside (Or.inl (by rwa [Nat.one_mul]))]

theorem cardAfter_slot {size i j : Nat} (hi : 1 ≤ i) (hslots : i < slotCount size (command.span s))
    (hj : j < command.span s) :
    cardAfter command s size (i * command.span s + j) = s.disk command.source j :=
  tile_inside hi hslots hj

theorem cardAfter_above {size k : Nat}
    (hk : slotCount size (command.span s) * command.span s ≤ k) :
    cardAfter command s size k = command.primary s k := by
  rw [cardAfter, tile_outside (Or.inr hk)]

theorem primary_above {k : Nat} (hspan : 0 < command.span s) (hk : command.span s ≤ k) :
    command.primary s k = s.sd k := by
  cases command with
  | sdBackups => rfl
  | emmcToSd =>
      have hnot : ¬ k = 0 := by omega
      have hout : overwrite s.sd 0 (Backup.emmcToSd.span s) s.emmc k = s.sd k :=
        overwrite_outside (Or.inr (by rwa [Nat.zero_add]))
      funext j
      rw [Backup.primary, setSignature, if_neg (fun h => hnot h.1), hout]

/-- The signature is all that tells the primary from the image on the eMMC. -/
theorem image_eq_primary {j : Nat} (hsame : command = .sdBackups ∨ SdSigned s.emmc)
    (hj : j < command.span s) : s.disk command.source j = command.primary s j := by
  cases command with
  | sdBackups => rfl
  | emmcToSd =>
      have hsigned : SdSigned s.emmc := hsame.resolve_left nofun
      have hin : overwrite s.sd 0 (Backup.emmcToSd.span s) s.emmc j = s.emmc j :=
        overwrite_inside (Nat.zero_le j) (by rwa [Nat.zero_add])
      funext b
      change s.emmc j b = setSignature sdSignature
        (overwrite s.sd 0 (Backup.emmcToSd.span s) s.emmc) j b
      rw [setSignature, hin]
      split
      · rename_i hbyte
        rw [hbyte.1]
        exact hsigned b hbyte.2.1 hbyte.2.2
      · rfl

theorem sdSigned_of_image_eq (heq : s.emmc 0 = Backup.emmcToSd.primary s 0) : SdSigned s.emmc := by
  intro b hlow hhigh
  rw [heq, Backup.primary, setSignature, if_pos ⟨rfl, hlow, hhigh⟩]

/-- A clone may be copied over the primary. -/
theorem restoreSlot_clone {disk : Disk} {span slots : Nat} {slot : ImageSlot}
    (hspan : 0 < span) (hcount : slots * span < 2 ^ 31)
    (hclones : ∀ i, 1 ≤ i → i < slots → ∀ j, j < span → disk (i * span + j) = disk j)
    (hslot : slot ∈ slotEntries span slots) : restoreSlot slot disk = disk := by
  obtain ⟨i, hi, rfl⟩ := List.mem_map.mp hslot
  rw [List.mem_range] at hi
  funext k
  dsimp only [restoreSlot]
  rw [slotStart_eq hspan hcount hi]
  by_cases hk : k < span
  · rw [overwrite_inside (Nat.zero_le k) (by rwa [Nat.zero_add])]
    rcases Nat.eq_zero_or_pos i with rfl | hpos
    · rw [Nat.zero_mul, Nat.zero_add]
    · exact hclones i hpos hi k hk
  · exact overwrite_outside (Or.inr (by omega))

theorem cardAfter_congr {disk : Disk} {size k : Nat} (hspan : 0 < command.span s)
    (hfits : command.span s ≤ size) (hsame : ∀ k, k < size → disk k = s.sd k) (hk : k < size) :
    cardAfter command { s with sd := disk } size k = cardAfter command s size k := by
  have hprimary : command.primary { s with sd := disk } k = command.primary s k := by
    cases command with
    | sdBackups => exact hsame k hk
    | emmcToSd =>
        have hcopied : overwrite disk 0 (Backup.emmcToSd.span s) s.emmc k =
            overwrite s.sd 0 (Backup.emmcToSd.span s) s.emmc k := by
          unfold overwrite
          rw [hsame k hk]
        funext b
        change setSignature sdSignature (overwrite disk 0 (Backup.emmcToSd.span s) s.emmc) k b =
          setSignature sdSignature (overwrite s.sd 0 (Backup.emmcToSd.span s) s.emmc) k b
        rw [setSignature, setSignature, hcopied]
  have himage : ({ s with sd := disk } : System).disk command.source (k % command.span s) =
      s.disk command.source (k % command.span s) := by
    have hmod : k % command.span s < size := Nat.lt_of_lt_of_le (Nat.mod_lt k hspan) hfits
    cases command with
    | sdBackups => exact hsame _ hmod
    | emmcToSd => rfl
  unfold cardAfter tile
  rw [← himage, ← hprimary]
  rfl

/-! ## Clones of the primary -/

/-- Behind the primary come clones of it, as many as there is room for. -/
def Clones (command : Backup) (size : Nat) (s : System) (disk : Disk) : Prop :=
  ∀ i, 1 ≤ i → i < capacity size (command.span s) → ∀ j, j < command.span s →
    disk (i * command.span s + j) = disk j

theorem clones_iff {size : Nat} (hspan : 0 < command.span s) (hfits : command.span s ≤ size) :
    Clones command size s (cardAfter command s size) ↔ Clonable command size s := by
  have hone : 1 ≤ size / command.span s := Nat.div_pos hfits hspan
  unfold Clonable
  split
  · rename_i hsize
    have hcount : slotCount size (command.span s) = capacity size (command.span s) := if_pos hsize
    constructor
    · intro hclones
      rcases Nat.lt_or_ge (size / command.span s) 2 with hfew | hmany
      · exact Or.inl hfew
      have hsecond : 1 < capacity size (command.span s) :=
        Nat.lt_of_lt_of_le hmany (Nat.le_max_right _ _)
      have hfirst := hclones 1 (Nat.le_refl 1) hsecond 0 hspan
      rw [cardAfter_slot (Nat.le_refl 1) (hcount ▸ hsecond) hspan, cardAfter_primary hspan]
        at hfirst
      cases command with
      | sdBackups => exact Or.inr (Or.inl rfl)
      | emmcToSd => exact Or.inr (Or.inr (sdSigned_of_image_eq hfirst))
    · intro hclonable i hi hslots j hj
      rw [capacity, Nat.max_eq_right hone] at hslots
      have hsame : command = .sdBackups ∨ SdSigned s.emmc :=
        hclonable.resolve_left (by omega)
      rw [cardAfter_slot hi (by rwa [hcount, capacity, Nat.max_eq_right hone]) hj,
        cardAfter_primary hj]
      exact image_eq_primary hsame hj
  · rename_i hsize
    have hcount : slotCount size (command.span s) = 1 := if_neg hsize
    have hcard : cardAfter command s size = command.primary s := by
      rw [cardAfter, hcount, tile_of_le (Nat.le_refl 1)]
    rw [hcard]
    refine forall_congr' fun i => forall_congr' fun hi => forall_congr' fun _ =>
      forall_congr' fun j => forall_congr' fun _ => ?_
    have hbehind : command.span s ≤ i * command.span s := Nat.le_mul_of_pos_left _ hi
    rw [primary_above hspan (by omega)]

/-- Every `dd` succeeding, the slots are clones of the primary, with all that follows from it,
exactly if the image was signed as the primary is, or no slot had to be filled. -/
theorem clonesPrimary_iff (command : Backup) {s s' : System} {sd : BlockDev}
    (hsd : findCard .sd s.devs = some sd) (hspan : 0 < command.span s)
    (hfits : command.span s ≤ sd.size) (hbackups : command = .emmcToSd → s.doBackups = true)
    (hok : Succeeds s) (hrun : command.run s = .ok () s') :
    ClonesPrimary command sd.size s s' ↔ Clonable command sd.size s := by
  have hfilled := run_fills hsd hspan hfits hbackups hok
  rw [wp, hrun] at hfilled
  have hcard : s'.sd = cardAfter command s sd.size := hfilled.sd
  have hslots := slotCount_le_capacity sd.size (command.span s)
  rw [← clones_iff hspan hfits, ← hcard]
  constructor
  · exact ClonesPrimary.clones
  · intro hclones
    constructor
    · exact hclones
    · intro slot hslot
      rw [hfilled.slotMap, entriesAfter] at hslot
      split at hslot
      · exact Or.inl hslot
      · rename_i hmany
        have htwo : 2 ≤ slotCount sd.size (command.span s) := by
          rcases slotsOf_cases hspan hfits with ⟨hfew, -⟩ | ⟨htwo, -⟩
          · exact absurd hfew hmany
          · exact htwo
        exact Or.inr (restoreSlot_clone hspan (slotCount_mul_le hspan hfits htwo).2
          (fun i hi hlt => hclones i hi (by omega)) hslot)
    · intro k hk
      have hcount : slotCount sd.size (command.span s) * command.span s ≤ k :=
        Nat.le_trans (Nat.mul_le_mul_right _ hslots) hk
      have hbehind : command.span s ≤ k :=
        Nat.le_trans (Nat.le_mul_of_pos_left _ (Nat.le_max_left 1 _)) hk
      rw [hcard, cardAfter_above hcount, primary_above hspan hbehind]
    · rintro rfl j hj
      rw [hcard, cardAfter_primary hj]
      rfl
    · exact hfilled.inside
    · intro disk hsame t' hrun' k hk
      have hfilled' := @run_fills command { s with sd := disk } sd hsd hspan hfits hbackups hok
      rw [wp, hrun'] at hfilled'
      rw [hfilled'.sd, hcard, cardAfter_congr hspan hfits hsame hk]

end Run

/-! ## The eMMC as it is installed -/

/-- A system that runs from the eMMC, with this signature on it, and a card with room for one
backup. -/
def fromEmmc (signature : Sector) : System :=
  start { twoChunkLinux [] with
      devs := [⟨"mmcblk0", some .sd, 36864, true⟩, ⟨"mmcblk1", some .emmc, 36864, true⟩]
      rootSource := "/dev/mmcblk1p2"
      doBackups := true }
    ⟨fun _ => 0xff, setSignature signature fun _ _ => 0, fun _ _ => 1⟩

/-- The card of that system. -/
def card : BlockDev := ⟨"mmcblk0", some .sd, 36864, true⟩

theorem succeeds_fromEmmc (signature : Sector) : Succeeds (fromEmmc signature) :=
  ⟨fun _ hmem => (by cases hmem), fun _ hmem => (by cases hmem)⟩

theorem findCard_fromEmmc (signature : Sector) :
    findCard .sd (fromEmmc signature).devs = some card :=
  rfl

theorem span_fromEmmc (signature : Sector) :
    Backup.emmcToSd.span (fromEmmc signature) = 18432 := by
  have hparts : imageSpanSectors twoChunkParts = 18432 := by decide +kernel
  exact hparts

theorem emmcToSd_fromEmmc (signature : Sector) :
    ∃ s', Backup.emmcToSd.run (fromEmmc signature) = .ok () s' := by
  have haccepts : Backup.emmcToSd.Accepts (fromEmmc signature) card := by
    refine ⟨Or.inl rfl, rfl, fun _ => ⟨rfl, ?_⟩⟩
    have hmmcblk : isMmcblk (basename "/dev/mmcblk1p2") = true := by decide +kernel
    have hroot : rootDiskName (fromEmmc signature) = beforeP (basename "/dev/mmcblk1p2") :=
      if_pos hmmcblk
    have hother : beforeP (basename "/dev/mmcblk1p2") ≠ card.name := by decide +kernel
    rw [hroot]
    exact hother
  exact run_returns (findCard_fromEmmc signature) (by rw [span_fromEmmc]; decide)
    (by rw [span_fromEmmc]; decide) (fun _ => rfl) (succeeds_fromEmmc signature) haccepts

/-- With `KLNX` on the eMMC the backup is a clone. -/
theorem clonesPrimary_klnx : ∃ s', Backup.emmcToSd.run (fromEmmc sdSignature) = .ok () s' ∧
    ClonesPrimary .emmcToSd card.size (fromEmmc sdSignature) s' := by
  obtain ⟨s', hrun⟩ := emmcToSd_fromEmmc sdSignature
  refine ⟨s', hrun, ?_⟩
  rw [clonesPrimary_iff .emmcToSd (findCard_fromEmmc sdSignature) (by rw [span_fromEmmc]; decide)
    (by rw [span_fromEmmc]; decide) (fun _ => rfl) (succeeds_fromEmmc sdSignature) hrun]
  rw [Clonable, if_pos (by decide)]
  refine Or.inr (Or.inr fun j hlow hhigh => ?_)
  exact if_pos ⟨rfl, hlow, hhigh⟩

/-- With `YNLK`, which `install-os` itself puts there, it is not. -/
theorem not_clonesPrimary_ynlk : ¬ ∀ (command : Backup) (s s' : System) (sd : BlockDev),
    findCard .sd s.devs = some sd → 0 < command.span s → command.span s ≤ sd.size →
      (command = .emmcToSd → s.doBackups = true) → Succeeds s → command.run s = .ok () s' →
        ClonesPrimary command sd.size s s' := by
  intro hall
  obtain ⟨s', hrun⟩ := emmcToSd_fromEmmc emmcSignature
  have hspan : 0 < Backup.emmcToSd.span (fromEmmc emmcSignature) := by
    rw [span_fromEmmc]
    decide
  have hfits : Backup.emmcToSd.span (fromEmmc emmcSignature) ≤ card.size := by
    rw [span_fromEmmc]
    decide
  have hclaimed := hall .emmcToSd (fromEmmc emmcSignature) s' card
    (findCard_fromEmmc emmcSignature) hspan hfits (fun _ => rfl) (succeeds_fromEmmc emmcSignature)
    hrun
  have hfilled := @run_fills .emmcToSd (fromEmmc emmcSignature) card
    (findCard_fromEmmc emmcSignature) hspan hfits (fun _ => rfl) (succeeds_fromEmmc emmcSignature)
  rw [wp, hrun] at hfilled
  have hclones := hclaimed.clones
  rw [hfilled.sd] at hclones
  have hclonable := (clones_iff hspan hfits).mp hclones
  rw [Clonable, if_pos (by decide)] at hclonable
  rcases hclonable with hfew | hother | hsigned
  · rw [span_fromEmmc] at hfew
    exact absurd hfew (by decide)
  · cases hother
  · have hbyte := hsigned ⟨440, by decide⟩ (by decide) (by decide)
    exact absurd hbyte (by decide)

end RadsatLinux.InstallOs.Backups
