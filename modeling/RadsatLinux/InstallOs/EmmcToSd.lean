import RadsatLinux.InstallOs.Latch

/-!
# From the eMMC to the card

`do_emmc_to_sd` and what it calls.  It writes the card only, and it writes it as soon as its
checks have passed and the user agrees.
-/

namespace RadsatLinux.InstallOs.EmmcToSd

open RadsatLinux.Library.Crash RadsatLinux.Library.BlockDevice RadsatLinux.Library.ShellNumber
open RadsatLinux.UBoot.Hardware
open RadsatLinux.InstallOs.Commands RadsatLinux.InstallOs.Script
open RadsatLinux.InstallOs.Restore RadsatLinux.InstallOs.Latch

/-! ## The command -/

/-- `KLNX`, the signature of the card: 0x4B4C4E58 in little-endian order. -/
def sdSignature : Sector := fun j =>
  if j = 440 then 0x58 else if j = 441 then 0x4e else if j = 442 then 0x4c
  else if j = 443 then 0x4b else 0

def setDiskSignatureSd : Script Unit :=
  writeSignature .sd sdSignature

/-- The checks before anything is touched: the span to copy. -/
def checkCard : Script Nat := do
  let (sd, _) ← needBoth
  let s ← get
  let span := imageSpanSectors (s.parts .emmc)
  if testLe span 0 then throw (.exit 1)
  if testGt span sd.size then throw (.exit 1)
  if rootDiskName s = sd.name then throw (.exit 1)
  return span

/-- Where a slot begins: `$((_i * _src_span))`. -/
def slotStart (span i : Nat) : Nat :=
  (wrap32 (shellInt i * shellInt span)).toNat

/-- The `while` loop of `create_sd_backups_from`. -/
def writeSlots (src : MmcDevice) (span slots i : Nat) : Script Unit := do
  if testLt i slots then
    ddSpan src .sd span (slotStart span i) 0
    writeSlots src span slots (i + 1)
termination_by slots - i
decreasing_by
  have hlt := lt_of_testLt ‹_›
  omega

/-- `$((SD_BLOCKS / _src_span))` -/
def slotsOf (blocks span : Nat) : Int :=
  (shellInt blocks).tdiv (shellInt span)

/-- The entries that `write_slot_map` lists. -/
def slotEntries (span slots : Nat) : List ImageSlot :=
  (List.range slots).map fun i => ⟨slotStart span i, span, if i = 0 then .primary else .backup⟩

/-- The copy on /home is left out: the script has unmounted /home. -/
def writeSlotMap (span slots : Nat) : Script Unit :=
  modify fun s => { s with slotMap := slotEntries span slots }

/-- The block device of the card must be there too. -/
def needSd : Script BlockDev := do
  match findCard .sd (← get).devs with
  | some sd => if sd.node then return sd else throw (.exit 1)
  | none => throw (.exit 1)

def createSdBackupsFrom (src : MmcDevice) (span : Nat) : Script Unit := do
  let sd ← needSd
  if testLe span 0 then throw (.exit 1)
  if testGt span sd.size then throw (.exit 1)
  if slotsOf sd.size span < 2 then return
  writeSlots src span (slotsOf sd.size span).toNat 1
  writeSlotMap span (slotsOf sd.size span).toNat

def doEmmcToSd : Script Unit := do
  let span ← checkCard
  confirm
  stopServices
  ddSpan .emmc .sd span 0 0
  setDiskSignatureSd
  if (← get).doBackups then createSdBackupsFrom .emmc span else writeSlotMap span 1

/-! ## What the checks decide -/

/-- `SPAN` -/
def cardSpan (s : System) : Nat := imageSpanSectors (s.parts .emmc)

/-- Both media are there, the span is not empty and fits. -/
def Fits (s : System) (sd : BlockDev) : Prop :=
  findCard .sd s.devs = some sd ∧ (findCard .emmc s.devs).isSome = true ∧
    0 < cardSpan s ∧ cardSpan s ≤ sd.size

theorem cardSpan_lt (s : System) : cardSpan s < 2 ^ 31 := imageSpanSectors_lt _

theorem testLe_cardSpan (s : System) : testLe (cardSpan s) 0 = true ↔ cardSpan s = 0 := by
  rw [testLe_natCast_zero, decide_eq_true_eq]

theorem testGt_cardSpan (s : System) (size : Nat) :
    testGt (cardSpan s) size = true ↔ size < cardSpan s := by
  rw [testGt_of_small (cardSpan_lt s), decide_eq_true_eq]

theorem checkCard_cases (s : System) :
    (∃ sd, Fits s sd ∧ rootDiskName s ≠ sd.name ∧ checkCard s = .ok (cardSpan s) s) ∨
      ((∀ sd, Fits s sd → rootDiskName s = sd.name) ∧ checkCard s = .error (.exit 1) s) := by
  rcases needBoth_cases s with ⟨sd, emmc, hsd, hemmc, hboth⟩ | ⟨hmissing, hboth⟩
  · have hrun : checkCard s = (do
        if testLe (cardSpan s) 0 then throw (.exit 1)
        if testGt (cardSpan s) sd.size then throw (.exit 1)
        if rootDiskName s = sd.name then throw (.exit 1)
        return cardSpan s : Script Nat) s := bind_of_ok _ hboth
    have same {sd' : BlockDev} (h : Fits s sd') : sd = sd' :=
      Option.some.inj (hsd.symm.trans h.1)
    rw [hrun]
    by_cases hzero : cardSpan s = 0
    · rw [if_pos ((testLe_cardSpan s).mpr hzero)]
      exact Or.inr ⟨fun _ h => absurd hzero (Nat.ne_of_gt h.2.2.1), rfl⟩
    rw [if_neg (mt (testLe_cardSpan s).mp hzero)]
    by_cases hlarge : sd.size < cardSpan s
    · rw [if_pos ((testGt_cardSpan s sd.size).mpr hlarge)]
      refine Or.inr ⟨fun sd' h => ?_, rfl⟩
      obtain rfl := same h
      exact absurd hlarge (Nat.not_lt.mpr h.2.2.2)
    rw [if_neg (mt (testGt_cardSpan s sd.size).mp hlarge)]
    by_cases hroot : rootDiskName s = sd.name
    · rw [if_pos hroot]
      refine Or.inr ⟨fun sd' h => ?_, rfl⟩
      obtain rfl := same h
      exact hroot
    · rw [if_neg hroot]
      refine Or.inl ⟨sd, ⟨hsd, ?_, Nat.pos_of_ne_zero hzero, Nat.not_lt.mp hlarge⟩, hroot, rfl⟩
      rw [hemmc]
      rfl
  · refine Or.inr ⟨fun sd h => absurd ⟨sd, h.1, h.2.1⟩ hmissing, ?_⟩
    simp only [checkCard, bind, EStateM.bind, hboth]

theorem wp_needSd (Q : BlockDev → System → Prop) (R : Stop → System → Prop) (s : System) :
    wp needSd Q R s ↔
      match findCard .sd s.devs with
      | some sd => if sd.node then Q sd s else R (.exit 1) s
      | none => R (.exit 1) s := by
  unfold needSd
  rw [wp_bind, wp_get]
  cases findCard .sd s.devs with
  | none => exact Iff.rfl
  | some sd =>
      dsimp only
      cases sd.node <;> exact Iff.rfl

/-! ## What it writes -/

/-- The disk an action writes. -/
def target : Action → Option MmcDevice
  | .emmcWrite _ _ => some .emmc
  | .sdWrite _ _ => some .sd
  | _ => none

/-- A write of the card: it is recorded, and the eMMC is as it was. -/
structure WritesSd (s s' : System) : Prop where
  emmc : s'.emmc = s.emmc
  trace : ∃ first count d, s'.trace = (.sdWrite first count, d) :: s.trace

theorem dd_writesSd (src : MmcDevice) (bs skip seek count : Nat) (s : System) :
    wp (dd src .sd bs skip seek count) (fun _ => WritesSd s) (fun _ => WritesSd s) s := by
  unfold dd
  dsimp only
  rw [wp_bind, record, wp_modify, wp_bind, wp_nextDd]
  cases s.dds.headD .ok with
  | ok => exact ⟨rfl, _, _, _, rfl⟩
  | fail left => exact ⟨rfl, _, _, _, rfl⟩
  | cut left => exact ⟨rfl, _, _, _, rfl⟩

theorem setDiskSignatureSd_writesSd (s : System) :
    wp setDiskSignatureSd (fun _ => WritesSd s) (fun _ => WritesSd s) s := by
  unfold setDiskSignatureSd writeSignature
  rw [wp_bind, record, wp_modify, wp_bind, wp_nextSignature]
  cases s.signatures.headD .ok with
  | ok => exact ⟨rfl, _, _, _, rfl⟩
  | fail left => exact ⟨rfl, _, _, _, rfl⟩
  | cut left => exact ⟨rfl, _, _, _, rfl⟩

/-- `P` does not speak of the slot map. -/
def MapFree (P : System → Prop) : Prop :=
  ∀ s entries, P s → P { s with slotMap := entries }

/-- A command keeps an assertion, however it ends. -/
def Keeps (P : System → Prop) {α : Type} (m : Script α) : Prop :=
  ∀ s, P s → wp m (fun _ => P) (fun _ => P) s

theorem Keeps.bind {P : System → Prop} {α β : Type} {m : Script α} {f : α → Script β}
    (hm : Keeps P m) (hf : ∀ a, Keeps P (f a)) : Keeps P (m >>= f) :=
  fun s h => wp_seq (hm s h) fun a s' h' => hf a s' h'

theorem Keeps.pure {P : System → Prop} {α : Type} (a : α) : Keeps P (pure a : Script α) :=
  fun _ h => h

section

variable {P : System → Prop} (hwrites : ∀ s s', P s → WritesSd s s' → P s')
include hwrites

/-! What survives a write of the card survives all of them. -/

theorem dd_keeps (src : MmcDevice) (bs skip seek count : Nat) :
    Keeps P (dd src .sd bs skip seek count) := by
  intro s h
  have hkeep : ∀ s', WritesSd s s' → P s' := fun s' => hwrites s s' h
  exact wp_mono (dd_writesSd src bs skip seek count s) (fun _ => hkeep) fun _ => hkeep

theorem ddSpan_keeps (src : MmcDevice) (count seek skip : Nat) :
    Keeps P (ddSpan src .sd count seek skip) := by
  have one (call : DdCall) : Keeps P (runDd src .sd call) := by
    unfold runDd
    split
    · exact dd_keeps hwrites src _ _ _ _
    · exact .pure true
  unfold ddSpan
  exact fun s h => wp_forM (fun call _ => (one call).bind fun _ => .pure ()) h

theorem writeSlots_keeps (src : MmcDevice) (span slots i : Nat) :
    Keeps P (writeSlots src span slots i) := by
  induction i using writeSlots.induct slots with
  | case1 i hlt ih =>
      rw [writeSlots, if_pos hlt]
      exact (ddSpan_keeps hwrites src _ _ _).bind fun _ => ih
  | case2 i hge =>
      rw [writeSlots, if_neg hge]
      exact .pure ()

variable (hmap : MapFree P)
include hmap

theorem createSdBackupsFrom_keeps (src : MmcDevice) (span : Nat) :
    Keeps P (createSdBackupsFrom src span) := by
  have hlisted (slots : Nat) : Keeps P (writeSlotMap span slots) := fun s h => hmap s _ h
  intro s h
  unfold createSdBackupsFrom
  rw [wp_bind, wp_needSd]
  split
  · split
    · dsimp only
      split
      · exact h
      split
      · exact h
      split
      · exact h
      · exact (writeSlots_keeps hwrites src _ _ _).bind (fun _ => hlisted _) s h
    · exact h
  · exact h

/-- What follows the copy. -/
theorem finish_keeps (span : Nat) : Keeps P (do
    setDiskSignatureSd
    if (← get).doBackups then createSdBackupsFrom .emmc span else writeSlotMap span 1) := by
  refine Keeps.bind (fun s h => ?_) fun _ s h => ?_
  · have hkeep : ∀ s', WritesSd s s' → P s' := fun s' => hwrites s s' h
    exact wp_mono (setDiskSignatureSd_writesSd s) (fun _ => hkeep) fun _ => hkeep
  · rw [wp_bind, wp_get]
    split
    · exact createSdBackupsFrom_keeps hwrites hmap _ _ s h
    · exact hmap s _ h

end

/-! ## Runs -/

/-- A refused command, or one the user declines, does nothing. -/
theorem doEmmcToSd_refused {s : System}
    (h : (∀ sd, Fits s sd → rootDiskName s = sd.name) ∨ ¬ Confirmed s) :
    ∃ status, doEmmcToSd s = .error (.exit status) s := by
  unfold doEmmcToSd
  rcases checkCard_cases s with ⟨sd, hfits, hroot, hcheck⟩ | ⟨-, hcheck⟩
  · rcases h with hsame | hdeclined
    · exact absurd (hsame sd hfits) hroot
    · rcases confirm_cases s with ⟨hconfirmed, -⟩ | ⟨-, hconfirm⟩
      · exact absurd hconfirmed hdeclined
      · refine ⟨0, ?_⟩
        simp only [bind, EStateM.bind, hcheck, hconfirm]
  · refine ⟨1, ?_⟩
    simp only [bind, EStateM.bind, hcheck]

/-- A command that is not refused: `P` is established by the copy and kept from there on. -/
theorem doEmmcToSd_wp {P : System → Prop} {s : System} {sd : BlockDev} (hfits : Fits s sd)
    (hroot : rootDiskName s ≠ sd.name) (hconfirmed : Confirmed s)
    (hwrites : ∀ s s', P s → WritesSd s s' → P s') (hmap : MapFree P)
    (hcopy : wp (ddSpan .emmc .sd (cardSpan s) 0 0) (fun _ => P) (fun _ => P) (stopped s)) :
    wp doEmmcToSd (fun _ => P) (fun _ => P) s := by
  unfold doEmmcToSd
  rcases checkCard_cases s with ⟨-, -, -, hcheck⟩ | ⟨hsame, -⟩
  · rcases confirm_cases s with ⟨-, hconfirm⟩ | ⟨hdeclined, -⟩
    · refine wp_of_ok hcheck (wp_of_ok hconfirm ?_)
      rw [wp_bind, wp_stopServices]
      exact wp_seq hcopy fun _ s' h => finish_keeps hwrites hmap _ s' h
    · exact absurd hconfirmed hdeclined
  · exact absurd (hsame sd hfits) hroot

/-- Nothing but the card is written. -/
structure CardOnly (s s' : System) : Prop where
  emmc : s'.emmc = s.emmc
  trace : ∀ entry ∈ s'.trace, entry ∈ s.trace ∨ target entry.1 = some .sd

theorem CardOnly.writes {s₀ s s' : System} (h : CardOnly s₀ s) (hwrites : WritesSd s s') :
    CardOnly s₀ s' := by
  obtain ⟨hemmc, first, count, d, htrace⟩ := hwrites
  refine ⟨hemmc.trans h.emmc, ?_⟩
  rw [htrace]
  exact List.forall_mem_cons.mpr ⟨.inr rfl, h.trace⟩

theorem doEmmcToSd_cardOnly (s : System) :
    wp doEmmcToSd (fun _ => CardOnly s) (fun _ => CardOnly s) s := by
  have hself : CardOnly s s := ⟨rfl, fun _ => .inl⟩
  by_cases hgoes : (∃ sd, Fits s sd ∧ rootDiskName s ≠ sd.name) ∧ Confirmed s
  · obtain ⟨⟨sd, hfits, hroot⟩, hconfirmed⟩ := hgoes
    refine doEmmcToSd_wp hfits hroot hconfirmed (fun _ _ => CardOnly.writes)
      (fun _ _ h => { h with }) ?_
    exact ddSpan_keeps (fun _ _ => CardOnly.writes) _ _ _ _ _ { hself with }
  · obtain ⟨status, hrun⟩ : ∃ status, doEmmcToSd s = .error (.exit status) s := by
      refine doEmmcToSd_refused ?_
      by_cases hconfirmed : Confirmed s
      · refine .inl fun sd hfits => ?_
        by_contra hroot
        exact hgoes ⟨⟨sd, hfits, hroot⟩, hconfirmed⟩
      · exact .inr hconfirmed
    rw [wp, hrun]
    exact hself

/-- Some write of the card was recorded. -/
def CardWritten (s : System) : Prop :=
  ∃ entry ∈ s.trace, target entry.1 = some .sd

theorem cardWritten_of_writesSd {s s' : System} (h : WritesSd s s') : CardWritten s' := by
  obtain ⟨-, first, count, d, htrace⟩ := h
  refine ⟨(.sdWrite first count, d), ?_, rfl⟩
  rw [htrace]
  exact List.mem_cons_self

/-- A copy from the start writes the card, even if it is cut short at once. -/
theorem ddSpan_cardWritten (src : MmcDevice) {count : Nat} (hsmall : count < 2 ^ 31)
    (s : System) :
    wp (ddSpan src .sd count 0 0) (fun _ => CardWritten) (fun _ => CardWritten) s := by
  have written {bs skip seek count : Nat} (s : System) :
      wp (dd src .sd bs skip seek count) (fun _ => CardWritten) (fun _ => CardWritten) s :=
    wp_mono (dd_writesSd src bs skip seek count s) (fun _ _ => cardWritten_of_writesSd)
      fun _ _ => cardWritten_of_writesSd
  rw [ddSpan_start src .sd hsmall]
  split
  · exact wp_seq (written s) fun _ _ h => h
  · split
    · refine wp_seq (written s) fun _ s' _ => ?_
      exact wp_seq (written s') fun _ _ h => h
    · exact wp_seq (written s) fun _ _ h => h

/-- Once the checks have passed and the user agrees, the card is written. -/
theorem doEmmcToSd_cardWritten {s : System} {sd : BlockDev} (hfits : Fits s sd)
    (hroot : rootDiskName s ≠ sd.name) (hconfirmed : Confirmed s) :
    wp doEmmcToSd (fun _ => CardWritten) (fun _ => CardWritten) s :=
  doEmmcToSd_wp hfits hroot hconfirmed (fun _ _ _ => cardWritten_of_writesSd) (fun _ _ h => h)
    (ddSpan_cardWritten .emmc (cardSpan_lt s) (stopped s))

end RadsatLinux.InstallOs.EmmcToSd
