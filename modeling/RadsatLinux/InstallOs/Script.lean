import RadsatLinux.InstallOs.Commands
import RadsatLinux.Library.ShellNumber

/-!
# `install-os`

`do_sd_to_emmc` and what it calls.  The shell has numbers of 32 bits, and `dd` has numbers of 64
bits.  Messages to the console are left out, and commands that only wait, or only change what is
mounted, have no effect here.
-/

namespace RadsatLinux.InstallOs.Script

open RadsatLinux.Library.BlockDevice RadsatLinux.Library.LittleEndian
open RadsatLinux.Library.ShellNumber
open RadsatLinux.Fram.Record RadsatLinux.Fram.Memory
open RadsatLinux.UBoot.Hardware RadsatLinux.InstallOs.Commands

/-! ## Media and root disk -/

/-- The first device of a type in /sys/block: `SD` and `EMMC`. -/
def findCard (card : MmcDevice) (devs : List BlockDev) : Option BlockDev :=
  devs.find? fun dev => dev.card == some card

def needBoth : Script (BlockDev × BlockDev) := do
  let s ← get
  match findCard .sd s.devs, findCard .emmc s.devs with
  | some sd, some emmc => return (sd, emmc)
  | _, _ => throw (.exit 1)

/-- `_part_end` -/
def partEnd (p : Partition) : Int := wrap32 (shellInt p.start + shellInt p.size)

/-- `_end` after a partition; it is never negative. -/
def lastEnd (last : Nat) (p : Partition) : Nat :=
  if testGt (partEnd p) last then (partEnd p).toNat else last

/-- End of the last partition. -/
def imageSpanSectors (parts : List Partition) : Nat := parts.foldl lastEnd 0

def findPartition (number : Nat) (parts : List Partition) : Option Partition :=
  parts.find? fun p => p.number == number

/-- The sectors to copy: up to the end of the third partition. -/
def essentialSpanSectors (parts : List Partition) : Int :=
  match findPartition 3 parts with
  | some p => partEnd p
  | none => imageSpanSectors parts

def hexByte (byte : U8) : List Char :=
  [Nat.digitChar (byte.toNat / 16), Nat.digitChar (byte.toNat % 16)]

/-- The MBR disk signature as the hex digits a PARTUUID starts with. -/
def mbrSigLe (disk : Disk) : String :=
  String.ofList (hexByte (disk 0 443) ++ hexByte (disk 0 442) ++ hexByte (disk 0 441) ++
    hexByte (disk 0 440))

/-- One slash at the end is dropped, and nothing gives `/`. -/
def basename (path : String) : String :=
  let chars := path.toList.reverse
  let chars := if chars.head? = some '/' then chars.tail else chars
  if chars.isEmpty then "/" else String.ofList (chars.takeWhile (· != '/')).reverse

/-- What stands before the first dash, in lower case. -/
def partuuidSig (partuuid : String) : String :=
  String.ofList ((partuuid.toList.takeWhile (· != '-')).map fun c =>
    if 'A' ≤ c ∧ c ≤ 'F' then c.toLower else c)

/-- The device whose MBR signature the PARTUUID of the kernel command line names. -/
def diskBySignature (devs : List BlockDev) (disk : BlockDev → Disk) (sig : String) : String :=
  match devs.find? fun dev => mbrSigLe (disk dev) == sig with
  | some dev => dev.name
  | none => ""

/-- `mmcblk*` -/
def isMmcblk (name : String) : Bool :=
  "mmcblk".toList.isPrefixOf name.toList

/-- `${name%%p*}` -/
def beforeP (name : String) : String :=
  String.ofList (name.toList.takeWhile (· != 'p'))

/-- `root_disk_name` for what /proc/mounts has as the source of the root, and for the PARTUUID
of the kernel command line.  Empty when the root disk cannot be told. -/
def rootDisk (source : String) (partuuid : Option String) (devs : List BlockDev)
    (disk : BlockDev → Disk) : String :=
  if isMmcblk (basename source) then beforeP (basename source)
  else
    match partuuid with
    | none => ""
    | some partuuid => diskBySignature devs disk (partuuidSig partuuid)

/-- What is on a device. -/
def contents (s : System) (dev : BlockDev) : Disk :=
  if findCard .sd s.devs = some dev then s.sd
  else if findCard .emmc s.devs = some dev then s.emmc
  else s.others dev.name

def rootDiskName (s : System) : String :=
  rootDisk s.rootSource s.rootPartuuid s.devs (contents s)

/-! ## FRAM helpers -/

variable (service : FramService)

def framLatchRecovery : Script Unit :=
  framSet service (.emmcRecoveryNeeded true)

/-- The stored offset, or 0 when it is missing or cannot be read. -/
def framGetRestoreOffset : Script Nat := do
  let s ← get
  if s.framGetExec && s.serviceRunning && s.framGetAnswers then
    return ((service.flags s.fram).emmcRestoreOffset.getD 0).toNat
  return 0

def framSetRestoreOffset (pos : Nat) : Script Unit :=
  framSet service (.emmcRestoreOffset (BitVec.ofNat 64 pos))

def framClearRecoveryAfterVerify : Script Unit := do
  record .clearRecovery
  framSet service (.lastEmmcProbeOk true)
  framSet service (.bootMedia 0)
  framSet service (.emmcRestoreOffset 0)
  framSet service (.emmcRecoveryNeeded false)

/-! ## Steps of the restore -/

def confirm : Script Unit := do
  let s ← get
  if s.yes then return
  if ["y", "Y", "yes", "YES", "Yes"].contains s.answer then return
  throw (.exit 0)

/-- SIGTERM to every process with a pid file. -/
def stopServices : Script Unit :=
  modify fun s => { s with serviceRunning := s.serviceRunning && !s.servicePidFile }

/-- The arguments of a `dd`, with the block size in sectors. -/
structure DdCall where
  bs : Nat
  skip : Int
  seek : Int
  count : Int

/-- A negative number is an invalid one. -/
def DdCall.Accepted (call : DdCall) : Prop :=
  0 ≤ call.skip ∧ 0 ≤ call.seek ∧ 0 ≤ call.count

instance (call : DdCall) : Decidable call.Accepted :=
  inferInstanceAs (Decidable (_ ∧ _ ∧ _))

/-- `true` when it fails. -/
def runDd (src dst : MmcDevice) (call : DdCall) : Script Bool :=
  if call.Accepted then dd src dst call.bs call.skip.toNat call.seek.toNat call.count.toNat
  else return true

/-- The calls of `dd` that `dd_span` makes. -/
def ddCalls (count seek skip : Nat) : List DdCall :=
  if testEq skip 0 && testEq seek 0 && testEq ((shellInt count).tmod 8192) 0 then
    [⟨8192, 0, 0, (shellInt count).tdiv 8192⟩]
  else if testEq skip 0 && testEq seek 0 then
    let blk := (shellInt count).tdiv 8192
    let rem := (shellInt count).tmod 8192
    (if testGt blk 0 then [⟨8192, 0, 0, blk⟩] else []) ++
      (if testGt rem 0 then [⟨1, wrap32 (blk * 8192), wrap32 (blk * 8192), rem⟩] else [])
  else [⟨1, skip, seek, count⟩]

/-- Its status is that of the `sync` at its end. -/
def ddSpan (src dst : MmcDevice) (count seek skip : Nat) : Script Unit :=
  (ddCalls count seek skip).forM fun call => do
    let _ ← runDd src dst call

/-- `_chunk`: 4 MiB in sectors. -/
def chunk : Nat := 8192

/-- `_n`: the sectors of the chunk at `pos`. -/
def chunkAt (span pos : Nat) : Nat :=
  let rem := wrap32 (shellInt span - shellInt pos)
  if testGt chunk rem then rem.toNat else chunk

/-- `$((_pos + _n))` -/
def nextPos (span pos : Nat) : Nat :=
  (wrap32 (shellInt pos + shellInt (chunkAt span pos))).toNat

/-- While the loop runs, `_n` is what is left of the span, or a whole chunk. -/
theorem chunkAt_of_testLt {span pos : Nat} (hlt : testLt pos span = true) :
    0 < chunkAt span pos ∧ chunkAt span pos ≤ chunk ∧ pos + chunkAt span pos ≤ span := by
  rw [testLt_natCast, decide_eq_true_eq] at hlt
  have hchunk : chunk = 8192 := rfl
  unfold chunkAt
  rw [shellInt_sub hlt.2.1 (Nat.le_of_lt hlt.2.2)]
  dsimp only
  rw [testGt_of_small (by omega), Int.toNat_natCast]
  simp only [decide_eq_true_eq]
  split <;> omega

theorem nextPos_of_testLt {span pos : Nat} (hlt : testLt pos span = true) :
    nextPos span pos = pos + chunkAt span pos := by
  have hend := (chunkAt_of_testLt hlt).2.2
  rw [testLt_natCast, decide_eq_true_eq] at hlt
  rw [nextPos, shellInt_add (by omega), Int.toNat_natCast]

/-- The `while` loop of `dd_span_resumable`. -/
def copyChunks (span pos : Nat) : Script Unit := do
  if testLt pos span then
    ddSpan .sd .emmc (chunkAt span pos) pos pos
    framSetRestoreOffset service (nextPos span pos)
    record (.chunkDone (nextPos span pos))
    copyChunks span (nextPos span pos)
termination_by span - pos
decreasing_by
  have hnext := nextPos_of_testLt ‹_›
  have hchunk := chunkAt_of_testLt ‹_›
  omega

def ddSpanResumable (span pos : Nat) : Script Unit := do
  let pos := if testGe pos span then 0 else pos
  if !testGt pos 0 then framSetRestoreOffset service 0
  copyChunks service span pos

/-- `YNLK`, the signature of the eMMC: 0x4B4C4E59 in little-endian order. -/
def emmcSignature : Sector := fun j =>
  if j = 440 then 0x59 else if j = 441 then 0x4e else if j = 442 then 0x4c
  else if j = 443 then 0x4b else 0

def setDiskSignatureEmmc : Script Unit :=
  writeSignature .emmc emmcSignature

def partxUpdate : Script Unit :=
  modify fun s =>
    match s.partx with
    | some parts => { s with parts := fun card => if card = .emmc then parts else s.parts card }
    | none => s

/-- The fourth partition of the eMMC, waited for if it is not there at once. -/
def waitForP4 : Script (Option Partition) := do
  let s ← get
  match findPartition 4 (s.parts .emmc) with
  | some p => return some p
  | none => return s.lateP4

def makeHome (span fullSpan : Nat) : Script Unit := do
  let s ← get
  if (findPartition 4 (s.parts .emmc)).isSome || testGt fullSpan span then
    match ← waitForP4 with
    | some p => mkfsExt4 p
    | none => return

def hasKernelFile (files : List String) : Bool :=
  files.contains "kernel" || files.contains "uImage" || files.contains "zImage"

/-- Mounts the first partition of the eMMC as VFAT, or else as anything. -/
def verifyEmmcBootable : Script Bool := do
  match ← mount with
  | some files => return hasKernelFile files
  | none =>
      match ← mount with
      | some files => return hasKernelFile files
      | none => return false

/-- The checks before anything is touched: the span to copy and the whole image span. -/
def checkMedia : Script (Nat × Nat) := do
  let (sd, emmc) ← needBoth
  let s ← get
  let span := essentialSpanSectors (s.parts .sd)
  let fullSpan := imageSpanSectors (s.parts .sd)
  let root := rootDiskName s
  if testLe span 0 then throw (.exit 1)
  if testGt span emmc.size then throw (.exit 1)
  if root ≠ "" ∧ root = emmc.name then throw (.exit 1)
  if root = "" ∨ root ≠ sd.name then throw (.exit 1)
  return (span.toNat, fullSpan)

def doSdToEmmc : Script Unit := do
  let (span, fullSpan) ← checkMedia
  let offset ← framGetRestoreOffset service
  let offset := if testGe offset span then 0 else offset
  confirm
  framLatchRecovery service
  stopServices
  ddSpanResumable service span offset
  setDiskSignatureEmmc
  partxUpdate
  makeHome span fullSpan
  if !(← verifyEmmcBootable) then throw (.exit 1)
  framClearRecoveryAfterVerify service

def doAutoRecover : Script Unit := do
  modify fun s => { s with yes := true }
  doSdToEmmc service

/-- The commands that restore the eMMC. -/
inductive Mode where
  | sdToEmmc
  | autoRecover

/-- A run of the script ends with `exit 0` where the command does not exit itself. -/
def installOs (mode : Mode) : Script Unit := do
  match mode with
  | .sdToEmmc => doSdToEmmc service
  | .autoRecover => doAutoRecover service
  throw (.exit 0)

/-! ## Spans -/

theorem partEnd_lt (p : Partition) : partEnd p < 2 ^ 31 := (wrap32_bounds _).2

theorem partEnd_of_lt {p : Partition} (h : p.start + p.size < 2 ^ 31) :
    partEnd p = (p.start + p.size : Nat) :=
  shellInt_add h

theorem imageSpanSectors_lt (parts : List Partition) : imageSpanSectors parts < 2 ^ 31 := by
  have hfold (last : Nat) (hlast : last < 2 ^ 31) : parts.foldl lastEnd last < 2 ^ 31 := by
    induction parts generalizing last with
    | nil => exact hlast
    | cons p parts ih =>
        have hend := partEnd_lt p
        refine ih _ ?_
        unfold lastEnd
        split <;> omega
  exact hfold 0 (by decide)

theorem essentialSpanSectors_bounds (parts : List Partition) :
    -2 ^ 31 ≤ essentialSpanSectors parts ∧ essentialSpanSectors parts < 2 ^ 31 := by
  unfold essentialSpanSectors
  split
  · exact wrap32_bounds _
  · have hlt := imageSpanSectors_lt parts
    omega

/-! ## What `dd_span` copies -/

def DdCall.ofNat (bs skip seek count : Nat) : DdCall := ⟨bs, skip, seek, count⟩

theorem accepted_ofNat (bs skip seek count : Nat) : (DdCall.ofNat bs skip seek count).Accepted :=
  ⟨Int.natCast_nonneg _, Int.natCast_nonneg _, Int.natCast_nonneg _⟩

theorem runDd_ofNat (src dst : MmcDevice) (bs skip seek count : Nat) :
    runDd src dst (.ofNat bs skip seek count) = dd src dst bs skip seek count :=
  if_pos (accepted_ofNat bs skip seek count)

/-- A copy that starts at the same sector of both disks goes on at the same one. -/
theorem ddCalls_same {count pos : Nat} {call : DdCall} (h : call ∈ ddCalls count pos pos) :
    call.skip = call.seek := by
  unfold ddCalls at h
  split at h
  · rw [List.mem_singleton.mp h]
  · split at h
    · rcases List.mem_append.mp h with hblk | hrem
      · split at hblk
        · rw [List.mem_singleton.mp hblk]
        · cases hblk
      · split at hrem
        · rw [List.mem_singleton.mp hrem]
        · cases hrem
    · rw [List.mem_singleton.mp h]

theorem ddCalls_offset {count seek skip : Nat} (h : skip ≠ 0 ∨ seek ≠ 0) :
    ddCalls count seek skip = [.ofNat 1 skip seek count] := by
  have hstart : (testEq skip 0 && testEq seek 0) = false := by
    rw [testEq_zero, testEq_zero, ← Bool.decide_and, decide_eq_false_iff_not]
    omega
  rw [ddCalls, hstart]
  rfl

theorem ddCalls_start {count : Nat} (hcount : count < 2 ^ 31) :
    ddCalls count 0 0 =
      if count % 8192 = 0 then [.ofNat 8192 0 0 (count / 8192)]
      else (if 0 < count / 8192 then [.ofNat 8192 0 0 (count / 8192)] else []) ++
        (if 0 < count % 8192 then
          [.ofNat 1 (count / 8192 * 8192) (count / 8192 * 8192) (count % 8192)] else []) := by
  have hzero : testEq (0 : Nat) 0 = true := testEq_zero 0
  have hdiv : (shellInt count).tdiv 8192 = (count / 8192 : Nat) := shellInt_tdiv hcount
  have hmod : (shellInt count).tmod 8192 = (count % 8192 : Nat) := shellInt_tmod hcount
  have hproduct : wrap32 ((count / 8192 : Nat) * 8192) = (count / 8192 * 8192 : Nat) := by
    have hsmall : count / 8192 * 8192 < 2 ^ 31 := by omega
    exact wrap32_small hsmall
  have hblk : testGt (count / 8192 : Nat) 0 = decide (0 < count / 8192) := by
    rw [testGt_zero, decide_eq_decide]
    omega
  have hrem : testGt (count % 8192 : Nat) 0 = decide (0 < count % 8192) := by
    rw [testGt_zero, decide_eq_decide]
    omega
  rw [ddCalls, hzero, hdiv, hmod, testEq_zero]
  simp only [Bool.and_self, Bool.true_and, decide_eq_true_eq, if_true, hproduct, hblk, hrem]
  rfl

/-- Away from the start, sector by sector. -/
theorem ddSpan_offset (src dst : MmcDevice) {count seek skip : Nat} (h : skip ≠ 0 ∨ seek ≠ 0) :
    ddSpan src dst count seek skip = (do
      let _ ← dd src dst 1 skip seek count
      pure ()) := by
  rw [ddSpan, ddCalls_offset h]
  simp [runDd_ofNat]

/-- From the start, in large blocks and then the rest, where the shell can count the sectors. -/
theorem ddSpan_start (src dst : MmcDevice) {count : Nat} (hcount : count < 2 ^ 31) :
    ddSpan src dst count 0 0 = (do
      if count % 8192 = 0 then
        let _ ← dd src dst 8192 0 0 (count / 8192)
      else
        if 0 < count / 8192 then
          let _ ← dd src dst 8192 0 0 (count / 8192)
        let _ ← dd src dst 1 (count / 8192 * 8192) (count / 8192 * 8192) (count % 8192)) := by
  rw [ddSpan, ddCalls_start hcount]
  by_cases hmultiple : count % 8192 = 0
  · simp [hmultiple, runDd_ofNat]
  · have hmore : 0 < count % 8192 := Nat.pos_of_ne_zero hmultiple
    by_cases hblk : 0 < count / 8192
    · simp [hmultiple, hmore, hblk, runDd_ofNat]
    · simp [hmultiple, hmore, hblk, runDd_ofNat]

/-! ## What the checks decide -/

/-- `SPAN` and `FULL_SPAN`. -/
def spanOf (s : System) : Nat := (essentialSpanSectors (s.parts .sd)).toNat

def fullSpanOf (s : System) : Nat := imageSpanSectors (s.parts .sd)

/-- Both media are there, the span is not empty and fits, and the root is on the SD card. -/
def Accepted (s : System) : Prop :=
  ∃ sd emmc, findCard .sd s.devs = some sd ∧ findCard .emmc s.devs = some emmc ∧
    0 < spanOf s ∧ spanOf s ≤ emmc.size ∧
    rootDiskName s ≠ "" ∧ rootDiskName s ≠ emmc.name ∧ rootDiskName s = sd.name

theorem spanOf_lt (s : System) : spanOf s < 2 ^ 31 := by
  have hbounds := essentialSpanSectors_bounds (s.parts .sd)
  unfold spanOf
  omega

theorem testLe_span (s : System) :
    testLe (essentialSpanSectors (s.parts .sd)) 0 = true ↔ spanOf s = 0 := by
  have hbounds := essentialSpanSectors_bounds (s.parts .sd)
  rw [testLe_zero hbounds, decide_eq_true_eq, spanOf, Int.toNat_eq_zero]

theorem testGt_span {s : System} (hspan : spanOf s ≠ 0) (size : Nat) :
    testGt (essentialSpanSectors (s.parts .sd)) size = true ↔ size < spanOf s := by
  have hcast : essentialSpanSectors (s.parts .sd) = (spanOf s : Nat) := by
    unfold spanOf at hspan ⊢
    omega
  rw [hcast, testGt_of_small (spanOf_lt s), decide_eq_true_eq]

theorem Accepted.span_pos {s : System} (h : Accepted s) : 0 < spanOf s := by
  rcases h with ⟨_, _, _, _, hpos, _⟩
  exact hpos

theorem needBoth_cases (s : System) :
    (∃ sd emmc, findCard .sd s.devs = some sd ∧ findCard .emmc s.devs = some emmc ∧
      needBoth s = .ok (sd, emmc) s) ∨
      ((¬ ∃ sd, findCard .sd s.devs = some sd ∧ (findCard .emmc s.devs).isSome = true) ∧
        needBoth s = .error (.exit 1) s) := by
  unfold needBoth
  simp only [bind, EStateM.bind, get, getThe, MonadStateOf.get, EStateM.get]
  cases hsd : findCard .sd s.devs with
  | none => exact Or.inr ⟨fun ⟨_, h, _⟩ => (nomatch h), rfl⟩
  | some sd =>
      cases hemmc : findCard .emmc s.devs with
      | none => exact Or.inr ⟨fun ⟨_, _, h⟩ => Bool.false_ne_true h, rfl⟩
      | some emmc => exact Or.inl ⟨sd, emmc, rfl, rfl, rfl⟩

theorem checkMedia_cases (s : System) :
    (Accepted s ∧ checkMedia s = .ok (spanOf s, fullSpanOf s) s) ∨
      (¬ Accepted s ∧ checkMedia s = .error (.exit 1) s) := by
  have refuse {sd emmc : BlockDev} (hsd : findCard .sd s.devs = some sd)
      (hemmc : findCard .emmc s.devs = some emmc)
      (hbad : ¬ (0 < spanOf s ∧ spanOf s ≤ emmc.size ∧ rootDiskName s ≠ "" ∧
        rootDiskName s ≠ emmc.name ∧ rootDiskName s = sd.name)) : ¬ Accepted s := by
    rintro ⟨sd', emmc', hsd', hemmc', hgood⟩
    obtain rfl := Option.some.inj (hsd.symm.trans hsd')
    obtain rfl := Option.some.inj (hemmc.symm.trans hemmc')
    exact hbad hgood
  unfold checkMedia needBoth
  simp only [bind, EStateM.bind, get, getThe, MonadStateOf.get, EStateM.get]
  cases hsd : findCard .sd s.devs with
  | none => exact Or.inr ⟨fun ⟨_, _, h, _⟩ => (nomatch hsd.symm.trans h), rfl⟩
  | some sd =>
      cases hemmc : findCard .emmc s.devs with
      | none => exact Or.inr ⟨fun ⟨_, _, _, h, _⟩ => (nomatch hemmc.symm.trans h), rfl⟩
      | some emmc =>
          dsimp only [pure, EStateM.pure]
          split
          · next hzero =>
              refine Or.inr ⟨refuse hsd hemmc fun hgood => ?_, rfl⟩
              exact Nat.ne_of_gt hgood.1 ((testLe_span s).mp hzero)
          · next hzero =>
              have hzero : spanOf s ≠ 0 := fun h => hzero ((testLe_span s).mpr h)
              split
              · next hlarge =>
                  refine Or.inr ⟨refuse hsd hemmc fun hgood => ?_, rfl⟩
                  exact Nat.not_lt.mpr hgood.2.1 ((testGt_span hzero _).mp hlarge)
              · next hlarge =>
                  have hlarge : ¬ emmc.size < spanOf s :=
                    fun h => hlarge ((testGt_span hzero _).mpr h)
                  split
                  · next hroot =>
                      refine Or.inr ⟨refuse hsd hemmc fun hgood => ?_, rfl⟩
                      exact hgood.2.2.2.1 hroot.2
                  · next hroot =>
                      split
                      · next hother =>
                          refine Or.inr ⟨refuse hsd hemmc fun hgood => ?_, rfl⟩
                          exact hother.elim hgood.2.2.1 fun hne => hne hgood.2.2.2.2
                      · next hother =>
                          rw [not_or, not_not] at hother
                          refine Or.inl ⟨⟨sd, emmc, hsd, hemmc, Nat.pos_of_ne_zero hzero,
                            Nat.not_lt.mp hlarge, hother.1, fun heq => ?_, hother.2⟩, rfl⟩
                          exact hroot ⟨hother.1, heq⟩

/-- What `fram_get_restore_offset` returns. -/
def storedOffset (s : System) : Nat :=
  if s.framGetExec && s.serviceRunning && s.framGetAnswers then
    ((service.flags s.fram).emmcRestoreOffset.getD 0).toNat
  else 0

theorem framGetRestoreOffset_run (s : System) :
    framGetRestoreOffset service s = .ok (storedOffset service s) s := by
  unfold framGetRestoreOffset storedOffset
  simp only [bind, EStateM.bind, get, getThe, MonadStateOf.get, EStateM.get]
  split <;> rfl

/-- Where the copy starts. -/
def startPos (s : System) (span : Nat) : Nat :=
  if testGe (storedOffset service s) span then 0 else storedOffset service s

/-- It starts inside the span, or at a number that is too large for `[`. -/
theorem startPos_cases (s : System) {span : Nat} (hspan : 0 < span) (hsmall : span < 2 ^ 31) :
    startPos service s span < span ∨ 2 ^ 31 ≤ startPos service s span := by
  unfold startPos
  rw [testGe_natCast]
  simp only [decide_eq_true_eq]
  split <;> omega

/-- `dd_span_resumable` does not start over. -/
theorem testGe_startPos (s : System) (hspan : 0 < spanOf s) :
    testGe (startPos service s (spanOf s)) (spanOf s) = false := by
  have hsmall := spanOf_lt s
  have hcases := startPos_cases service s hspan hsmall
  rw [testGe_natCast, decide_eq_false_iff_not]
  omega

/-- The user, or an option, agrees. -/
def Confirmed (s : System) : Prop :=
  s.yes = true ∨ ["y", "Y", "yes", "YES", "Yes"].contains s.answer = true

theorem confirm_cases (s : System) :
    (Confirmed s ∧ confirm s = .ok () s) ∨ (¬ Confirmed s ∧ confirm s = .error (.exit 0) s) := by
  unfold confirm Confirmed
  simp only [bind, EStateM.bind, get, getThe, MonadStateOf.get, EStateM.get]
  by_cases hyes : s.yes = true
  · rw [if_pos hyes]
    exact Or.inl ⟨Or.inl hyes, rfl⟩
  · rw [if_neg hyes]
    by_cases hanswer : ["y", "Y", "yes", "YES", "Yes"].contains s.answer = true
    · rw [if_pos hanswer]
      exact Or.inl ⟨Or.inr hanswer, rfl⟩
    · rw [if_neg hanswer]
      exact Or.inr ⟨fun h => h.elim hyes hanswer, rfl⟩

/-- The state in which a command enters `do_sd_to_emmc`. -/
def Mode.entry : Mode → System → System
  | .sdToEmmc, s => s
  | .autoRecover, s => { s with yes := true }

theorem installOs_eq (mode : Mode) (s : System) :
    installOs service mode s =
      (doSdToEmmc service >>= fun _ => throw (.exit 0)) (mode.entry s) := by
  cases mode <;> rfl

theorem installOs_refused {mode : Mode} {s : System} (h : ¬ Accepted (mode.entry s)) :
    installOs service mode s = .error (.exit 1) (mode.entry s) := by
  rcases checkMedia_cases (mode.entry s) with ⟨haccepted, -⟩ | ⟨-, hcheck⟩
  · exact absurd haccepted h
  · rw [installOs_eq]
    simp only [doSdToEmmc, bind, EStateM.bind, hcheck]

theorem installOs_declined {mode : Mode} {s : System} (haccepted : Accepted (mode.entry s))
    (h : ¬ Confirmed (mode.entry s)) :
    installOs service mode s = .error (.exit 0) (mode.entry s) := by
  rcases checkMedia_cases (mode.entry s) with ⟨-, hcheck⟩ | ⟨hrefused, -⟩
  · rcases confirm_cases (mode.entry s) with ⟨hconfirmed, -⟩ | ⟨-, hconfirm⟩
    · exact absurd hconfirmed h
    · rw [installOs_eq]
      simp only [doSdToEmmc, bind, EStateM.bind, hcheck, framGetRestoreOffset_run, hconfirm]
  · exact absurd haccepted hrefused

/-- The script never just returns. -/
theorem installOs_stops (mode : Mode) (s : System) :
    ∃ e s', installOs service mode s = .error e s' := by
  rw [installOs_eq]
  simp only [bind, EStateM.bind]
  cases doSdToEmmc service (mode.entry s) with
  | ok a s' => exact ⟨_, _, rfl⟩
  | error e s' => exact ⟨_, _, rfl⟩

end RadsatLinux.InstallOs.Script
