import RadsatLinux.UBoot.Hardware

/-!
# The running Linux that `install-os` sees

The state the script reads and changes, and the commands it runs.  As on the board as
U-Boot drives it, what the hardware and the service do is an input: a queue says, command
by command, whether the next one succeeds, fails or is interrupted.  `trace` records what
was done, with the durable state at that moment.
-/

namespace RadsatLinux.InstallOs.Commands

open RadsatLinux.Library.BlockDevice
open RadsatLinux.Fram.Record RadsatLinux.Fram.Memory
open RadsatLinux.UBoot.Hardware

/-! ## FRAM through the service -/

/-- The flags the script sets, as `fram-set` names them. -/
inductive FlagSet where
  | emmcRecoveryNeeded (value : Bool)
  | emmcRestoreOffset (value : U64)
  | lastEmmcProbeOk (value : Bool)
  | bootMedia (value : U64)
  deriving DecidableEq

structure Flags where
  emmcRecoveryNeeded : Option Bool
  emmcRestoreOffset : Option U64
  lastEmmcProbeOk : Option Bool
  bootMedia : Option U64
  deriving DecidableEq

def FlagSet.apply : FlagSet → Flags → Flags
  | .emmcRecoveryNeeded value, flags => { flags with emmcRecoveryNeeded := some value }
  | .emmcRestoreOffset value, flags => { flags with emmcRestoreOffset := some value }
  | .lastEmmcProbeOk value, flags => { flags with lastEmmcProbeOk := some value }
  | .bootMedia value, flags => { flags with bootMedia := some value }

/-- `fram-service`: the flags it reads off the chip, and what it makes of the chip when it
stores one. -/
structure FramService where
  flags : Chip → Flags
  store : FlagSet → Chip → Chip
  flags_store : ∀ request chip, flags (store request chip) = request.apply (flags chip)

/-- The restore offset that a request leaves in place of `old`. -/
def offsetAfter (request : FlagSet) (old : Option U64) : Option U64 :=
  match request with
  | .emmcRestoreOffset offset => some offset
  | _ => old

theorem apply_emmcRestoreOffset (request : FlagSet) (flags : Flags) :
    (request.apply flags).emmcRestoreOffset = offsetAfter request flags.emmcRestoreOffset := by
  cases request <;> rfl

/-- A request that is cut short leaves something on the chip. -/
inductive RequestEvent where
  | served
  | failed
  | cut (left : Chip)

/-! ## Block devices -/

structure Partition where
  number : Nat
  start : Nat
  size : Nat
  deriving DecidableEq

/-- A device /sys/block/mmcblk* that is neither a boot area nor an RPMB; `card` tells what
its sysfs type says, `SD`, `MMC` or neither, and `node` whether /dev has its block device. -/
structure BlockDev where
  name : String
  card : Option MmcDevice
  size : Nat
  node : Bool
  deriving DecidableEq

/-- `role=` in the slot map -/
inductive Role where
  | primary
  | backup
  deriving DecidableEq

/-- An entry of /tmp/sd-image-slots.txt: where an image lies on the card. -/
structure ImageSlot where
  offset : Nat
  sectors : Nat
  role : Role
  deriving DecidableEq

/-! ## State -/

/-- What the system holds outside the durable media.  `others` has what is on devices besides
the two the script takes for the SD card and the eMMC; `partx` is the partition table of the
eMMC that `partx -u` makes the kernel see, if there is a `partx`; `lateP4` is the fourth
partition if it turns up while the script waits for it; `fresh` is the file system that
`mkfs.ext4` makes; a mount yields the names of the files in the root of the file system, or
fails; `slotMap` has the entries of the slot map. -/
structure Linux where
  devs : List BlockDev
  others : String → Disk
  parts : MmcDevice → List Partition
  rootSource : String
  rootPartuuid : Option String
  yes : Bool
  doBackups : Bool
  answer : String
  framSetExec : Bool
  framGetExec : Bool
  framGetAnswers : Bool
  serviceRunning : Bool
  servicePidFile : Bool
  partx : Option (List Partition)
  lateP4 : Option Partition
  fresh : Disk
  requests : List RequestEvent
  dds : List MmcEvent
  signatures : List MmcEvent
  mkfs : List MmcEvent
  mounts : List (Option (List String))
  slotMap : List ImageSlot

inductive Action where
  | emmcWrite (first count : Nat)
  | sdWrite (first count : Nat)
  | setFlag (request : FlagSet)
  | chunkDone (pos : Nat)
  | clearRecovery
  deriving DecidableEq

structure System extends Durable, Linux where
  trace : List (Action × Durable)

/-- How the script ends: the power goes, in the middle of a request to the service or
elsewhere, or it exits. -/
inductive Stop where
  | framCut (request : FlagSet) (old left : Chip)
  | powerCut
  | exit (status : Nat)

abbrev Script := EStateM Stop System

/-- The assumption on interrupted requests, for a reader of the restore offset: it finds the
old one, or the one of the request, or, if the request has one, none. -/
def Stop.Detected (read : Chip → Option U64) : Stop → Prop
  | .framCut request old left =>
      read left = read old ∨ read left = offsetAfter request (read old) ∨
        (∃ offset, request = .emmcRestoreOffset offset) ∧ read left = none
  | .powerCut => True
  | .exit _ => True

def start (linux : Linux) (durable : Durable) : System :=
  { toDurable := durable, toLinux := linux, trace := [] }

def record (action : Action) : Script Unit :=
  modify fun s => { s with trace := (action, s.toDurable) :: s.trace }

/-! ## Commands -/

def nextRequest : Script RequestEvent := fun s =>
  .ok (s.requests.headD .served) { s with requests := s.requests.tail }

/-- `[ -x /usr/sbin/fram-set ] && /usr/sbin/fram-set ... || true` -/
def framSet (service : FramService) (request : FlagSet) : Script Unit := do
  let s ← get
  if !s.framSetExec || !s.serviceRunning then return
  match ← nextRequest with
  | .served =>
      modify fun s => { s with fram := service.store request s.fram }
      record (.setFlag request)
  | .failed => return
  | .cut left =>
      let old := (← get).fram
      modify fun s => { s with fram := left }
      throw (.framCut request old left)

def writeAction : MmcDevice → Nat → Nat → Action
  | .sd => .sdWrite
  | .emmc => .emmcWrite

def nextDd : Script MmcEvent := fun s =>
  .ok (s.dds.headD .ok) { s with dds := s.dds.tail }

def storeSectors (dst : MmcDevice) (first count : Nat) (data : Disk) : Script Unit :=
  modify fun s =>
    match dst with
    | .sd => { s with sd := overwrite s.sd first count data }
    | .emmc => { s with emmc := overwrite s.emmc first count data }

/-- `dd if=src of=dst bs=... skip=... seek=... count=... conv=fsync`, with the block size in
sectors; `true` when it fails. -/
def dd (src dst : MmcDevice) (bs skip seek count : Nat) : Script Bool := do
  let first := seek * bs
  let sectors := count * bs
  record (writeAction dst first sectors)
  match ← nextDd with
  | .ok =>
      let s ← get
      storeSectors dst first sectors fun i => s.disk src (i - first + skip * bs)
      return false
  | .fail left =>
      storeSectors dst first sectors left
      return true
  | .cut left =>
      storeSectors dst first sectors left
      throw .powerCut

def nextSignature : Script MmcEvent := fun s =>
  .ok (s.signatures.headD .ok) { s with signatures := s.signatures.tail }

/-- Bytes 440 to 443 of the first sector taken from `bytes`. -/
def setSignature (bytes : Sector) (disk : Disk) : Disk :=
  fun i j => if i = 0 ∧ 440 ≤ j.val ∧ j.val < 444 then bytes j else disk i j

def storeSignature (dst : MmcDevice) (bytes : Sector) : Script Unit :=
  modify fun s =>
    match dst with
    | .sd => { s with sd := setSignature bytes s.sd }
    | .emmc => { s with emmc := setSignature bytes s.emmc }

/-- `printf ... | dd of=dst bs=1 seek=440 count=4 conv=notrunc` -/
def writeSignature (dst : MmcDevice) (bytes : Sector) : Script Unit := do
  record (writeAction dst 0 1)
  match ← nextSignature with
  | .ok => storeSignature dst bytes
  | .fail left => storeSignature dst (left 0)
  | .cut left =>
      storeSignature dst (left 0)
      throw .powerCut

def nextMkfs : Script MmcEvent := fun s =>
  .ok (s.mkfs.headD .ok) { s with mkfs := s.mkfs.tail }

/-- `mkfs.ext4 -F` on a partition of the eMMC -/
def mkfsExt4 (p : Partition) : Script Unit := do
  record (.emmcWrite p.start p.size)
  match ← nextMkfs with
  | .ok => storeSectors .emmc p.start p.size (← get).fresh
  | .fail left => storeSectors .emmc p.start p.size left
  | .cut left =>
      storeSectors .emmc p.start p.size left
      throw .powerCut

def mount : Script (Option (List String)) := fun s =>
  .ok (s.mounts.headD none) { s with mounts := s.mounts.tail }

end RadsatLinux.InstallOs.Commands
