import RadsatLinux.Fram.Memory
import RadsatLinux.Library.BlockDevice
import RadsatLinux.Library.Crash

/-!
# The board as U-Boot drives it

The FRAM chip on the I2C bus, the two MMC devices, and the U-Boot calls and commands the
recovery code makes on them.  What the hardware does is an input: each queue of a
`PowerOn` says, command by command, whether the next one succeeds, fails, or is
interrupted by a power cut, and what it leaves behind then.
-/

namespace RadsatLinux.UBoot.Hardware

open RadsatLinux.Fram.Record RadsatLinux.Fram.Memory
open RadsatLinux.Library.BlockDevice

/-- A 512-byte block. -/
abbrev Sector := Fin 512 → U8

/-- For literals as positions in a sector. -/
instance sector_neZero : NeZero 512 := ⟨by decide⟩

/-- A block device by sector number. -/
abbrev Disk := Nat → Sector

inductive MmcDevice where
  | sd
  | emmc
  deriving DecidableEq

/-- What survives a power cut. -/
structure Durable where
  fram : Chip
  emmc : Disk
  sd : Disk

/-- The course of one I2C transaction.  A failed or interrupted write has stored some
first bytes of its buffer. -/
inductive I2cEvent where
  | ok
  | fail (stored : Nat)
  | cut (stored : Nat)

namespace I2cEvent

/-- How many bytes of a buffer of `n` a write stores. -/
def stored (n : Nat) : I2cEvent → Nat
  | .ok => n
  | .fail count => count
  | .cut count => count

def isOk : I2cEvent → Bool
  | .ok => true
  | _ => false

def isCut : I2cEvent → Bool
  | .cut _ => true
  | _ => false

@[simp] theorem isOk_ok : isOk .ok = true := rfl
@[simp] theorem isOk_fail (count : Nat) : isOk (.fail count) = false := rfl
@[simp] theorem isOk_cut (count : Nat) : isOk (.cut count) = false := rfl
@[simp] theorem isCut_ok : isCut .ok = false := rfl
@[simp] theorem isCut_fail (count : Nat) : isCut (.fail count) = false := rfl
@[simp] theorem isCut_cut (count : Nat) : isCut (.cut count) = true := rfl

end I2cEvent

/-- The course of one MMC command.  A failed or interrupted transfer leaves anything in
the sectors it was to fill. -/
inductive MmcEvent where
  | ok
  | fail (left : Disk)
  | cut (left : Disk)

/-- What a power-on finds in volatile state, and how the hardware will behave. -/
structure PowerOn where
  bus : Nat
  mmcDevice : MmcDevice
  load : Disk
  busFails : List Bool
  i2c : List I2cEvent
  mmc : List MmcEvent

/-- One transfer to the eMMC. -/
structure EmmcWrite where
  first : Nat
  count : Nat

/-- `writes` records the transfers to the eMMC since power-on. -/
structure Board extends Durable, PowerOn where
  writes : List EmmcWrite

/-- Where the power went: in the middle of an FRAM write, with the bytes its range held,
was to hold and holds, or elsewhere. -/
inductive PowerCut where
  | framWrite (old new left : List U8)
  | elsewhere

/-- U-Boot code: it returns, or the power goes. -/
abbrev Boot := EStateM PowerCut Board

def powerOn (volatile : PowerOn) (durable : Durable) : Board :=
  { toDurable := durable, toPowerOn := volatile, writes := [] }

/-- The assumption on interrupted slot writes: a slot that holds neither the old nor the
new record fails its CRC. -/
def PowerCut.Detected : PowerCut → Prop
  | .framWrite old new left =>
      ∀ raw : Slot, left = raw.toList → left = old ∨ left = new ∨ crcOk raw = false
  | .elsewhere => True

/-- No I2C transaction fails without the power being cut. -/
def Board.I2cReliable (b : Board) : Prop :=
  ∀ event ∈ b.i2c, ∀ stored, event ≠ .fail stored

/-- Nothing fails and the power stays on. -/
def Board.Quiet (b : Board) : Prop :=
  b.busFails = [] ∧ b.i2c = [] ∧ b.mmc = []

/-! ## I2C -/

/-- `CONFIG_FRAM_I2C_BUS` -/
def configFramI2cBus : Nat := 2

def nextI2c : Boot I2cEvent := fun b =>
  match b.i2c with
  | [] => .ok .ok b
  | event :: rest => .ok event { b with i2c := rest }

def i2cGetBusNum : Boot Nat := do
  return (← get).bus

/-- Nonzero (`true`) when the bus cannot be selected. -/
def i2cSetBusNum (bus : Nat) : Boot Bool := fun b =>
  match b.busFails with
  | true :: rest => .ok true { b with busFails := rest }
  | fails => .ok false { b with busFails := fails.tail, bus := bus }

/-- `none` when `i2c_read` returns nonzero.  The chip answers on its own bus only. -/
def framRead (offset : U16) (len : Nat) : Boot (Option (Vector U8 len)) := do
  match ← nextI2c with
  | .ok =>
      let b ← get
      return if b.bus = configFramI2cBus then some (readAt b.fram offset.toNat len) else none
  | .fail _ => return none
  | .cut _ => throw .elsewhere

def storeFram {n : Nat} (offset : U16) (buf : Vector U8 n) (count : Nat) : Boot Unit :=
  modify fun b =>
    if b.bus = configFramI2cBus then
      { b with fram := writeAt b.fram offset.toNat buf count }
    else b

/-- Nonzero (`true`) when `i2c_write` fails. -/
def framWrite {n : Nat} (offset : U16) (buf : Vector U8 n) : Boot Bool := do
  match ← nextI2c with
  | .ok =>
      storeFram offset buf n
      return (← get).bus != configFramI2cBus
  | .fail stored =>
      storeFram offset buf stored
      return true
  | .cut stored =>
      let old := readAt (← get).fram offset.toNat n
      storeFram offset buf stored
      let left := readAt (← get).fram offset.toNat n
      throw (.framWrite old.toList buf.toList left.toList)

/-! ## MMC commands -/

def nextMmc : Boot MmcEvent := fun b =>
  match b.mmc with
  | [] => .ok .ok b
  | event :: rest => .ok event { b with mmc := rest }

def Durable.disk (d : Durable) : MmcDevice → Disk
  | .sd => d.sd
  | .emmc => d.emmc

/-- `n` sectors from `blk` on of the current device replaced. -/
def storeSectors (blk n : Nat) (data : Disk) : Boot Unit :=
  modify fun b =>
    match b.mmcDevice with
    | .sd => { b with sd := overwrite b.sd blk n data }
    | .emmc =>
        { b with emmc := overwrite b.emmc blk n data, writes := ⟨blk, n⟩ :: b.writes }

/-- The commands below return nonzero (`true`) on failure, as `run_command` does. -/
def mmcDev (device : MmcDevice) : Boot Bool := do
  match ← nextMmc with
  | .ok =>
      modify fun b => { b with mmcDevice := device }
      return false
  | .fail _ => return true
  | .cut _ => throw .elsewhere

def mmcRescan : Boot Bool := do
  match ← nextMmc with
  | .ok => return false
  | .fail _ => return true
  | .cut _ => throw .elsewhere

/-- `mmc read ${loadaddr} blk n` -/
def mmcRead (blk n : Nat) : Boot Bool := do
  match ← nextMmc with
  | .ok =>
      modify fun b =>
        { b with load := overwrite b.load 0 n fun i => b.disk b.mmcDevice (blk + i) }
      return false
  | .fail left =>
      modify fun b => { b with load := left }
      return true
  | .cut _ => throw .elsewhere

/-- `mmc write ${loadaddr} blk n` -/
def mmcWrite (blk n : Nat) : Boot Bool := do
  match ← nextMmc with
  | .ok =>
      let b ← get
      storeSectors blk n fun i => b.load (i - blk)
      return false
  | .fail left =>
      storeSectors blk n left
      return true
  | .cut left =>
      storeSectors blk n left
      throw .elsewhere

/-- `fatload mmc 1:1 ${loadaddr} file`: `fatFile` is what the FAT driver finds on a disk. -/
def fatload (fatFile : Disk → String → Option Disk) (file : String) : Boot Bool := do
  match ← nextMmc with
  | .ok =>
      match fatFile (← get).emmc file with
      | some data =>
          modify fun b => { b with load := data }
          return false
      | none => return true
  | .fail left =>
      modify fun b => { b with load := left }
      return true
  | .cut _ => throw .elsewhere

end RadsatLinux.UBoot.Hardware
