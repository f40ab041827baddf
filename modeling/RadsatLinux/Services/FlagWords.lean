import RadsatLinux.Services.Replies
import RadsatLinux.InstallOs.CopySafety
import RadsatLinux.Init.RootMedia

/-!
# Flags on the way to the scripts

`install-os` and `S92radsat-boot-stamp` ask fram-service for one flag and pick a word out of what
`fram-get` prints.  What they get is the flag that the service has.
-/

namespace RadsatLinux.Services.FlagWords

open RadsatLinux.Fram.Memory RadsatLinux.UBoot.FramMission
open RadsatLinux.InstallOs.Commands RadsatLinux.InstallOs.Script
open RadsatLinux.InstallOs.RecordService RadsatLinux.InstallOs.CopySafety
open RadsatLinux.Init.RootMedia
open RadsatLinux.Services.Requests (Text)
open RadsatLinux.Services.Replies

/-! ## The reply for one flag -/

theorem all_inWord_of_isDigit {text : Text} (h : ∀ c ∈ text, c.isDigit = true) :
    text.all inWord = true := by
  refine List.all_eq_true.mpr fun c hc => ?_
  have hdigit := h c hc
  rw [inWord, Bool.not_eq_true', Bool.eq_false_iff]
  intro hspecial
  have hnone : ("\x7b\x7d,\":\\\n".toList.any Char.isDigit) = false := rfl
  exact Bool.false_ne_true (hnone.symm.trans
    (List.any_eq_true.mpr ⟨c, List.contains_iff_mem.mp hspecial, hdigit⟩))

def decimal (n : Nat) : Text := Nat.toDigits 10 n

theorem isDigit_of_mem_decimal {n : Nat} {c : Char} (h : c ∈ decimal n) : c.isDigit = true :=
  Nat.isDigit_of_mem_toDigits (by decide) (by decide) h

def naturalWord (n : Nat) : Word :=
  ⟨decimal n, all_inWord_of_isDigit fun _ => isDigit_of_mem_decimal⟩

def integerWord : Int → Word
  | .ofNat n => naturalWord n
  | .negSucc n => ⟨'-' :: decimal (n + 1), (naturalWord (n + 1)).plain⟩

def nullWord : Word := ⟨"null".toList, rfl⟩

def boolWord : Bool → Word
  | true => trueWord
  | false => ⟨"false".toList, rfl⟩

/-- What the service says of a flag.  Of the two values at most one is there. -/
structure Flag where
  name : Word
  keyId : Scalar
  valueType : Scalar
  present : Bool
  boolValue : Option Bool
  intValue : Option Int

def Flag.members (flag : Flag) : Members :=
  .node dataWord
    (.node ⟨"flag".toList, rfl⟩
      (.leaf ⟨"name".toList, rfl⟩ ⟨flag.name, true⟩
        (.leaf ⟨"keyId".toList, rfl⟩ flag.keyId
          (.leaf ⟨"valueType".toList, rfl⟩ flag.valueType
            (.leaf ⟨"present".toList, rfl⟩ ⟨boolWord flag.present, false⟩
              (.leaf ⟨"boolValue".toList, rfl⟩ ⟨flag.boolValue.elim nullWord boolWord, false⟩
                (.leaf ⟨"intValue".toList, rfl⟩ ⟨flag.intValue.elim nullWord integerWord, false⟩
                  .none))))))
      .none)
    .none

theorem Flag.no_errors (flag : Flag) : "errors".toList ∉ flag.members.keys := by
  have hkeys : flag.members.keys = ["data", "flag", "name", "keyId", "valueType", "present",
    "boolValue", "intValue"].map String.toList := rfl
  rw [hkeys]
  decide

theorem Flag.boolValue_word (flag : Flag) :
    awkField "boolValue".toList (framGetPrints (reply flag.members)) =
      some (flag.boolValue.elim nullWord boolWord).text :=
  (awkField_framGetPrints (by decide) flag.no_errors).trans rfl

theorem Flag.intValue_word (flag : Flag) :
    awkField "intValue".toList (framGetPrints (reply flag.members)) =
      some (flag.intValue.elim nullWord integerWord).text :=
  (awkField_framGetPrints (by decide) flag.no_errors).trans rfl

/-! ## `install-os` -/

/-- `fram_get_restore_offset`, with the lines of `fram-get` if there is that program. -/
def framGetRestoreOffsetWord (framGet : Option (List Text)) : Text :=
  let off := framGet.elim ['0'] fun lines => (awkField "intValue".toList lines).getD []
  if off = [] ∨ off.any (fun c => !c.isDigit) then ['0'] else off

theorem decimal_zero : decimal 0 = ['0'] := Nat.toDigits_zero 10

theorem decimal_digits (n : Nat) :
    ¬ (decimal n = [] ∨ (decimal n).any (fun c => !c.isDigit) = true) := by
  rw [not_or, Bool.not_eq_true, List.any_eq_false]
  refine ⟨Nat.toDigits_ne_nil, fun c hc => ?_⟩
  rw [isDigit_of_mem_decimal hc]
  exact Bool.false_ne_true

theorem framGetRestoreOffsetWord_flag (flag : Flag) :
    framGetRestoreOffsetWord (some (framGetPrints (reply flag.members))) =
      decimal (flag.intValue.getD 0).toNat := by
  rw [framGetRestoreOffsetWord, Option.elim_some, flag.intValue_word, Option.getD_some]
  cases flag.intValue with
  | none => exact decimal_zero.symm
  | some value =>
      cases value with
      | ofNat n => exact if_neg (decimal_digits n)
      | negSucc n =>
          have hminus : ('-' :: decimal (n + 1)).any (fun c => !c.isDigit) = true := rfl
          exact (if_pos (Or.inr hminus)).trans decimal_zero.symm

/-- The service tells the offset that it has. -/
structure TellsOffset (service : FramService) (flagOf : Chip → Flag) : Prop where
  intValue : ∀ chip, (flagOf chip).intValue =
    (service.flags chip).emmcRestoreOffset.map fun value => (value.toNat : Int)

/-- What `fram-get emmc_restore_offset` prints, if there is that program. -/
def framGetLines (s : System) (flagOf : Chip → Flag) : Option (List Text) :=
  if s.framGetExec then
    some (if s.serviceRunning && s.framGetAnswers then framGetPrints (reply (flagOf s.fram).members)
      else [])
  else none

/-- The word in the script is the flag in decimal, through the reply, `sed`, `awk` and the
shell. -/
theorem storedOffset_read {service : FramService} {flagOf : Chip → Flag}
    (h : TellsOffset service flagOf) (s : System) :
    framGetRestoreOffsetWord (framGetLines s flagOf) = decimal (storedOffset service s) := by
  unfold storedOffset framGetLines
  cases s.framGetExec with
  | false => exact decimal_zero.symm
  | true =>
      simp only [if_true, Bool.true_and]
      split
      · rw [framGetRestoreOffsetWord_flag, h.intValue]
        cases (service.flags s.fram).emmcRestoreOffset with
        | none => rfl
        | some value => rfl
      · exact decimal_zero.symm

/-- The service that keeps the records of U-Boot, answering for the offset. -/
def recordFlag (chip : Chip) : Flag where
  name := ⟨"emmc_restore_offset".toList, rfl⟩
  keyId := ⟨naturalWord framKeyEmmcRestoreOffset.toNat, false⟩
  valueType := ⟨⟨"U64".toList, rfl⟩, true⟩
  present := (recordService.flags chip).emmcRestoreOffset.isSome
  boolValue := none
  intValue := (recordService.flags chip).emmcRestoreOffset.map fun value => (value.toNat : Int)

def secondChunkStored : System :=
  let s := twoChunkSystem []
  { s with fram := recordService.store (.emmcRestoreOffset 8192) s.fram }

theorem storedOffset_read_secondChunk :
    framGetRestoreOffsetWord (framGetLines secondChunkStored recordFlag) =
      decimal (storedOffset recordService secondChunkStored) :=
  storedOffset_read ⟨fun _ => rfl⟩ secondChunkStored

/-! ## `S92radsat-boot-stamp` -/

/-- `NEED` -/
def need (u : Userspace) (flag : Flag) : Text :=
  (awkField "boolValue".toList
    (if u.framGetAnswers then framGetPrints (reply flag.members) else [])).getD []

/-- The word that the script compares with is the one for the flag. -/
theorem needWord_read {u : Userspace} {flag : Flag} (h : flag.boolValue = u.recoveryNeeded) :
    String.ofList (need u flag) = u.needWord := by
  unfold need Userspace.needWord
  split
  · rw [flag.boolValue_word, h]
    cases u.recoveryNeeded with
    | none => rfl
    | some needed => cases needed <;> rfl
  · rfl

/-- The latch, as the service tells it. -/
def recoveryFlag (needed : Bool) : Flag where
  name := ⟨"emmc_recovery_needed".toList, rfl⟩
  keyId := ⟨naturalWord framKeyEmmcRecoveryNeeded.toNat, false⟩
  valueType := ⟨⟨"BOOL".toList, rfl⟩, true⟩
  present := true
  boolValue := some needed
  intValue := none

example : need (cardBoard "/dev/mmcblk0p2") (recoveryFlag true) = "true".toList := by
  decide +kernel

end RadsatLinux.Services.FlagWords
