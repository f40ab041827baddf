import RadsatLinux.Env.Mram

/-!
# Where U-Boot takes its environment from

`env_relocate_spec` of `common/env_mram.c` with patches 0006, 0008, 0014 and 0016 applied:
SPI MRAM first, then `/uboot.env` on two EXT4 partitions, then the compiled-in defaults.
What the bytes of an environment mean is a parameter.
-/

namespace RadsatLinux.Env.Relocate

open RadsatLinux.Fram.Record RadsatLinux.Env.Mram

/-- What `env_import` makes of a blob: nothing when its CRC is wrong.  `defaults` is the
environment that `set_default_env` installs. -/
structure EnvFormat (Env : Type) where
  decode : List U8 → Option Env
  defaults : Env

/-- What there is of `/uboot.env` on a partition: no such partition, no file system that can
be mounted, no file that can be read, or the file. -/
inductive Ext4Part where
  | missing
  | unmounted
  | unreadable
  | file (blob : List U8)

/-- U-Boot with its environment, and what it boots on. -/
structure Uboot (Env : Type) where
  env : Env
  slave : Bool
  spi : Spi
  ext4 : String → Ext4Part

variable {Env : Type} (format : EnvFormat Env)

/-! ## The code -/

def configEnvMramOffset : U32 := 0x7d800
def configEnvSize : Nat := 0x2800
def configEnvMramChunk : ℕ+ := 64

def enodev : Int := 19
def eio : Int := 5

/-- 1 when the CRC of the blob is right, and 0 when it is not. -/
def envImport (buf : List U8) : StateM (Uboot Env) Int := do
  match format.decode buf with
  | some env =>
      modify fun u => { u with env := env }
      return 1
  | none =>
      modify fun u => { u with env := format.defaults }
      return 0

def envImportExt4One (devPart : String) : StateM (Uboot Env) Int := do
  match (← get).ext4 devPart with
  | .missing => return -enodev
  | .unmounted => return -enodev
  | .unreadable => return -eio
  | .file buf => envImport format buf

def ext4EnvDeviceAndPart : String := "0:3"

def parts : List String := [ext4EnvDeviceAndPart, "0:3", "1:3"]

/-- The loop of `env_import_ext4_fallback`. -/
def envImportExt4Parts : List String → StateM (Uboot Env) Int
  | [] => return -enodev
  | part :: rest => do
      let ret ← envImportExt4One format part
      if ret ≠ 0 then return 0
      envImportExt4Parts rest

def envImportExt4Fallback : StateM (Uboot Env) Int :=
  envImportExt4Parts format parts

def setDefaultEnv : StateM (Uboot Env) Unit :=
  modify fun u => { u with env := format.defaults }

/-- A transfer to or from the chip. -/
def onSpi {α : Type} (m : StateM Spi α) : StateM (Uboot Env) α := fun u =>
  ((m u.spi).1, { u with spi := (m u.spi).2 })

/-- What `env_relocate_spec` does when the chip has given no environment. -/
def relocateFromExt4 : StateM (Uboot Env) Unit := do
  if (← envImportExt4Fallback format) = 0 then return
  setDefaultEnv format

def envRelocateSpec : StateM (Uboot Env) Unit := do
  if (← get).slave then
    let (ret, buf) ← onSpi (mramRead configEnvMramChunk configEnvMramOffset configEnvSize)
    if ret = 0 then
      if (← envImport format buf) ≠ 0 then return
  relocateFromExt4 format

/-! ## Sources -/

/-- The chip answers, and no transfer of the read fails. -/
def MramReadable (u : Uboot Env) : Prop :=
  u.slave = true ∧ Made (xfersFor configEnvMramChunk configEnvSize) u.spi

instance (u : Uboot Env) : Decidable (MramReadable u) :=
  inferInstanceAs (Decidable (_ ∧ _))

/-- The environment region of the chip. -/
def mramBlob (mram : Nat → U8) : List U8 :=
  bytesAt mram configEnvMramOffset.toNat configEnvSize

def Ext4Part.blob : Ext4Part → Option (List U8)
  | .file blob => some blob
  | _ => none

/-- The blobs that can be read, in order. -/
def sources (u : Uboot Env) : List (Option (List U8)) :=
  [if MramReadable u then some (mramBlob u.spi.mram) else none,
    (u.ext4 "0:3").blob, (u.ext4 "1:3").blob]

/-- The first source that can be read and is valid, and the defaults when there is none. -/
def selected (u : Uboot Env) : Env :=
  ((sources u).findSome? fun source => source.bind format.decode).getD format.defaults

/-- What the second partition gives. -/
def secondPart (u : Uboot Env) : Env :=
  ((u.ext4 "1:3").blob.bind format.decode).getD format.defaults

def mramSource (u : Uboot Env) : Option Env :=
  if MramReadable u then format.decode (mramBlob u.spi.mram) else none

theorem selected_eq (u : Uboot Env) :
    selected format u = (mramSource format u).getD
      (((u.ext4 "0:3").blob.bind format.decode).getD (secondPart format u)) := by
  unfold selected sources mramSource secondPart
  by_cases hread : MramReadable u
  · rw [if_pos hread, if_pos hread]
    simp only [List.findSome?_cons, Option.bind_some, List.findSome?_nil]
    cases format.decode (mramBlob u.spi.mram) with
    | some env => rfl
    | none =>
        cases (u.ext4 "0:3").blob.bind format.decode with
        | some env => rfl
        | none => cases (u.ext4 "1:3").blob.bind format.decode <;> rfl
  · rw [if_neg hread, if_neg hread]
    simp only [List.findSome?_cons, Option.bind_none, List.findSome?_nil]
    cases (u.ext4 "0:3").blob.bind format.decode with
    | some env => rfl
    | none => cases (u.ext4 "1:3").blob.bind format.decode <;> rfl

/-! ## The fallback -/

variable {format}

theorem envImport_valid {buf : List U8} {env : Env} (u : Uboot Env)
    (h : format.decode buf = some env) :
    envImport format buf u = (1, { u with env := env }) := by
  unfold envImport
  rw [h]
  rfl

theorem envImport_invalid {buf : List U8} (u : Uboot Env) (h : format.decode buf = none) :
    envImport format buf u = (0, { u with env := format.defaults }) := by
  unfold envImport
  rw [h]
  rfl

theorem envImportExt4Parts_cons (part : String) (rest : List String) (u : Uboot Env) :
    envImportExt4Parts format (part :: rest) u =
      let r := envImportExt4One format part u
      if r.1 = 0 then envImportExt4Parts format rest r.2 else (0, r.2) := by
  rw [envImportExt4Parts]
  simp only [bind, StateT.bind]
  cases envImportExt4One format part u with
  | mk ret u' =>
      dsimp only
      by_cases hret : ret = 0
      · rw [if_neg (not_not.mpr hret), if_pos hret]
      · rw [if_pos hret, if_neg hret]
        rfl

theorem envImportExt4One_unread (format : EnvFormat Env) {part : String} {u : Uboot Env}
    (h : (u.ext4 part).blob = none) :
    ∃ ret, ret ≠ 0 ∧ envImportExt4One format part u = (ret, u) := by
  unfold envImportExt4One
  simp only [bind, StateT.bind, get, getThe, MonadStateOf.get, StateT.get, pure]
  cases hpart : u.ext4 part with
  | missing => exact ⟨-enodev, by decide, rfl⟩
  | unmounted => exact ⟨-enodev, by decide, rfl⟩
  | unreadable => exact ⟨-eio, by decide, rfl⟩
  | file blob =>
      rw [hpart] at h
      cases h

/-- A negative code counts as a success. -/
theorem envImportExt4Parts_unread {part : String} (rest : List String) {u : Uboot Env}
    (h : (u.ext4 part).blob = none) :
    envImportExt4Parts format (part :: rest) u = (0, u) := by
  obtain ⟨ret, hret, hone⟩ := envImportExt4One_unread format h
  rw [envImportExt4Parts_cons, hone]
  exact if_neg hret

theorem envImportExt4One_file {part : String} {u : Uboot Env} {buf : List U8}
    (h : (u.ext4 part).blob = some buf) :
    envImportExt4One format part u = envImport format buf u := by
  unfold envImportExt4One
  simp only [bind, StateT.bind, get, getThe, MonadStateOf.get, StateT.get, pure]
  cases hpart : u.ext4 part with
  | file blob =>
      rw [hpart] at h
      cases h
      rfl
  | missing => rw [hpart] at h; cases h
  | unmounted => rw [hpart] at h; cases h
  | unreadable => rw [hpart] at h; cases h

theorem envImportExt4Parts_valid {part : String} (rest : List String) {u : Uboot Env}
    {buf : List U8} {env : Env} (h : (u.ext4 part).blob = some buf)
    (hdecode : format.decode buf = some env) :
    envImportExt4Parts format (part :: rest) u = (0, { u with env := env }) := by
  rw [envImportExt4Parts_cons, envImportExt4One_file h, envImport_valid u hdecode]
  rfl

theorem envImportExt4Parts_invalid {part : String} (rest : List String) {u : Uboot Env}
    {buf : List U8} (h : (u.ext4 part).blob = some buf) (hdecode : format.decode buf = none) :
    envImportExt4Parts format (part :: rest) u =
      envImportExt4Parts format rest { u with env := format.defaults } := by
  rw [envImportExt4Parts_cons, envImportExt4One_file h, envImport_invalid u hdecode]
  rfl

/-- The environment after the fallback and the defaults. -/
def fallbackEnv (format : EnvFormat Env) (u : Uboot Env) : Env :=
  match (u.ext4 "0:3").blob with
  | none => u.env
  | some buf => (format.decode buf).getD (secondPart format u)

theorem relocateFromExt4_run (u : Uboot Env) :
    relocateFromExt4 format u =
      let r := envImportExt4Fallback format u
      if r.1 = 0 then ((), r.2) else setDefaultEnv format r.2 := by
  unfold relocateFromExt4
  simp only [bind, StateT.bind]
  cases envImportExt4Fallback format u with
  | mk ret u' =>
      dsimp only
      split <;> rfl

theorem relocateFromExt4_env (u : Uboot Env) :
    (relocateFromExt4 format u).2.env = fallbackEnv format u := by
  rw [relocateFromExt4_run]
  unfold envImportExt4Fallback parts ext4EnvDeviceAndPart fallbackEnv secondPart
  cases hfirst : (u.ext4 "0:3").blob with
  | none => rw [envImportExt4Parts_unread _ hfirst]; rfl
  | some buf =>
      cases hdecode : format.decode buf with
      | some env =>
          rw [envImportExt4Parts_valid _ hfirst hdecode]
          simp [hdecode]
      | none =>
          -- The first partition is tried twice.
          rw [envImportExt4Parts_invalid _ hfirst hdecode,
            envImportExt4Parts_invalid (u := { u with env := format.defaults }) _ hfirst hdecode]
          cases hsecond : (u.ext4 "1:3").blob with
          | none =>
              rw [envImportExt4Parts_unread (u := { u with env := format.defaults }) _ hsecond]
              simp [hdecode]
          | some buf' =>
              cases hdecode' : format.decode buf' with
              | some env =>
                  rw [envImportExt4Parts_valid (u := { u with env := format.defaults }) _ hsecond
                    hdecode']
                  simp [hdecode, hdecode']
              | none =>
                  rw [envImportExt4Parts_invalid (u := { u with env := format.defaults }) _
                    hsecond hdecode']
                  simp [hdecode, hdecode']
                  rfl

/-! ## The selection -/

/-- The environment when the fallback begins. -/
def leftByMram (format : EnvFormat Env) (u : Uboot Env) : Env :=
  if MramReadable u then format.defaults else u.env

theorem mramRead_env (spi : Spi) :
    let r := mramRead configEnvMramChunk configEnvMramOffset configEnvSize spi
    r.2.mram = spi.mram ∧ (r.1.1 = 0 ↔ Made (xfersFor configEnvMramChunk configEnvSize) spi) ∧
      (r.1.1 = 0 → r.1.2 = mramBlob spi.mram) :=
  mramRead_spec configEnvMramChunk spi (by decide)

theorem envRelocateSpec_run (u : Uboot Env) :
    envRelocateSpec format u =
      if u.slave = true then
        let r := mramRead configEnvMramChunk configEnvMramOffset configEnvSize u.spi
        if r.1.1 = 0 then
          let i := envImport format r.1.2 { u with spi := r.2 }
          if i.1 = 0 then relocateFromExt4 format i.2 else ((), i.2)
        else relocateFromExt4 format { u with spi := r.2 }
      else relocateFromExt4 format u := by
  unfold envRelocateSpec
  simp only [bind, StateT.bind, get, getThe, MonadStateOf.get, StateT.get, pure]
  by_cases hslave : u.slave = true
  · rw [if_pos hslave, if_pos hslave]
    dsimp only [bind, StateT.bind, onSpi]
    generalize mramRead configEnvMramChunk configEnvMramOffset configEnvSize u.spi = r
    by_cases hret : r.1.1 = 0
    · rw [if_pos hret, if_pos hret]
      dsimp only [bind, StateT.bind]
      generalize envImport format r.1.2 { u with spi := r.2 } = i
      rcases i with ⟨ret, u'⟩
      dsimp only
      by_cases himport : ret = 0
      · rw [if_neg (not_not.mpr himport), if_pos himport]
      · rw [if_pos himport, if_neg himport]
        rfl
    · rw [if_neg hret, if_neg hret]
  · rw [if_neg hslave, if_neg hslave]

theorem envRelocateSpec_env (u : Uboot Env) :
    (envRelocateSpec format u).2.env = (mramSource format u).getD
      (fallbackEnv format { u with env := leftByMram format u }) := by
  rw [envRelocateSpec_run]
  unfold mramSource leftByMram
  by_cases hslave : u.slave = true
  · rw [if_pos hslave]
    obtain ⟨-, hmade, hbytes⟩ := mramRead_env u.spi
    generalize mramRead configEnvMramChunk configEnvMramOffset configEnvSize u.spi = r
      at hmade hbytes ⊢
    rcases r with ⟨⟨ret, buf⟩, spi⟩
    dsimp only at hmade hbytes ⊢
    by_cases hret : ret = 0
    · have hread : MramReadable u := ⟨hslave, hmade.mp hret⟩
      rw [if_pos hret, if_pos hread, if_pos hread, hbytes hret]
      generalize mramBlob u.spi.mram = blob
      cases hdecode : format.decode blob with
      | some env =>
          rw [envImport_valid _ hdecode]
          rfl
      | none =>
          rw [envImport_invalid _ hdecode]
          exact relocateFromExt4_env _
    · have hread : ¬ MramReadable u := fun hread => hret (hmade.mpr hread.2)
      rw [if_neg hret, if_neg hread, if_neg hread]
      exact relocateFromExt4_env _
  · have hread : ¬ MramReadable u := fun hread => hslave hread.1
    rw [if_neg hslave, if_neg hread, if_neg hread]
    exact relocateFromExt4_env u

/-! ## The chip while U-Boot loads -/

theorem envImport_spi (buf : List U8) (u : Uboot Env) :
    (envImport format buf u).2.spi = u.spi := by
  cases hdecode : format.decode buf with
  | some env => rw [envImport_valid u hdecode]
  | none => rw [envImport_invalid u hdecode]

theorem envImportExt4Parts_spi (rest : List String) (u : Uboot Env) :
    (envImportExt4Parts format rest u).2.spi = u.spi := by
  induction rest generalizing u with
  | nil => rfl
  | cons part rest ih =>
      have hone : (envImportExt4One format part u).2.spi = u.spi := by
        cases hblob : (u.ext4 part).blob with
        | some buf =>
            rw [envImportExt4One_file hblob]
            exact envImport_spi buf u
        | none =>
            obtain ⟨ret, -, hone⟩ := envImportExt4One_unread format hblob
            rw [hone]
      rw [envImportExt4Parts_cons]
      dsimp only
      split
      · rw [ih, hone]
      · exact hone

theorem relocateFromExt4_spi (u : Uboot Env) :
    (relocateFromExt4 format u).2.spi = u.spi := by
  rw [relocateFromExt4_run]
  dsimp only
  split
  · exact envImportExt4Parts_spi _ u
  · exact envImportExt4Parts_spi _ u

theorem envRelocateSpec_mram (u : Uboot Env) :
    (envRelocateSpec format u).2.spi.mram = u.spi.mram := by
  obtain ⟨hmram, -⟩ := mramRead_env u.spi
  rw [envRelocateSpec_run]
  dsimp only
  split
  · split
    · split
      · rw [relocateFromExt4_spi, envImport_spi]
        exact hmram
      · rw [envImport_spi]
        exact hmram
    · rw [relocateFromExt4_spi]
      exact hmram
  · rw [relocateFromExt4_spi]

/-! ## When the selection holds -/

/-- When the selection is as documented: the chip gives an environment, or the first
partition has a file that can be read, or what it leaves in place without one happens to be
what the second partition gives. -/
inductive SelectionHolds (format : EnvFormat Env) (u : Uboot Env) : Prop where
  | mram (hread : MramReadable u)
      (hvalid : (format.decode (mramBlob u.spi.mram)).isSome = true)
  | firstPart (hread : (u.ext4 "0:3").blob.isSome = true)
  | defaults (hread : MramReadable u) (hsecond : secondPart format u = format.defaults)
  | kept (hread : ¬ MramReadable u) (hsecond : secondPart format u = u.env)

/-- `env_relocate_spec` leaves the first source that can be read and is valid, or the
defaults, in exactly these cases. -/
theorem envRelocateSpec_selects_iff (format : EnvFormat Env) (u : Uboot Env) :
    (envRelocateSpec format u).2.env = selected format u ↔ SelectionHolds format u := by
  rw [envRelocateSpec_env, selected_eq, fallbackEnv]
  cases hmram : mramSource format u with
  | some env =>
      refine ⟨fun _ => ?_, fun _ => rfl⟩
      unfold mramSource at hmram
      split at hmram
      · next hread => exact .mram hread (by rw [hmram]; rfl)
      · cases hmram
  | none =>
      cases hfirst : (u.ext4 "0:3").blob with
      | some buf =>
          refine ⟨fun _ => .firstPart (by rw [hfirst]; rfl), fun _ => rfl⟩
      | none =>
          change leftByMram format u = secondPart format u ↔ _
          unfold leftByMram
          by_cases hread : MramReadable u
          · rw [if_pos hread]
            refine ⟨fun heq => .defaults hread heq.symm, fun hholds => ?_⟩
            cases hholds with
            | mram _ hvalid =>
                rw [mramSource, if_pos hread] at hmram
                rw [hmram] at hvalid
                cases hvalid
            | firstPart hsome =>
                rw [hfirst] at hsome
                cases hsome
            | defaults _ hsecond => exact hsecond.symm
            | kept hunread => exact absurd hread hunread
          · rw [if_neg hread]
            refine ⟨fun heq => .kept hread heq.symm, fun hholds => ?_⟩
            cases hholds with
            | mram hread' => exact absurd hread' hread
            | firstPart hsome =>
                rw [hfirst] at hsome
                cases hsome
            | defaults hread' => exact absurd hread' hread
            | kept _ hsecond => exact hsecond.symm

/-! ## A boot without a card -/

def envText (env : List (String × String)) : List U8 :=
  env.flatMap fun var =>
    (var.1 ++ "=" ++ var.2).toList.map (fun c => BitVec.ofNat 8 c.toNat) ++ [0]

/-- The blob of an environment with this CRC. -/
def envBlob (crc : List U8) (env : List (String × String)) : List U8 :=
  crc ++ envText env ++ List.replicate (10236 - (envText env).length) 0

def triedOne : List (String × String) := [("kubos_curr_tried", "1")]
def triedZero : List (String × String) := [("kubos_curr_tried", "0")]
def verified : List (String × String) := [("kubos_curr_tried", "0"), ("bootcount", "0")]

/-- The CRCs of these environments. -/
def crcs : List (List U8 × List (String × String)) :=
  [([0xfb, 0xc6, 0x45, 0x91], triedOne), ([0x71, 0x11, 0x75, 0xb2], triedZero),
    ([0xd6, 0x45, 0xf0, 0xf0], verified)]

/-- Environments as lists of variables.  Of the blobs met here those with a right CRC are
told by it. -/
def triedFormat : EnvFormat (List (String × String)) where
  decode blob := (crcs.find? fun entry => entry.1 == blob.take 4).map Prod.snd
  defaults := []

/-- `env_export`, for these environments. -/
def triedExport (env : List (String × String)) : Option (List U8) :=
  (crcs.find? fun entry => entry.2 == env).map fun entry => envBlob entry.1 env

/-- The chip does not answer, there is no card, and the eMMC has a valid file. -/
def emmcOnly : Uboot (List (String × String)) where
  env := []
  slave := false
  spi := ⟨fun _ => 0xff, false, []⟩
  ext4 part := if part = "1:3" then .file ((triedExport triedZero).getD []) else .missing

/-- The file on the eMMC is not looked at. -/
theorem envRelocateSpec_skips_secondPart :
    (envRelocateSpec triedFormat emmcOnly).2.env = [] ∧
      selected triedFormat emmcOnly = triedZero := by
  decide +kernel

end RadsatLinux.Env.Relocate
