import RadsatLinux.Env.Relocate

/-!
# The environment over many boots

There are two copies of the environment: U-Boot writes the one in MRAM, and prefers it when
it boots; `fw_setenv` writes the file under /envar, which `S79mram-env-sync` overwrites with
a valid MRAM copy at every start of Linux.  An assignment by `fw_setenv` lasts where the
MRAM copy does not contradict it and U-Boot reads the file that was written.
-/

namespace RadsatLinux.Env.History

open RadsatLinux.Fram.Record RadsatLinux.Env.Mram RadsatLinux.Env.Relocate

/-- Environments as variables; to set a variable to `none` is to delete it.  `exportEnv`
fails when an environment does not fit, and `fwDefaults` is what `fw_setenv` starts from
when the file has no valid one. -/
structure VarFormat (Env : Type) extends EnvFormat Env where
  get : Env → String → Option String
  set : String → Option String → Env → Env
  exportEnv : Env → Option (List U8)
  fwDefaults : Env
  get_set_same : ∀ name value env, get (set name value env) name = value
  get_set_other : ∀ {name other} value env, other ≠ name →
    get (set name value env) other = get env other
  export_length : ∀ {env blob}, exportEnv env = some blob → blob.length = configEnvSize
  decode_export : ∀ {env blob}, exportEnv env = some blob → decode blob = some env
  decode_nil : decode [] = none

/-- What outlasts a boot: the chip, and `/uboot.env` on each partition. -/
structure Stores where
  mram : Nat → U8
  file : String → List U8

inductive Access where
  | missing
  | unmounted
  | unreadable
  | readable

def Access.part : Access → List U8 → Ext4Part
  | .missing, _ => .missing
  | .unmounted, _ => .unmounted
  | .unreadable, _ => .unreadable
  | .readable, blob => .file blob

theorem Access.part_blob {access : Access} {blob buf : List U8}
    (h : (access.part blob).blob = some buf) : buf = blob := by
  cases access with
  | readable => exact (Option.some.inj h).symm
  | missing => cases h
  | unmounted => cases h
  | unreadable => cases h

/-- What a boot finds besides. -/
structure BootUp (Env : Type) where
  env : Env
  slave : Bool
  wel : Bool
  xfers : List XferEvent
  access : String → Access

variable {Env : Type}

def BootUp.uboot (up : BootUp Env) (stores : Stores) : Uboot Env where
  env := up.env
  slave := up.slave
  spi := ⟨stores.mram, up.wel, up.xfers⟩
  ext4 part := (up.access part).part (stores.file part)

section Code

variable (format : VarFormat Env)

/-! ## U-Boot -/

def saveenv : StateM (Uboot Env) Int := do
  match format.exportEnv (← get).env with
  | none => return 1
  | some envNew =>
      if !(← get).slave then return 1
      if (← onSpi (mramWrite configEnvMramChunk configEnvMramOffset envNew)) ≠ 0 then return 1
      return 0

inductive UbootCommand where
  | setenv (name : String) (value : Option String)
  | saveenv
  deriving DecidableEq

def UbootCommand.run : UbootCommand → StateM (Uboot Env) Unit
  | .setenv name value => modify fun u => { u with env := format.set name value u.env }
  | .saveenv => do
      let _ ← History.saveenv format
      return ()

def runCommands : List UbootCommand → StateM (Uboot Env) Unit
  | [] => return ()
  | command :: rest => do
      command.run format
      runCommands rest

/-- U-Boot with the environment that it loads. -/
def loaded (up : BootUp Env) (stores : Stores) : Uboot Env :=
  (envRelocateSpec format.toEnvFormat (up.uboot stores)).2

def boot (up : BootUp Env) (commands : List UbootCommand) (stores : Stores) : Stores :=
  { stores with mram := (runCommands format commands (loaded format up stores)).2.spi.mram }

/-! ## Linux -/

def writeFile (part : String) (blob : List U8) (stores : Stores) : Stores :=
  { stores with file := fun other => if other = part then blob else stores.file other }

/-- `S02uboot-env start`, with the file on partition `envar`. -/
def ubootEnv (envar : String) (stores : Stores) : Stores :=
  if stores.file envar = [] then writeFile envar (List.replicate configEnvSize 0) stores
  else stores

/-- `S79mram-env-sync start`: a valid MRAM copy that can be read replaces the file. -/
def mramEnvSync (envar : String) (readable : Bool) (stores : Stores) : Stores :=
  if readable && (format.decode (mramBlob stores.mram)).isSome then
    writeFile envar (mramBlob stores.mram) stores
  else stores

/-- The blob that `fw_setenv` writes, if the environment fits. -/
def fwBlob (envar name : String) (value : Option String) (stores : Stores) :
    Option (List U8) :=
  format.exportEnv
    (format.set name value ((format.decode (stores.file envar)).getD format.fwDefaults))

/-- `fw_setenv name value`, when it completes. -/
def fwSetenv (envar name : String) (value : Option String) (stores : Stores) :
    Option Stores :=
  (fwBlob format envar name value stores).map fun blob => writeFile envar blob stores

/-- `S99kubos-verify`, when it completes. -/
def kubosVerify (envar : String) (stores : Stores) : Option Stores := do
  let stores ← fwSetenv format envar "kubos_curr_tried" (some "0") stores
  fwSetenv format envar "bootcount" (some "0") stores

/-- What happens between one state of the stores and the next.  An interrupted `fw_setenv`
leaves something in the file. -/
inductive Event (Env : Type) where
  | boot (up : BootUp Env) (commands : List UbootCommand)
  | ubootEnv
  | mramEnvSync (readable : Bool)
  | fwSetenv (name : String) (value : Option String)
  | fwSetenvCut (name : String) (value : Option String) (left : List U8)

def Event.apply (envar : String) : Event Env → Stores → Stores
  | .boot up commands, stores => History.boot format up commands stores
  | .ubootEnv, stores => History.ubootEnv envar stores
  | .mramEnvSync readable, stores => History.mramEnvSync format envar readable stores
  | .fwSetenv name value, stores =>
      (History.fwSetenv format envar name value stores).getD stores
  | .fwSetenvCut _ _ left, stores => writeFile envar left stores

def history (envar : String) (events : List (Event Env)) (stores : Stores) : Stores :=
  events.foldl (fun stores event => event.apply format envar stores) stores

/-- A boot without commands, and what Linux runs before user programs. -/
def startup (up : BootUp Env) : List (Event Env) :=
  [.boot up [], .ubootEnv, .mramEnvSync true]

end Code

/-! ## Conditions -/

/-- The event assigns the variable, or begins to. -/
def Event.Assigns (name : String) : Event Env → Prop
  | .boot _ commands => ∃ value, UbootCommand.setenv name value ∈ commands
  | .ubootEnv => False
  | .mramEnvSync _ => False
  | .fwSetenv other _ => other = name
  | .fwSetenvCut other _ _ => other = name

section Conditions

variable (format : VarFormat Env) (envar name : String) (value : Option String)

/-- The blob is valid, and the variable is something else in it. -/
def Shadows (blob : List U8) : Prop :=
  ∃ env, format.decode blob = some env ∧ format.get env name ≠ value

/-- U-Boot gets its environment from the MRAM, or from the file that `fw_setenv` writes. -/
inductive LoadReaches (u : Uboot Env) : Prop where
  | mram (hread : MramReadable u)
      (hvalid : (format.decode (mramBlob u.spi.mram)).isSome = true)
  | firstPart (hpart : envar = "0:3") (hread : (u.ext4 "0:3").blob.isSome = true)
  | secondPart (hpart : envar = "1:3")
      (hfirst : ∃ buf, (u.ext4 "0:3").blob = some buf ∧ format.decode buf = none)
      (hread : (u.ext4 "1:3").blob.isSome = true)

/-- Where a save breaks off, its CRC does not match, or nothing has changed yet, or nothing
was left to change. -/
def TornDetected (old new : List U8) : Prop :=
  ∀ k, format.decode (new.take k ++ old.drop k) = none ∨
    new.take k ++ old.drop k = old ∨ new.take k ++ old.drop k = new

/-- A save from here completes, or one that breaks off is detected. -/
def SaveSafe (u : Uboot Env) : Prop :=
  ∀ blob, format.exportEnv u.env = some blob →
    Made (2 * xfersFor configEnvMramChunk configEnvSize) u.spi ∨
      TornDetected format (mramBlob u.spi.mram) blob

def SavesSafe : List UbootCommand → Uboot Env → Prop
  | [], _ => True
  | command :: rest, u =>
      (command = .saveenv → SaveSafe format u) ∧ SavesSafe rest (command.run format u).2

/-- What an event must find so that no assignment is lost.  Only a boot that saves matters,
and only where the MRAM copy is read. -/
def Event.Meets : Event Env → Stores → Prop
  | .boot up commands, stores =>
      UbootCommand.saveenv ∈ commands →
        LoadReaches format envar (up.uboot stores) ∧
          (MramReadable (up.uboot stores) →
            ¬ Shadows format name value (mramBlob stores.mram)) ∧
          SavesSafe format commands (loaded format up stores)
  | .ubootEnv, _ => True
  | .mramEnvSync readable, stores =>
      readable = true → ¬ Shadows format name value (mramBlob stores.mram)
  | .fwSetenv _ _, _ => True
  | .fwSetenvCut other value' left, stores =>
      left = stores.file envar ∨ fwBlob format envar other value' stores = some left

/-- A step of a history in which the variable is not assigned again. -/
def Step (stores stores' : Stores) : Prop :=
  ∃ event : Event Env, ¬ event.Assigns name ∧ event.Meets format envar name value stores ∧
    stores' = event.apply format envar stores

/-- The blob is valid, and the variable has the value in it. -/
def Holds (blob : List U8) : Prop :=
  ∃ env, format.decode blob = some env ∧ format.get env name = value

end Conditions

variable {format : VarFormat Env} {envar name : String} {value : Option String}

theorem writeFile_same (part : String) (blob : List U8) (stores : Stores) :
    (writeFile part blob stores).file part = blob :=
  if_pos rfl

/-! ## Loading -/

theorem loaded_mram (up : BootUp Env) (stores : Stores) :
    (loaded format up stores).spi.mram = stores.mram :=
  envRelocateSpec_mram (up.uboot stores)

theorem loaded_env_mram {up : BootUp Env} {stores : Stores} {env : Env}
    (hread : MramReadable (up.uboot stores))
    (hdecode : format.decode (mramBlob stores.mram) = some env) :
    (loaded format up stores).env = env := by
  unfold loaded
  rw [envRelocateSpec_env, mramSource, if_pos hread]
  exact congrArg (Option.getD · _) hdecode

theorem boot_nil (up : BootUp Env) (stores : Stores) :
    boot format up [] stores = stores := by
  unfold boot
  exact congrArg (Stores.mk · stores.file) (loaded_mram up stores)

theorem ubootEnv_mram (envar : String) (stores : Stores) :
    (ubootEnv envar stores).mram = stores.mram := by
  unfold ubootEnv
  split <;> rfl

theorem mramEnvSync_valid {stores : Stores} {env : Env}
    (hdecode : format.decode (mramBlob stores.mram) = some env) :
    mramEnvSync format envar true stores = writeFile envar (mramBlob stores.mram) stores := by
  unfold mramEnvSync
  rw [hdecode]
  rfl

theorem history_startup (up : BootUp Env) (stores : Stores) :
    history format envar (startup up) stores =
      mramEnvSync format envar true (ubootEnv envar stores) := by
  change mramEnvSync format envar true (ubootEnv envar (boot format up [] stores)) = _
  rw [boot_nil]

/-- The fallback takes the file that `fw_setenv` writes. -/
theorem fallbackEnv_file {up : BootUp Env} {stores : Stores} {env left : Env}
    (hdecode : format.decode (stores.file envar) = some env)
    (hload : LoadReaches format envar (up.uboot stores))
    (hclear : MramReadable (up.uboot stores) → format.decode (mramBlob stores.mram) = none) :
    fallbackEnv format.toEnvFormat { up.uboot stores with env := left } = env := by
  unfold fallbackEnv secondPart
  cases hload with
  | mram hread hvalid =>
      have hnone : format.decode (mramBlob (up.uboot stores).spi.mram) = none := hclear hread
      rw [hnone] at hvalid
      cases hvalid
  | firstPart hpart hread =>
      obtain ⟨buf, hbuf⟩ := Option.isSome_iff_exists.mp hread
      cases Access.part_blob hbuf
      subst hpart
      dsimp only
      rw [hbuf]
      simp [hdecode]
  | secondPart hpart hfirst hread =>
      obtain ⟨buf, hbuf⟩ := Option.isSome_iff_exists.mp hread
      rcases hfirst with ⟨buf', hbuf', hinvalid⟩
      cases Access.part_blob hbuf
      subst hpart
      dsimp only
      rw [hbuf', hbuf]
      simp [hinvalid, hdecode]

/-- While the file has the value, U-Boot loads it where no MRAM copy that it reads shadows
the file. -/
theorem loaded_get_iff {up : BootUp Env} {stores : Stores}
    (hfile : Holds format name value (stores.file envar))
    (hload : LoadReaches format envar (up.uboot stores)) :
    format.get (loaded format up stores).env name = value ↔
      (MramReadable (up.uboot stores) →
        ¬ Shadows format name value (mramBlob stores.mram)) := by
  rcases hfile with ⟨env, hdecode, hget⟩
  by_cases hmram : MramReadable (up.uboot stores) ∧
      (format.decode (mramBlob stores.mram)).isSome = true
  · rcases hmram with ⟨hread, hsome⟩
    obtain ⟨env', hdecode'⟩ := Option.isSome_iff_exists.mp hsome
    rw [loaded_env_mram hread hdecode']
    constructor
    · rintro hvalue - ⟨other, hother, hne⟩
      cases hdecode'.symm.trans hother
      exact hne hvalue
    · intro h
      by_contra hne
      exact h hread ⟨env', hdecode', hne⟩
  · have hclear (hread : MramReadable (up.uboot stores)) :
        format.decode (mramBlob stores.mram) = none :=
      Option.not_isSome_iff_eq_none.mp fun hsome => hmram ⟨hread, hsome⟩
    have hsource : mramSource format.toEnvFormat (up.uboot stores) = none := by
      unfold mramSource
      split
      · next hread => exact hclear hread
      · rfl
    constructor
    · rintro - hread ⟨other, hother, -⟩
      cases (hclear hread).symm.trans hother
    · intro _
      rw [loaded, envRelocateSpec_env, hsource, Option.getD_none,
        fallbackEnv_file hdecode hload hclear]
      exact hget

/-! ## Saving -/

theorem not_shadows_export {env : Env} {blob : List U8}
    (hexport : format.exportEnv env = some blob) (hget : format.get env name = value) :
    ¬ Shadows format name value blob := by
  rintro ⟨other, hother, hne⟩
  rw [format.decode_export hexport] at hother
  cases hother
  exact hne hget

theorem not_shadows_invalid {blob : List U8} (hdecode : format.decode blob = none) :
    ¬ Shadows format name value blob := by
  rintro ⟨other, hother, -⟩
  rw [hdecode] at hother
  cases hother

theorem mramBlob_storeAt (mram : Nat → U8) {blob : List U8} (k : Nat)
    (hlength : blob.length = configEnvSize) :
    mramBlob (storeAt mram configEnvMramOffset.toNat (blob.take k)) =
      blob.take k ++ (mramBlob mram).drop k := by
  unfold mramBlob
  rw [← hlength]
  exact bytesAt_storeAt_take mram _ blob k

theorem saveenv_run {u : Uboot Env} {blob : List U8}
    (hexport : format.exportEnv u.env = some blob) :
    saveenv format u =
      if u.slave = true then
        let r := mramWrite configEnvMramChunk configEnvMramOffset blob u.spi
        (if r.1 = 0 then 0 else 1, { u with spi := r.2 })
      else (1, u) := by
  rcases u with ⟨env, slave, spi, ext4⟩
  unfold saveenv
  simp only [bind, StateT.bind, get, getThe, MonadStateOf.get, StateT.get, pure]
  dsimp only at hexport ⊢
  rw [hexport]
  cases slave with
  | false => rfl
  | true =>
      rw [if_pos rfl]
      dsimp only [bind, StateT.bind, StateT.get, pure]
      rw [if_neg (by decide)]
      dsimp only [bind, StateT.bind, onSpi]
      generalize mramWrite configEnvMramChunk configEnvMramOffset blob spi = r
      by_cases hret : r.1 = 0
      · rw [if_neg (not_not.mpr hret), if_pos hret]
        rfl
      · rw [if_pos hret, if_neg hret]
        rfl

/-- `saveenv` leaves the environment, and MRAM with a first part of the new copy over the
old one: all of it when no transfer fails. -/
theorem saveenv_spec (format : VarFormat Env) (u : Uboot Env) :
    let r := saveenv format u
    r.2.env = u.env ∧ (r.2.spi.mram = u.spi.mram ∨
      ∃ blob k, format.exportEnv u.env = some blob ∧
        mramBlob r.2.spi.mram = blob.take k ++ (mramBlob u.spi.mram).drop k ∧
        (Made (2 * xfersFor configEnvMramChunk configEnvSize) u.spi → blob.length ≤ k)) := by
  cases hexport : format.exportEnv u.env with
  | none =>
      have hrun : saveenv format u = (1, u) := by
        unfold saveenv
        simp only [bind, StateT.bind, get, getThe, MonadStateOf.get, StateT.get, pure]
        rw [hexport]
        rfl
      rw [hrun]
      exact ⟨rfl, Or.inl rfl⟩
  | some blob =>
      have hlength := format.export_length hexport
      rw [saveenv_run hexport]
      dsimp only
      split
      · have hfit : configEnvMramOffset.toNat + blob.length ≤ 2 ^ 24 := by
          rw [hlength]
          decide
        obtain ⟨hmade, k, hmram, hall⟩ := mramWrite_spec configEnvMramChunk u.spi hfit
        rw [hlength] at hmade
        refine ⟨rfl, Or.inr ⟨blob, k, rfl, ?_, fun h => hall (hmade.mpr h)⟩⟩
        rw [hmram]
        exact mramBlob_storeAt _ _ hlength
      · exact ⟨rfl, Or.inl rfl⟩

theorem saveenv_clear {u : Uboot Env} (hsafe : SaveSafe format u)
    (hget : format.get u.env name = value)
    (hclear : ¬ Shadows format name value (mramBlob u.spi.mram)) :
    ¬ Shadows format name value (mramBlob (saveenv format u).2.spi.mram) := by
  rcases saveenv_spec format u with ⟨-, hmram | ⟨blob, k, hexport, hblob, hall⟩⟩
  · rw [hmram]
    exact hclear
  · have hnew : ¬ Shadows format name value blob := not_shadows_export hexport hget
    rw [hblob]
    cases hsafe blob hexport with
    | inl hmade =>
        have hold : (mramBlob u.spi.mram).length = blob.length := by
          rw [format.export_length hexport]
          exact length_bytesAt _ _ _
        rw [List.take_of_length_le (hall hmade),
          List.drop_of_length_le (by rw [hold]; exact hall hmade), List.append_nil]
        exact hnew
    | inr htorn =>
        rcases htorn k with hinvalid | hold | hall
        · exact not_shadows_invalid hinvalid
        · rw [hold]
          exact hclear
        · rw [hall]
          exact hnew

/-- U-Boot's environment has the value, and no MRAM copy shadows it. -/
structure Settled (format : VarFormat Env) (name : String) (value : Option String)
    (u : Uboot Env) : Prop where
  get : format.get u.env name = value
  clear : ¬ Shadows format name value (mramBlob u.spi.mram)

theorem Settled.run {command : UbootCommand} {u : Uboot Env}
    (h : Settled format name value u) (hname : ∀ other, command ≠ .setenv name other)
    (hsafe : command = .saveenv → SaveSafe format u) :
    Settled format name value (command.run format u).2 := by
  cases command with
  | setenv other value' =>
      have hne : name ≠ other := fun heq => hname value' (heq ▸ rfl)
      exact ⟨(format.get_set_other value' u.env hne).trans h.get, h.clear⟩
  | saveenv =>
      have henv : (saveenv format u).2.env = u.env := (saveenv_spec format u).1
      refine ⟨?_, saveenv_clear (hsafe rfl) h.get h.clear⟩
      exact (congrArg (format.get · name) henv).trans h.get

theorem Settled.runCommands {commands : List UbootCommand} {u : Uboot Env}
    (h : Settled format name value u)
    (hname : ∀ other, UbootCommand.setenv name other ∉ commands)
    (hsafe : SavesSafe format commands u) :
    Settled format name value (History.runCommands format commands u).2 := by
  induction commands generalizing u with
  | nil => exact h
  | cons command rest ih =>
      refine ih (h.run (fun other heq => ?_) hsafe.1) (fun other hmem => ?_) hsafe.2
      · exact hname other (heq ▸ List.mem_cons_self)
      · exact hname other (List.mem_cons_of_mem _ hmem)

theorem runCommands_unsaved {commands : List UbootCommand}
    (hsave : UbootCommand.saveenv ∉ commands) (u : Uboot Env) :
    (runCommands format commands u).2.spi = u.spi := by
  induction commands generalizing u with
  | nil => rfl
  | cons command rest ih =>
      rw [List.mem_cons, not_or] at hsave
      cases command with
      | setenv other value' => exact ih hsave.2 _
      | saveenv => exact absurd rfl hsave.1

/-! ## Steps -/

/-- Each event keeps the value in the file. -/
theorem Step.file {stores stores' : Stores} (hstep : Step format envar name value stores stores')
    (hfile : Holds format name value (stores.file envar)) :
    Holds format name value (stores'.file envar) := by
  rcases hstep with ⟨event, hassigns, hmeets, rfl⟩
  have hwritten {other : String} {value' : Option String} {blob : List U8} (hne : other ≠ name)
      (hblob : fwBlob format envar other value' stores = some blob) :
      Holds format name value blob := by
    rcases hfile with ⟨env, hdecode, hget⟩
    rw [fwBlob, hdecode, Option.getD_some] at hblob
    exact ⟨_, format.decode_export hblob,
      (format.get_set_other value' env (Ne.symm hne)).trans hget⟩
  cases event with
  | boot up commands => exact hfile
  | ubootEnv =>
      have hne : stores.file envar ≠ [] := by
        rcases hfile with ⟨env, hdecode, -⟩
        intro hnil
        rw [hnil, format.decode_nil] at hdecode
        cases hdecode
      rw [Event.apply, History.ubootEnv, if_neg hne]
      exact hfile
  | mramEnvSync readable =>
      rw [Event.apply, History.mramEnvSync]
      split
      · next hsync =>
          rw [Bool.and_eq_true] at hsync
          obtain ⟨env, hdecode⟩ := Option.isSome_iff_exists.mp hsync.2
          rw [writeFile_same]
          refine ⟨env, hdecode, ?_⟩
          by_contra hne
          exact hmeets hsync.1 ⟨env, hdecode, hne⟩
      · exact hfile
  | fwSetenv other value' =>
      rw [Event.apply, History.fwSetenv]
      cases hblob : fwBlob format envar other value' stores with
      | none => exact hfile
      | some blob =>
          rw [Option.map_some, Option.getD_some, writeFile_same]
          exact hwritten hassigns hblob
  | fwSetenvCut other value' left =>
      rw [Event.apply, writeFile_same]
      cases hmeets with
      | inl hold => rw [hold]; exact hfile
      | inr hnew => exact hwritten hassigns hnew

/-- Each event keeps a chip that does not shadow the file. -/
theorem Step.clear {stores stores' : Stores}
    (hstep : Step format envar name value stores stores')
    (hfile : Holds format name value (stores.file envar))
    (hclear : ¬ Shadows format name value (mramBlob stores.mram)) :
    ¬ Shadows format name value (mramBlob stores'.mram) := by
  rcases hstep with ⟨event, hassigns, hmeets, rfl⟩
  cases event with
  | boot up commands =>
      have hmram : (loaded format up stores).spi.mram = stores.mram := loaded_mram up stores
      dsimp only [Event.apply, History.boot]
      by_cases hsave : UbootCommand.saveenv ∈ commands
      · obtain ⟨hload, hunshadowed, hsafe⟩ := hmeets hsave
        have hsettled : Settled format name value (loaded format up stores) :=
          ⟨(loaded_get_iff hfile hload).mpr hunshadowed, by rw [hmram]; exact hclear⟩
        refine (hsettled.runCommands (fun other hmem => ?_) hsafe).clear
        exact hassigns ⟨other, hmem⟩
      · rw [runCommands_unsaved hsave, hmram]
        exact hclear
  | ubootEnv =>
      dsimp only [Event.apply, History.ubootEnv]
      split <;> exact hclear
  | mramEnvSync readable =>
      dsimp only [Event.apply, History.mramEnvSync]
      split <;> exact hclear
  | fwSetenv other value' =>
      dsimp only [Event.apply, History.fwSetenv]
      cases fwBlob format envar other value' stores with
      | none => exact hclear
      | some blob => exact hclear
  | fwSetenvCut other value' left => exact hclear

/-! ## Histories -/

theorem history_file {s s' : Stores}
    (hrun : Relation.ReflTransGen (Step format envar name value) s s')
    (hfile : Holds format name value (s.file envar)) :
    Holds format name value (s'.file envar) := by
  induction hrun with
  | refl => exact hfile
  | tail _ hstep ih => exact hstep.file ih

theorem history_clear {s s' : Stores}
    (hrun : Relation.ReflTransGen (Step format envar name value) s s')
    (hfile : Holds format name value (s.file envar))
    (hclear : ¬ Shadows format name value (mramBlob s.mram)) :
    ¬ Shadows format name value (mramBlob s'.mram) := by
  induction hrun with
  | refl => exact hclear
  | tail hrun hstep ih => exact hstep.clear (history_file hrun hfile) ih

theorem fwSetenv_holds {s₀ s₁ : Stores}
    (hset : fwSetenv format envar name value s₀ = some s₁) :
    Holds format name value (s₁.file envar) ∧ s₁.mram = s₀.mram := by
  obtain ⟨blob, hblob, rfl⟩ := Option.map_eq_some_iff.mp hset
  rw [writeFile_same]
  exact ⟨⟨_, format.decode_export hblob, format.get_set_same _ _ _⟩, rfl⟩

/-- After a `fw_setenv` that completes, in any history of boots in which the variable is not
assigned again: an MRAM copy that did not shadow the file does not come to, and U-Boot loads
the value unless it reads an MRAM copy that does. -/
theorem fwSetenv_survives_iff (format : VarFormat Env) {envar name : String}
    {value : Option String} {s₀ s₁ s : Stores} (up : BootUp Env)
    (hset : fwSetenv format envar name value s₀ = some s₁)
    (hrun : Relation.ReflTransGen (Step format envar name value) s₁ s)
    (hload : LoadReaches format envar (up.uboot s)) :
    (¬ Shadows format name value (mramBlob s₀.mram) →
      ¬ Shadows format name value (mramBlob s.mram)) ∧
    (format.get (loaded format up s).env name = value ↔
      (MramReadable (up.uboot s) → ¬ Shadows format name value (mramBlob s.mram))) := by
  obtain ⟨hfile, hmram⟩ := fwSetenv_holds hset
  refine ⟨fun hclear => ?_, loaded_get_iff (history_file hrun hfile) hload⟩
  rw [← hmram] at hclear
  exact history_clear hrun hfile hclear

/-! ## A first boot -/

theorem crcs_spec : ∀ entry ∈ crcs, entry.1.length = 4 ∧ (envText entry.2).length ≤ 10236 ∧
    (crcs.find? fun other => other.1 == entry.1) = some entry := by
  decide

theorem triedExport_spec {env : List (String × String)} {blob : List U8}
    (h : triedExport env = some blob) : ∃ entry ∈ crcs, entry.2 = env ∧
      blob = envBlob entry.1 env := by
  obtain ⟨entry, hfind, rfl⟩ := Option.map_eq_some_iff.mp h
  have heq := List.find?_some hfind
  exact ⟨entry, List.mem_of_find?_eq_some hfind, eq_of_beq heq, rfl⟩

/-- The variables of these environments. -/
def triedVars : VarFormat (List (String × String)) where
  toEnvFormat := triedFormat
  get env name := (env.find? fun var => var.1 == name).map Prod.snd
  set name value env :=
    env.filter (fun var => var.1 != name) ++ (value.map fun text => (name, text)).toList
  exportEnv := triedExport
  fwDefaults := []
  get_set_same name value env := by
    have hnone : (env.filter fun var => var.1 != name).find? (fun var => var.1 == name) =
        none := by
      simp
    rw [List.find?_append, hnone]
    cases value <;> simp
  get_set_other := by
    intro name other value env hne
    have hrest : ((value.map fun text => (name, text)).toList).find?
        (fun var => var.1 == other) = none := by
      cases value <;> simp [Ne.symm hne]
    rw [List.find?_append, hrest, Option.or_none, List.find?_filter]
    congr 2
    funext var
    by_cases hvar : var.1 = other
    · simp [hvar, hne]
    · simp [hvar]
  export_length := by
    intro env blob h
    obtain ⟨entry, hmem, rfl, rfl⟩ := triedExport_spec h
    obtain ⟨hcrc, htext, -⟩ := crcs_spec entry hmem
    simp only [envBlob, List.length_append, List.length_replicate, hcrc, configEnvSize]
    omega
  decode_export := by
    intro env blob h
    obtain ⟨entry, hmem, rfl, rfl⟩ := triedExport_spec h
    obtain ⟨hcrc, -, hfind⟩ := crcs_spec entry hmem
    have htake : (envBlob entry.1 entry.2).take 4 = entry.1 := by
      rw [envBlob, List.append_assoc, List.take_append_of_le_length (by omega),
        List.take_of_length_le (by omega)]
    simp only [triedFormat, htake, hfind, Option.map_some]
  decode_nil := by decide

theorem decode_eq (blob : List U8) : triedVars.decode blob =
    (crcs.find? fun entry => entry.1 == blob.take 4).map Prod.snd :=
  rfl

def blobOne : List U8 := envBlob [0xfb, 0xc6, 0x45, 0x91] triedOne
def blobZero : List U8 := envBlob [0x71, 0x11, 0x75, 0xb2] triedZero
def blobVerified : List U8 := envBlob [0xd6, 0x45, 0xf0, 0xf0] verified

theorem exportEnv_one : triedVars.exportEnv triedOne = some blobOne := by rfl

theorem exportEnv_zero : triedVars.exportEnv triedZero = some blobZero := by rfl

theorem exportEnv_verified : triedVars.exportEnv verified = some blobVerified := by rfl

/-- U-Boot with the chip, and with one partition that has a file. -/
def bootFrom (part : String) : BootUp (List (String × String)) where
  env := []
  slave := true
  wel := false
  xfers := []
  access other := if other = part then .readable else .missing

theorem mramReadable_bootFrom (part : String) (stores : Stores) :
    MramReadable ((bootFrom part).uboot stores) :=
  ⟨rfl, by simp [Made, BootUp.uboot, bootFrom]⟩

/-- A saved copy that says 1, and no file yet. -/
def saved : Stores where
  mram := storeAt (fun _ => 0xff) configEnvMramOffset.toNat blobOne
  file _ := []

theorem mramBlob_saved : mramBlob saved.mram = blobOne := by
  have hlength : blobOne.length = configEnvSize := triedVars.export_length exportEnv_one
  unfold mramBlob saved
  rw [bytesAt_storeAt _ _ (Nat.le_of_eq hlength), hlength,
    List.drop_of_length_le (Nat.le_of_eq (length_bytesAt _ _ _)), List.append_nil]

theorem fwSetenv_eq {stores : Stores} (env : Env) {blob : List U8}
    (hdecode : format.decode (stores.file envar) = some env)
    (hexport : format.exportEnv (format.set name value env) = some blob) :
    fwSetenv format envar name value stores = some (writeFile envar blob stores) := by
  rw [fwSetenv, fwBlob, hdecode, Option.getD_some, hexport, Option.map_some]

/-- Linux copies the saved 1 into the file, `S99kubos-verify` sets it to 0 there, and U-Boot
loads the 1. -/
theorem kubosVerify_lost :
    ∃ stores, kubosVerify triedVars "1:3"
        (history triedVars "1:3" (startup (bootFrom "1:3")) saved) = some stores ∧
      triedVars.get (loaded triedVars (bootFrom "1:3") stores).env "kubos_curr_tried" =
        some "1" := by
  have hone : triedVars.decode (mramBlob saved.mram) = some triedOne := by
    rw [mramBlob_saved]
    exact triedVars.decode_export exportEnv_one
  obtain ⟨seeded, hmram, hstart⟩ : ∃ seeded : Stores, seeded.mram = saved.mram ∧
      history triedVars "1:3" (startup (bootFrom "1:3")) saved =
        writeFile "1:3" blobOne seeded := by
    have hmram := ubootEnv_mram "1:3" saved
    refine ⟨ubootEnv "1:3" saved, hmram, ?_⟩
    have hvalid : triedVars.decode (mramBlob (ubootEnv "1:3" saved).mram) = some triedOne := by
      rw [hmram]
      exact hone
    rw [history_startup, mramEnvSync_valid hvalid, hmram, mramBlob_saved]
  have hzero : fwSetenv triedVars "1:3" "kubos_curr_tried" (some "0")
      (writeFile "1:3" blobOne seeded) =
        some (writeFile "1:3" blobZero (writeFile "1:3" blobOne seeded)) := by
    refine fwSetenv_eq triedOne ?_ exportEnv_zero
    rw [writeFile_same]
    exact triedVars.decode_export exportEnv_one
  have hverified : fwSetenv triedVars "1:3" "bootcount" (some "0")
      (writeFile "1:3" blobZero (writeFile "1:3" blobOne seeded)) =
        some (writeFile "1:3" blobVerified
          (writeFile "1:3" blobZero (writeFile "1:3" blobOne seeded))) := by
    refine fwSetenv_eq triedZero ?_ exportEnv_verified
    rw [writeFile_same]
    exact triedVars.decode_export exportEnv_zero
  rw [← hmram] at hone
  have hloaded : (loaded triedVars (bootFrom "1:3") (writeFile "1:3" blobVerified
      (writeFile "1:3" blobZero (writeFile "1:3" blobOne seeded)))).env = triedOne :=
    loaded_env_mram (mramReadable_bootFrom _ _) hone
  refine ⟨writeFile "1:3" blobVerified
    (writeFile "1:3" blobZero (writeFile "1:3" blobOne seeded)), ?_, ?_⟩
  · rw [hstart, kubosVerify, hzero]
    exact hverified
  · rw [hloaded]
    rfl

/-- A chip without an environment, and a card whose file says 1. -/
def erased : Stores where
  mram _ := 0xff
  file part := if part = "0:3" then blobOne else []

theorem decode_erased : triedVars.decode (mramBlob erased.mram) = none := by
  have htake : (mramBlob erased.mram).take 4 = bytesAt erased.mram 0x7d800 4 := by
    change (bytesAt erased.mram 0x7d800 (4 + 10236)).take 4 = _
    rw [bytesAt_add, List.take_append_of_le_length (by rw [length_bytesAt]),
      List.take_of_length_le (by rw [length_bytesAt])]
  rw [decode_eq, htake]
  decide

/-- On such a chip the 0 that is set survives a boot, and is loaded at the next. -/
theorem fwSetenv_survives_iff_erased :
    triedVars.get (loaded triedVars (bootFrom "0:3") (history triedVars "0:3"
      (startup (bootFrom "0:3")) (writeFile "0:3" blobZero erased))).env "kubos_curr_tried" =
        some "0" := by
  have hset : fwSetenv triedVars "0:3" "kubos_curr_tried" (some "0") erased =
      some (writeFile "0:3" blobZero erased) :=
    fwSetenv_eq triedOne (triedVars.decode_export exportEnv_one) exportEnv_zero
  have hclear : ¬ Shadows triedVars "kubos_curr_tried" (some "0") (mramBlob erased.mram) :=
    not_shadows_invalid decode_erased
  have hboot : Step triedVars "0:3" "kubos_curr_tried" (some "0")
      (writeFile "0:3" blobZero erased)
      (boot triedVars (bootFrom "0:3") [] (writeFile "0:3" blobZero erased)) :=
    ⟨.boot (bootFrom "0:3") [], fun ⟨_, hmem⟩ => (nomatch hmem), fun hmem => (nomatch hmem), rfl⟩
  rw [boot_nil] at hboot
  have hseed : Step triedVars "0:3" "kubos_curr_tried" (some "0")
      (writeFile "0:3" blobZero erased) (ubootEnv "0:3" (writeFile "0:3" blobZero erased)) :=
    ⟨.ubootEnv, id, trivial, rfl⟩
  have hsync : Step triedVars "0:3" "kubos_curr_tried" (some "0")
      (ubootEnv "0:3" (writeFile "0:3" blobZero erased))
      (history triedVars "0:3" (startup (bootFrom "0:3")) (writeFile "0:3" blobZero erased)) := by
    refine ⟨.mramEnvSync true, id, fun _ => ?_, history_startup _ _⟩
    rw [ubootEnv_mram]
    exact hclear
  have hrun : Relation.ReflTransGen (Step triedVars "0:3" "kubos_curr_tried" (some "0"))
      (writeFile "0:3" blobZero erased)
      (history triedVars "0:3" (startup (bootFrom "0:3")) (writeFile "0:3" blobZero erased)) :=
    ((Relation.ReflTransGen.single hboot).tail hseed).tail hsync
  have hsurvives := fwSetenv_survives_iff triedVars (bootFrom "0:3") hset hrun
    (.firstPart rfl rfl)
  exact hsurvives.2.mpr fun _ => hsurvives.1 hclear

end RadsatLinux.Env.History
