import RadsatLinux.UBoot.Layout
import RadsatLinux.UBoot.Overlay

/-!
# The overlay and the environment

`radsat_fram_overlay_env` of `common/fram_mission.c`, with its gates in front of the loop
over the mission keys.  The function yields the calls of `setenv` it makes; `SetenvRun`
says what a list of such calls may do to an environment.
-/

namespace RadsatLinux.UBoot.OverlayEnv

open RadsatLinux.Library.Crash RadsatLinux.Library.LittleEndian
open RadsatLinux.Fram.Record RadsatLinux.Fram.Memory
open RadsatLinux.UBoot.Hardware RadsatLinux.UBoot.FramMission
open RadsatLinux.UBoot.Layout RadsatLinux.UBoot.Overlay

/-! ## The code -/

/-- `fram_keys[]` -/
def framKeys : List FramKey :=
  [⟨1, "remove_before_flight", 1⟩, ⟨2, "deployed", 1⟩, ⟨3, "deploy_start", 2⟩,
    ⟨4, "initial_safe_state_complete", 1⟩, ⟨5, "fsoo_timer", 3⟩, ⟨6, "detumbling_complete", 1⟩]

/-- `FRAM_BOOT_DATA_END` -/
def framBootDataEnd : Nat := 384

/-- The last test of `fram_boot_crc_ok`: the record of key 7 holds the CRC of the boot
region in its value. -/
def bootCrcMatches (data : Vector U8 framBootDataEnd) (rec : Slot) : Bool :=
  recordMagic rec == framRecMagic && recordId rec == 7 && recordType rec == 3 &&
    recordLen rec == 8 &&
    joinBytes 32 ((recordPayload rec).toList.take 4) == crc32Fram data.toList

def framBootCrcOk : Boot Bool := do
  match ← framRead 0 framBootDataEnd with
  | none => return false
  | some data =>
      match ← framRead 384 32 with
      | none => return false
      | some rec => return bootCrcMatches data rec

/-- The loop over `fram_keys`. -/
def overlayKeys : List FramKey → Boot (List SetEnv)
  | [] => return []
  | key :: rest => do
      let call ← overlayKey key
      let calls ← overlayKeys rest
      return call.toList ++ calls

/-- `radsat_fram_overlay_env` from the blank check to the label `out`. -/
def overlayPresentKeys : Boot (List SetEnv) := do
  if (← framRegionBlank 0 framBootDataEnd) = 1 then return []
  if ← framLayoutPresentInvalid then return []
  if !(← framBootCrcOk) then return []
  overlayKeys framKeys

def radsatFramOverlayEnv : Boot (List SetEnv) := do
  let oldBus ← i2cGetBusNum
  if ← i2cSetBusNum configFramI2cBus then return []
  framEnsureLayoutHeader
  let calls ← overlayPresentKeys
  let _ ← i2cSetBusNum oldBus
  return calls

/-! ## Environments -/

abbrev Env := String → Option String

/-- A call of `setenv` fails, or gives its variable its value and touches no other. -/
inductive SetenvStep (call : SetEnv) (env : Env) : Env → Prop where
  | fails : SetenvStep call env env
  | sets : SetenvStep call env (Function.update env call.name call.value)

inductive SetenvRun : List SetEnv → Env → Env → Prop where
  | nil (env : Env) : SetenvRun [] env env
  | cons {call : SetEnv} {calls : List SetEnv} {env env₁ env₂ : Env}
      (hstep : SetenvStep call env env₁) (hrun : SetenvRun calls env₁ env₂) :
      SetenvRun (call :: calls) env env₂

/-- The names the overlay may touch. -/
def allowlist : List String := framKeys.map FramKey.name

/-- The size of `val` in `decode_and_set`, with the terminator. -/
def valSize : Nat := 32

/-- What a mission key may be given: true or false for a bool, a decimal numeral that fits
`val` for a timestamp or a u64, and nothing at all for the start of deployment only. -/
def ValueAllowed (key : FramKey) : Option String → Prop
  | none => key.name = "deploy_start"
  | some text =>
      (key.vtype = 1 ∧ (text = "true" ∨ text = "false")) ∨
        (key.vtype ≠ 1 ∧ text.length + 1 ≤ valSize ∧ ∃ value : U64, text = decimal value)

def CallAllowed (call : SetEnv) : Prop :=
  ∃ key ∈ framKeys, call.name = key.name ∧ ValueAllowed key call.value

/-! ## The calls -/

theorem decimal_fits (value : U64) : (decimal value).length + 1 ≤ valSize := by
  have hlt : value.toNat < 10 ^ 20 := Nat.lt_trans value.isLt (by decide)
  have hlen := Nat.repr_length value.toNat 20 (by decide) hlt
  exact Nat.le_trans (Nat.succ_le_succ hlen) (by decide)

theorem deletable_key {key : FramKey} (hkey : key ∈ framKeys) (htype : key.vtype = 2) :
    key.name = "deploy_start" := by
  have hall : ∀ key ∈ framKeys, key.vtype = 2 → key.name = "deploy_start" := by decide
  exact hall key hkey htype

theorem boolText_allowed {key : FramKey} (htype : key.vtype = 1) (value : Bool) :
    ValueAllowed key (some (boolText value)) := by
  refine Or.inl ⟨htype, ?_⟩
  cases value with
  | true => exact Or.inl rfl
  | false => exact Or.inr rfl

theorem decimal_allowed {key : FramKey} (htype : key.vtype ≠ 1) (value : U64) :
    ValueAllowed key (some (decimal value)) :=
  Or.inr ⟨htype, decimal_fits value, value, rfl⟩

/-- One branch of `decode_and_set` for each type of value. -/
theorem setFromRecord_allowed {key : FramKey} {best : Slot} {call : SetEnv}
    (hkey : key ∈ framKeys) (hset : setFromRecord key best = some call) : CallAllowed call := by
  simp only [setFromRecord, beq_iff_eq] at hset
  split at hset
  · cases hset
  · by_cases hbool : key.vtype = 1
    · rw [if_pos hbool] at hset
      split at hset
      · cases hset
      · cases hset
        exact ⟨key, hkey, rfl, boolText_allowed hbool _⟩
    · rw [if_neg hbool] at hset
      by_cases htime : key.vtype = 2
      · rw [if_pos htime] at hset
        split at hset
        · cases hset
          exact ⟨key, hkey, rfl, deletable_key hkey htime⟩
        · split at hset
          · cases hset
          · cases hset
            exact ⟨key, hkey, rfl, decimal_allowed hbool _⟩
      · rw [if_neg htime] at hset
        split at hset
        · split at hset
          · cases hset
          · cases hset
            exact ⟨key, hkey, rfl, decimal_allowed hbool _⟩
        · cases hset

theorem wp_trivial {α : Type} (m : Boot α) (b : Board) :
    wp m (fun _ _ => True) (fun _ _ => True) b := by
  unfold wp
  cases m b <;> trivial

theorem overlayKey_allowed {key : FramKey} (hkey : key ∈ framKeys) (b : Board) :
    wp (overlayKey key) (fun r _ => ∀ call ∈ r, CallAllowed call) (fun _ _ => True) b := by
  have hnone : ∀ call ∈ (none : Option SetEnv), CallAllowed call := nofun
  unfold overlayKey
  refine wp_seq (wp_trivial _ b) fun r b₁ _ => ?_
  cases r with
  | none => exact hnone
  | some raw =>
      dsimp only
      unfold decodeAndSet
      split
      · exact hnone
      · split
        · exact hnone
        · refine wp_seq (wp_trivial _ b₁) fun slotB b₂ _ => ?_
          exact fun call hcall => setFromRecord_allowed hkey hcall

theorem overlayKeys_allowed {keys : List FramKey} (hkeys : keys ⊆ framKeys) (b : Board) :
    wp (overlayKeys keys) (fun calls _ => ∀ call ∈ calls, CallAllowed call)
      (fun _ _ => True) b := by
  induction keys generalizing b with
  | nil => exact fun call hcall => absurd hcall (List.not_mem_nil)
  | cons key rest ih =>
      rw [List.cons_subset] at hkeys
      refine wp_seq (overlayKey_allowed hkeys.1 b) fun first b₁ hfirst => ?_
      refine wp_seq (ih hkeys.2 b₁) fun calls b₂ hcalls => ?_
      intro call hcall
      rcases List.mem_append.mp hcall with hhead | htail
      · exact hfirst call (Option.mem_toList.mp hhead)
      · exact hcalls call htail

theorem overlayPresentKeys_allowed (b : Board) :
    wp overlayPresentKeys (fun calls _ => ∀ call ∈ calls, CallAllowed call)
      (fun _ _ => True) b := by
  have hnil : ∀ call ∈ ([] : List SetEnv), CallAllowed call := nofun
  refine wp_seq (wp_trivial _ b) fun blank b₁ _ => ?_
  split
  · exact hnil
  · refine wp_seq (wp_trivial _ b₁) fun invalid b₂ _ => ?_
    split
    · exact hnil
    · refine wp_seq (wp_trivial _ b₂) fun crcOk b₃ _ => ?_
      split
      · exact hnil
      · exact overlayKeys_allowed (List.Subset.refl framKeys) b₃

/-! ## What the calls do -/

theorem framKeys_name_injective {key other : FramKey} (hkey : key ∈ framKeys)
    (hother : other ∈ framKeys) (hname : key.name = other.name) : key = other := by
  have hnodup : allowlist.Nodup := by decide
  exact List.inj_on_of_nodup_map hnodup hkey hother hname

theorem SetenvStep.other {call : SetEnv} {env env' : Env} (hstep : SetenvStep call env env')
    {name : String} (hname : name ≠ call.name) : env' name = env name := by
  cases hstep with
  | fails => rfl
  | sets => exact Function.update_of_ne hname call.value env

theorem SetenvStep.named {call : SetEnv} {env env' : Env} (hstep : SetenvStep call env env') :
    env' call.name = env call.name ∨ env' call.name = call.value := by
  cases hstep with
  | fails => exact Or.inl rfl
  | sets => exact Or.inr (Function.update_self call.name call.value env)

/-- Calls of mission keys leave every other variable alone. -/
theorem SetenvRun.other {calls : List SetEnv} {env env' : Env} (hrun : SetenvRun calls env env')
    (hcalls : ∀ call ∈ calls, CallAllowed call) {name : String} (hname : name ∉ allowlist) :
    env' name = env name := by
  induction hrun with
  | nil env => rfl
  | cons hstep hrest ih =>
      rename_i call calls env env₁ env₂
      obtain ⟨key, hkey, hcall, -⟩ := hcalls call List.mem_cons_self
      have hne : name ≠ call.name := by
        rintro rfl
        exact hname (hcall ▸ List.mem_map_of_mem hkey)
      rw [ih fun call hmem => hcalls call (List.mem_cons_of_mem _ hmem), hstep.other hne]

/-- After calls of mission keys each mission variable is as it was or has an allowed value. -/
theorem SetenvRun.named {calls : List SetEnv} {env env' : Env} (hrun : SetenvRun calls env env')
    (hcalls : ∀ call ∈ calls, CallAllowed call) {key : FramKey} (hkey : key ∈ framKeys) :
    env' key.name = env key.name ∨ ValueAllowed key (env' key.name) := by
  induction hrun with
  | nil env => exact Or.inl rfl
  | cons hstep hrest ih =>
      rename_i call calls env env₁ env₂
      rcases ih fun call hmem => hcalls call (List.mem_cons_of_mem _ hmem) with hkept | hallowed
      · by_cases hname : key.name = call.name
        · obtain ⟨other, hother, hcall, hvalue⟩ := hcalls call List.mem_cons_self
          have hsame : key = other := framKeys_name_injective hkey hother (hname.trans hcall)
          rcases hstep.named with hold | hnew
          · rw [hkept, hname]
            exact Or.inl hold
          · rw [hkept, hname, hnew, hsame]
            exact Or.inr hvalue
        · rw [hkept, hstep.other hname]
          exact Or.inl rfl
      · exact Or.inr hallowed

/-! ## The gates -/

theorem keeps_framBootCrcOk : Keeps ReadOnly framBootCrcOk := by
  refine keeps_read_then fun r => ?_
  cases r with
  | none => exact keeps_pure false
  | some data =>
      refine keeps_read_then fun r => ?_
      cases r with
      | none => exact keeps_pure false
      | some rec => exact keeps_pure (bootCrcMatches data rec)

theorem keeps_overlayKey (key : FramKey) : Keeps ReadOnly (overlayKey key) := by
  refine keeps_read_then fun r => ?_
  cases r with
  | none => exact keeps_pure none
  | some raw =>
      dsimp only
      unfold decodeAndSet
      split
      · exact keeps_pure none
      · split
        · exact keeps_pure none
        · exact keeps_read_then fun slotB => keeps_pure _

theorem keeps_overlayKeys (keys : List FramKey) : Keeps ReadOnly (overlayKeys keys) := by
  induction keys with
  | nil => exact keeps_pure []
  | cons key rest ih =>
      exact keeps_then (keeps_overlayKey key) fun call => keeps_then ih fun calls => keeps_pure _

theorem keeps_overlayPresentKeys : Keeps ReadOnly overlayPresentKeys := by
  refine keeps_then (keeps_framRegionBlank 0 framBootDataEnd) fun blank => ?_
  split
  · exact keeps_pure []
  · refine keeps_then keeps_framLayoutPresentInvalid fun invalid => ?_
    split
    · exact keeps_pure []
    · refine keeps_then keeps_framBootCrcOk fun crcOk => ?_
      split
      · exact keeps_pure []
      · exact keeps_overlayKeys framKeys

/-- The board `b` comes to the header check of `radsat_fram_overlay_env` as `b₁`. -/
def AtHeaderCheck (b b₁ : Board) : Prop :=
  ∃ selected stamped blank, i2cSetBusNum configFramI2cBus b = .ok false selected ∧
    framEnsureLayoutHeader selected = .ok () stamped ∧
    framRegionBlank 0 framBootDataEnd stamped = .ok blank b₁ ∧ blank ≠ 1

/-- The header check at `b₁` reads a header that is not blank and has a wrong magic or
version. -/
def HeaderSeenInvalid (b₁ : Board) : Prop :=
  ∃ hdr, seen framLayoutOffset 16 b₁ = some hdr ∧ headerInvalid hdr = true

/-- The CRC check at `b₂` reads the boot region and the record of its CRC, and they match. -/
def BootCrcPasses (b₂ : Board) : Prop :=
  ∃ data rec, seen 0 framBootDataEnd b₂ = some data ∧ seen 384 32 (useEvent b₂) = some rec ∧
    bootCrcMatches data rec = true

theorem framLayoutPresentInvalid_seen (b₁ : Board) :
    wp framLayoutPresentInvalid
      (fun r b₂ => b₂ = useEvent b₁ ∧ (HeaderSeenInvalid b₁ → r = true)) (fun _ _ => True) b₁ := by
  unfold framLayoutPresentInvalid
  rw [wp_bind, wp_framRead_iff]
  split
  · trivial
  · cases hseen : seen framLayoutOffset 16 b₁ with
    | none =>
        refine ⟨rfl, ?_⟩
        rintro ⟨hdr, hsome, -⟩
        rw [hseen] at hsome
        cases hsome
    | some hdr =>
        refine ⟨rfl, ?_⟩
        rintro ⟨hdr', hsome, hinvalid⟩
        rw [hseen] at hsome
        cases hsome
        exact hinvalid

theorem framBootCrcOk_passes (b₂ : Board) :
    wp framBootCrcOk (fun r _ => r = true → BootCrcPasses b₂) (fun _ _ => True) b₂ := by
  unfold framBootCrcOk
  rw [wp_bind, wp_framRead_iff]
  split
  · trivial
  · cases hdata : seen 0 framBootDataEnd b₂ with
    | none => exact nofun
    | some data =>
        dsimp only
        rw [wp_bind, wp_framRead_iff]
        split
        · trivial
        · cases hrec : seen 384 32 (useEvent b₂) with
          | none => exact nofun
          | some rec => exact fun hmatches => ⟨data, rec, hdata, hrec, hmatches⟩

/-- Past a closed gate no key is overlaid. -/
theorem overlayPresentKeys_gated {stamped b₁ : Board} {blank : Int}
    (hblank : framRegionBlank 0 framBootDataEnd stamped = .ok blank b₁) (hdata : blank ≠ 1)
    (hclosed : HeaderSeenInvalid b₁ ∨ ¬ BootCrcPasses (useEvent b₁)) :
    wp overlayPresentKeys (fun calls _ => calls = []) (fun _ _ => True) stamped := by
  refine wp_of_ok hblank ?_
  rw [if_neg hdata]
  refine wp_seq (framLayoutPresentInvalid_seen b₁) ?_
  rintro invalid b₂ ⟨rfl, hinvalid⟩
  cases invalid with
  | true => rfl
  | false =>
      rw [if_neg (by decide)]
      refine wp_seq (framBootCrcOk_passes (useEvent b₁)) fun crcOk b₃ hpasses => ?_
      cases crcOk with
      | false => rfl
      | true =>
          rcases hclosed with hheader | hcrc
          · cases hinvalid hheader
          · exact absurd (hpasses rfl) hcrc

/-! ## The whole overlay -/

/-- `radsat_fram_overlay_env` selects the bus it found again, and that selection fails. -/
def RestoreFails (b : Board) : Prop :=
  ∃ rest, b.busFails = false :: true :: rest

theorem radsatFramOverlayEnv_calls (b : Board) :
    wp radsatFramOverlayEnv (fun calls _ => ∀ call ∈ calls, CallAllowed call)
      (fun _ _ => True) b := by
  refine wp_seq (wp_trivial _ b) fun oldBus b₁ _ => ?_
  refine wp_seq (wp_trivial _ b₁) fun failed b₂ _ => ?_
  split
  · exact nofun
  · refine wp_seq (wp_trivial _ b₂) fun _ b₃ _ => ?_
    refine wp_seq (overlayPresentKeys_allowed b₃) fun calls b₄ hcalls => ?_
    exact wp_seq (wp_trivial _ b₄) fun _ _ _ => hcalls

theorem radsatFramOverlayEnv_gated {b b₁ : Board} (hat : AtHeaderCheck b b₁)
    (hclosed : HeaderSeenInvalid b₁ ∨ ¬ BootCrcPasses (useEvent b₁)) :
    wp radsatFramOverlayEnv (fun calls _ => calls = []) (fun _ _ => True) b := by
  obtain ⟨selected, stamped, blank, hselect, hstamp, hblank, hdata⟩ := hat
  unfold radsatFramOverlayEnv
  have hbus : i2cGetBusNum b = .ok b.bus b := rfl
  refine wp_of_ok hbus ?_
  refine wp_of_ok hselect ?_
  refine wp_of_ok hstamp ?_
  refine wp_seq (overlayPresentKeys_gated hblank hdata hclosed) fun calls b₂ hcalls => ?_
  exact wp_seq (wp_trivial _ b₂) fun _ _ _ => hcalls

theorem restoreFails_iff (b : Board) :
    RestoreFails b ↔ b.busFails.headD false = false ∧ b.busFails.tail.headD false = true := by
  constructor
  · rintro ⟨rest, hfails⟩
    rw [hfails]
    exact ⟨rfl, rfl⟩
  · rintro ⟨hfirst, hsecond⟩
    rcases hfails : b.busFails with _ | ⟨first, _ | ⟨second, rest⟩⟩ <;>
      rw [hfails] at hfirst hsecond
    · cases hsecond
    · cases hsecond
    · exact ⟨rest, by rw [hfails, ← hfirst, ← hsecond]; rfl⟩

/-- What follows the first selection of the bus restores it if the second one works, and leaves
the FRAM bus selected if not. -/
theorem overlayed_bus (b : Board) (hfirst : b.busFails.headD false = false) :
    wp (do
        framEnsureLayoutHeader
        let calls ← overlayPresentKeys
        let _ ← i2cSetBusNum b.bus
        return calls)
      (fun _ b' => b'.bus = if b.busFails.tail.headD false then configFramI2cBus else b.bus)
      (fun _ _ => True) (afterSelect configFramI2cBus b) := by
  refine wp_seq (wp_mono (keeps_framEnsureLayoutHeader _) (fun _ _ h => h)
    fun _ _ _ => trivial) fun _ b₁ h₁ => ?_
  refine wp_seq (wp_mono (keeps_overlayPresentKeys b₁) (fun _ _ h => h)
    fun _ _ _ => trivial) fun calls b₂ h₂ => ?_
  have hsame := (h₁.trans h₂.framOnly).same
  have hbusFails : b₂.busFails = b.busFails.tail := by
    rw [hsame]
    rfl
  have hbus : b₂.bus = configFramI2cBus := by
    rw [hsame]
    exact if_neg (ne_true_of_eq_false hfirst)
  rw [wp_bind, wp_i2cSetBusNum_iff]
  change (if b₂.busFails.headD false then b₂.bus else b.bus) = _
  rw [hbusFails, hbus]

/-- The bus on exit is the one on entry, unless it cannot be selected again. -/
theorem radsatFramOverlayEnv_bus (b : Board) :
    wp radsatFramOverlayEnv (fun _ b' => (¬ RestoreFails b → b'.bus = b.bus) ∧
      (RestoreFails b → b'.bus = configFramI2cBus)) (fun _ _ => True) b := by
  unfold radsatFramOverlayEnv
  have hbus : i2cGetBusNum b = .ok b.bus b := rfl
  refine wp_of_ok hbus ?_
  rw [wp_bind, wp_i2cSetBusNum_iff, restoreFails_iff]
  cases hfirst : b.busFails.headD false with
  | true => exact ⟨fun _ => if_pos hfirst, fun h => by cases h.1⟩
  | false =>
      rw [if_neg (by decide)]
      refine wp_mono (overlayed_bus b hfirst) (fun _ b' hbus' => ?_) fun _ _ _ => trivial
      rw [hbus']
      cases b.busFails.tail.headD false with
      | false => exact ⟨fun _ => rfl, fun h => by cases h.2⟩
      | true => exact ⟨fun h => absurd ⟨rfl, rfl⟩ h, fun _ => rfl⟩

/-- FRAM contents and I2C failures reach the environment through the mission variables
alone, and only in the values of their types; behind a bad header or a bad CRC they do not
reach it at all.  The bus is restored unless its selection fails, which leaves that of the FRAM
selected. -/
theorem radsatFramOverlayEnv_noninterference {b b' : Board} {calls : List SetEnv}
    (hrun : radsatFramOverlayEnv b = .ok calls b') :
    (∀ env env', SetenvRun calls env env' →
      (∀ name, name ∉ allowlist → env' name = env name) ∧
      (∀ key ∈ framKeys, env' key.name = env key.name ∨ ValueAllowed key (env' key.name)) ∧
      (∀ b₁, AtHeaderCheck b b₁ → HeaderSeenInvalid b₁ ∨ ¬ BootCrcPasses (useEvent b₁) →
        env' = env)) ∧
    (¬ RestoreFails b → b'.bus = b.bus) ∧ (RestoreFails b → b'.bus = configFramI2cBus) := by
  have hcalls := wp_ok (radsatFramOverlayEnv_calls b) hrun
  have hbus := wp_ok (radsatFramOverlayEnv_bus b) hrun
  refine ⟨fun env env' hsetenv => ⟨?_, ?_, ?_⟩, hbus⟩
  · exact fun name hname => hsetenv.other hcalls hname
  · exact fun key hkey => hsetenv.named hcalls hkey
  · intro b₁ hat hclosed
    have hnone := wp_ok (radsatFramOverlayEnv_gated hat hclosed) hrun
    subst hnone
    cases hsetenv
    rfl

/-- Key 1 holds true, and key 7 the CRC of the boot region. -/
def beforeFlightChip : Chip :=
  writeAt (chipWith 1 (framEncodeBool 1 true 1)) 384 (framEncodeU64 7 0x61b20e89 1) 32

/-- Bus 0 is selected; the selections of a bus fail as listed. -/
def overlayBoard (chip : Chip) (busFails : List Bool) : Board :=
  powerOn ⟨0, .sd, fun _ _ => 0, busFails, [], []⟩ ⟨chip, fun _ _ => 0, fun _ _ => 0⟩

set_option maxRecDepth 8000 in
theorem radsatFramOverlayEnv_beforeFlight :
    ∃ calls b', radsatFramOverlayEnv (overlayBoard beforeFlightChip []) = .ok calls b' ∧
      calls = [⟨"remove_before_flight", some "true"⟩] ∧
      b'.bus = (overlayBoard beforeFlightChip []).bus := by
  have hrun : returned (fun b => b.bus) (radsatFramOverlayEnv (overlayBoard beforeFlightChip [])) =
      some ([⟨"remove_before_flight", some "true"⟩], 0) := by
    unfold radsatFramOverlayEnv overlayPresentKeys
    rw [framRegionBlank]
    decide +kernel
  obtain ⟨b', hok, -⟩ := ok_of_returned hrun
  refine ⟨_, b', hok, rfl, (radsatFramOverlayEnv_noninterference hok).2.1 ?_⟩
  rintro ⟨rest, hfails⟩
  cases hfails

/-- The FRAM bus stays selected when the bus found on entry cannot be selected again. -/
theorem radsatFramOverlayEnv_bus_lost :
    ∃ calls b', radsatFramOverlayEnv
        (overlayBoard (chipWith 1 (framEncodeBool 1 true 1)) [false, true]) = .ok calls b' ∧
      b'.bus ≠ (overlayBoard (chipWith 1 (framEncodeBool 1 true 1)) [false, true]).bus := by
  have hrun : returned (fun b => b.bus) (radsatFramOverlayEnv
      (overlayBoard (chipWith 1 (framEncodeBool 1 true 1)) [false, true])) = some ([], 2) := by
    unfold radsatFramOverlayEnv overlayPresentKeys
    rw [framRegionBlank]
    decide +kernel
  obtain ⟨b', hok, hbus⟩ := ok_of_returned hrun
  refine ⟨_, b', hok, ?_⟩
  rw [hbus]
  decide

end RadsatLinux.UBoot.OverlayEnv
