import RadsatLinux.InstallOs.Backups
import RadsatLinux.InstallOs.RootGuard

/-!
# The command line of `install-os`

The loop over the arguments, the check for root, the menu and the dispatch to the commands.
Whatever stands on the command line and whatever is typed, nothing durable changes unless a
command was chosen and agreed to, and the partitions of the root disk are not written.
-/

namespace RadsatLinux.InstallOs.CommandLine

open RadsatLinux.Library.Crash RadsatLinux.Library.BlockDevice RadsatLinux.Library.ShellNumber
open RadsatLinux.UBoot.Hardware
open RadsatLinux.InstallOs.Commands RadsatLinux.InstallOs.Script
open RadsatLinux.InstallOs.Restore RadsatLinux.InstallOs.Latch RadsatLinux.InstallOs.EmmcToSd
open RadsatLinux.InstallOs.Backups RadsatLinux.InstallOs.RootGuard

/-! ## Arguments -/

/-- `MODE` -/
inductive Command where
  | sdToEmmc
  | emmcToSd
  | sdBackups
  | autoRecover
  | status
  deriving DecidableEq

inductive Arg where
  | mode (command : Command)
  | yes
  | backups
  | help
  | unknown
  deriving DecidableEq

def readArg (word : String) : Arg :=
  if word = "sd-to-emmc" then .mode .sdToEmmc
  else if word = "emmc-to-sd" then .mode .emmcToSd
  else if word = "sd-backups" then .mode .sdBackups
  else if word = "auto-recover" then .mode .autoRecover
  else if word = "status" then .mode .status
  else if word = "-y" ∨ word = "--yes" then .yes
  else if word = "--backups" then .backups
  else if word = "-h" ∨ word = "--help" then .help
  else .unknown

/-- `MODE`, `YES` and `DO_BACKUPS` -/
structure Options where
  mode : Option Command
  yes : Bool
  doBackups : Bool
  deriving DecidableEq

/-- The loop over the arguments; it may end the script with a status. -/
def readArgs (options : Options) : List String → Except Nat Options
  | [] => .ok options
  | word :: argv =>
      match readArg word with
      | .mode command => readArgs { options with mode := some command } argv
      | .yes => readArgs { options with yes := true } argv
      | .backups => readArgs { options with doBackups := true } argv
      | .help => .error 0
      | .unknown => .error 2

/-! ## The script -/

/-- How the script is called, and what is typed at its menu. -/
structure Call where
  argv : List String
  root : Bool
  choice : String

/-- It needs a card, and prints. -/
def showStatus : Script Unit := do
  let _ ← needSd

def setBackups (doBackups : Bool) : Script Unit :=
  modify fun s => { s with doBackups := doBackups }

def interactive (choice : String) : Script Command := do
  showStatus
  if choice = "1" then return .sdToEmmc
  if choice = "2" then
    setBackups false
    return .emmcToSd
  if choice = "3" then
    setBackups true
    return .emmcToSd
  if choice = "4" then return .sdBackups
  throw (.exit 0)

variable (service : FramService)

def dispatch : Command → Script Unit
  | .status => showStatus
  | .sdToEmmc => doSdToEmmc service
  | .autoRecover => doAutoRecover service
  | .emmcToSd => doEmmcToSd
  | .sdBackups => doSdBackups

def setOptions (options : Options) : Script Unit :=
  modify fun s => { s with yes := options.yes, doBackups := options.doBackups }

def run (call : Call) : Script Unit :=
  match readArgs ⟨none, false, false⟩ call.argv with
  | .error status => throw (.exit status)
  | .ok options => do
      if !call.root then throw (.exit 1)
      setOptions options
      let command ← match options.mode with
        | some command => pure command
        | none => interactive call.choice
      dispatch service command
      throw (.exit 0)

/-! ## What the arguments say -/

def Arg.mode? : Arg → Option Command
  | .mode command => some command
  | _ => none

/-- The loop goes on after this argument. -/
def Arg.goesOn : Arg → Bool
  | .help | .unknown => false
  | _ => true

def modes (argv : List String) : List Command := argv.filterMap fun word => (readArg word).mode?

def saysYes (argv : List String) : Bool := argv.any fun word => readArg word == .yes

/-- The last mode counts, and the others do not. -/
structure Understood (options : Options) (argv : List String) (options' : Options) : Prop where
  goesOn : ∀ word ∈ argv, (readArg word).goesOn = true
  mode : options'.mode = (modes argv).getLast?.or options.mode
  yes : options'.yes = (options.yes || saysYes argv)

theorem readArgs_understood {options options' : Options} {argv : List String}
    (h : readArgs options argv = .ok options') : Understood options argv options' := by
  induction argv generalizing options with
  | nil =>
      cases h
      exact ⟨nofun, rfl, (Bool.or_false _).symm⟩
  | cons word argv ih =>
      rw [readArgs] at h
      have hmodes : modes (word :: argv) = (readArg word).mode?.toList ++ modes argv := by
        rw [modes, List.filterMap_cons]
        cases (readArg word).mode? <;> rfl
      have hyes : saysYes (word :: argv) = (readArg word == .yes || saysYes argv) := rfl
      cases harg : readArg word with
      | mode command =>
          rw [harg] at h hmodes hyes
          have hrest := ih h
          refine ⟨List.forall_mem_cons.mpr ⟨harg ▸ rfl, hrest.goesOn⟩, ?_, ?_⟩
          · rw [hrest.mode, hmodes]
            change _ = ((command :: modes argv).getLast?).or options.mode
            rw [List.getLast?_cons]
            cases (modes argv).getLast? <;> rfl
          · rw [hrest.yes, hyes]
            rfl
      | yes =>
          rw [harg] at h hmodes hyes
          have hrest := ih h
          refine ⟨List.forall_mem_cons.mpr ⟨harg ▸ rfl, hrest.goesOn⟩, ?_, ?_⟩
          · rw [hrest.mode, hmodes]
            rfl
          · rw [hrest.yes, hyes]
            exact (Bool.or_true _).symm
      | backups =>
          rw [harg] at h hmodes hyes
          have hrest := ih h
          refine ⟨List.forall_mem_cons.mpr ⟨harg ▸ rfl, hrest.goesOn⟩, ?_, ?_⟩
          · rw [hrest.mode, hmodes]
            rfl
          · rw [hrest.yes, hyes]
            rfl
      | help =>
          rw [harg] at h
          cases h
      | unknown =>
          rw [harg] at h
          cases h

/-- The command behind an entry of the menu. -/
def menu (choice : String) : Option Command :=
  if choice = "1" then some .sdToEmmc
  else if choice = "2" ∨ choice = "3" then some .emmcToSd
  else if choice = "4" then some .sdBackups
  else none

/-- A command that was asked for by root, on the command line or in the menu, and agreed to. -/
structure Call.Orders (call : Call) (answer : String) (command : Command) : Prop where
  goesOn : ∀ word ∈ call.argv, (readArg word).goesOn = true
  root : call.root = true
  chosen : (modes call.argv).getLast? = some command ∨
    modes call.argv = [] ∧ menu call.choice = some command
  agreed : saysYes call.argv = true ∨ command = .autoRecover ∨
    ["y", "Y", "yes", "YES", "Yes"].contains answer = true

/-! ## What the commands do -/

/-- Nothing but the card is written, and from the sector `first` on. -/
structure CardFrom (first : Nat) (s s' : System) : Prop where
  emmc : s'.emmc = s.emmc
  fram : s'.fram = s.fram
  trace : ∀ entry ∈ s'.trace, entry ∈ s.trace ∨
    ∃ lo count, entry.1 = .sdWrite lo count ∧ first ≤ lo

structure Untouched (s s' : System) : Prop where
  durable : s'.toDurable = s.toDurable
  trace : s'.trace = s.trace

/-- What a command may have done by the time it ends. -/
def Command.Did (command : Command) (s s' : System) : Prop :=
  match command with
  | .status => Untouched s s'
  | .sdToEmmc | .autoRecover =>
      EmmcOnly s s' ∧ ∃ emmc, findCard .emmc s.devs = some emmc ∧ rootDiskName s ≠ emmc.name
  | .emmcToSd =>
      CardFrom 0 s s' ∧ ∃ sd, findCard .sd s.devs = some sd ∧ rootDiskName s ≠ sd.name
  | .sdBackups =>
      CardFrom (imageSpanSectors (s.parts .sd)) s s' ∧ 0 < imageSpanSectors (s.parts .sd) ∧
        ∃ sd, findCard .sd s.devs = some sd ∧ sd.size < 2 ^ 31

section

variable {s₀ : System} {first : Nat}

theorem dd_cardFrom (src : MmcDevice) (bs skip seek count : Nat) (hfirst : first ≤ seek * bs) :
    Keeps (CardFrom first s₀) (dd src .sd bs skip seek count) := by
  intro s h
  have htrace (d : Durable) : ∀ entry ∈ (Action.sdWrite (seek * bs) (count * bs), d) :: s.trace,
      entry ∈ s₀.trace ∨ ∃ lo count, entry.1 = .sdWrite lo count ∧ first ≤ lo :=
    List.forall_mem_cons.mpr ⟨.inr ⟨_, _, rfl, hfirst⟩, h.trace⟩
  unfold dd
  dsimp only
  rw [wp_bind, record, wp_modify, wp_bind, wp_nextDd]
  cases s.dds.headD .ok with
  | ok => exact ⟨h.emmc, h.fram, htrace _⟩
  | fail left => exact ⟨h.emmc, h.fram, htrace _⟩
  | cut left => exact ⟨h.emmc, h.fram, htrace _⟩

theorem ddSpan_cardFrom (src : MmcDevice) (count seek skip : Nat) (hfirst : first ≤ seek) :
    Keeps (CardFrom first s₀) (ddSpan src .sd count seek skip) := by
  have one {call : DdCall} (hcall : first ≤ call.seek.toNat * call.bs) :
      Keeps (CardFrom first s₀) (runDd src .sd call) := by
    unfold runDd
    split
    · exact dd_cardFrom src _ _ _ _ hcall
    · exact .pure true
  have hcalls : ∀ call ∈ ddCalls count seek skip, first ≤ call.seek.toNat * call.bs := by
    by_cases hoffset : skip ≠ 0 ∨ seek ≠ 0
    · rw [ddCalls_offset hoffset]
      refine List.forall_mem_singleton.mpr ?_
      exact hfirst.trans (Nat.mul_one seek).ge
    · obtain rfl : first = 0 := by omega
      exact fun _ _ => Nat.zero_le _
  unfold ddSpan
  exact fun s h => wp_forM (fun call hcall => (one (hcalls call hcall)).bind fun _ => .pure ()) h

theorem writeSlots_cardFrom (src : MmcDevice) {span slots i : Nat} (hspan : 0 < span)
    (hcount : slots * span < 2 ^ 31) (hi : 1 ≤ i) (hfirst : first ≤ span) :
    Keeps (CardFrom first s₀) (writeSlots src span slots i) := by
  induction i using writeSlots.induct slots with
  | case1 i htest ih =>
      have hslot : span ≤ i * span := Nat.le_mul_of_pos_left span hi
      rw [writeSlots, if_pos htest, slotStart_eq hspan hcount (lt_of_testLt htest)]
      exact (ddSpan_cardFrom src _ _ _ (hfirst.trans hslot)).bind fun _ => ih (by omega)
  | case2 i hdone =>
      rw [writeSlots, if_neg hdone]
      exact .pure ()

theorem writeSlotMap_cardFrom (span slots : Nat) :
    Keeps (CardFrom first s₀) (writeSlotMap span slots) :=
  fun _ h => ⟨h.emmc, h.fram, h.trace⟩

/-- It writes slots behind the first one, and only on a card whose sectors the shell can count. -/
theorem createSdBackupsFrom_cardFrom (src : MmcDevice) {span : Nat} (hsmall : span < 2 ^ 31)
    (hfirst : first ≤ span) {s : System} (h : CardFrom first s₀ s) :
    let P := fun s' => s' = s ∨ CardFrom first s₀ s' ∧
      ∃ sd, findCard .sd s.devs = some sd ∧ sd.size < 2 ^ 31
    wp (createSdBackupsFrom src span) (fun _ => P) (fun _ => P) s := by
  intro P
  have hsame : P s := .inl rfl
  unfold createSdBackupsFrom
  rw [wp_bind, wp_needSd]
  split
  next sd hsd =>
    split
    next =>
      dsimp only
      rw [testLe_natCast_zero, testGt_of_small hsmall]
      simp only [decide_eq_true_eq]
      split
      · exact hsame
      next hspan =>
        split
        · exact hsame
        next hfits =>
          have hspan : 0 < span := Nat.pos_of_ne_zero hspan
          have hfits : span ≤ sd.size := Nat.not_lt.mp hfits
          rcases slotsOf_cases hspan hfits with ⟨hfew, -⟩ | ⟨htwo, hslots⟩
          · rw [if_pos hfew]
            exact hsame
          · obtain ⟨-, hcount⟩ := slotCount_mul_le hspan hfits htwo
            have hend (s' : System) (h' : CardFrom first s₀ s') : P s' :=
              .inr ⟨h', sd, hsd, size_lt_of_slots htwo⟩
            rw [if_neg (by omega), hslots, Int.toNat_natCast]
            exact wp_mono ((writeSlots_cardFrom src hspan hcount (Nat.le_refl 1) hfirst).bind
              (fun _ => writeSlotMap_cardFrom _ _) s h) (fun _ => hend) fun _ => hend
    next => exact hsame
  next => exact hsame

theorem setDiskSignatureSd_cardFrom : Keeps (CardFrom 0 s₀) setDiskSignatureSd := by
  intro s h
  have htrace (d : Durable) : ∀ entry ∈ (Action.sdWrite 0 1, d) :: s.trace,
      entry ∈ s₀.trace ∨ ∃ lo count, entry.1 = .sdWrite lo count ∧ 0 ≤ lo :=
    List.forall_mem_cons.mpr ⟨.inr ⟨_, _, rfl, Nat.zero_le _⟩, h.trace⟩
  unfold setDiskSignatureSd writeSignature
  rw [wp_bind, record, wp_modify, wp_bind, wp_nextSignature]
  cases s.signatures.headD .ok with
  | ok => exact ⟨h.emmc, h.fram, htrace _⟩
  | fail left => exact ⟨h.emmc, h.fram, htrace _⟩
  | cut left => exact ⟨h.emmc, h.fram, htrace _⟩

theorem CardFrom.stopped (s : System) : CardFrom first s (stopped s) := ⟨rfl, rfl, fun _ => .inl⟩

theorem Untouched.refl (s : System) : Untouched s s := ⟨rfl, rfl⟩

/-- A command that is confirmed, or not and then does nothing. -/
theorem wp_confirm_then {α : Type} {m : Script α} {P : System → Prop} {s : System}
    (hdeclined : ¬ Confirmed s → P s)
    (h : Confirmed s → wp m (fun _ => P) (fun _ => P) s) :
    wp (confirm >>= fun _ => m) (fun _ => P) (fun _ => P) s := by
  rcases confirm_cases s with ⟨hconfirmed, hrun⟩ | ⟨hnot, hrun⟩
  · exact wp_of_ok hrun (h hconfirmed)
  · rw [wp]
    simp only [bind, EStateM.bind, hrun]
    exact hdeclined hnot

end

/-! ## Each command -/

/-- The user, an option or the command itself says yes. -/
def Command.Agreed (command : Command) (s : System) : Prop :=
  command = .autoRecover ∨ Confirmed s

def Command.Ends (command : Command) (s s' : System) : Prop :=
  Untouched s s' ∨ command.Agreed s ∧ command.Did s s'

theorem doSdBackups_ends (s : System) :
    wp doSdBackups (fun _ => Command.sdBackups.Ends s) (fun _ => Command.sdBackups.Ends s) s := by
  have hsame : Command.sdBackups.Ends s s := .inl (.refl s)
  unfold doSdBackups
  rw [wp_bind, wp_needSd]
  split
  next sd hsd =>
    split
    next =>
      rw [wp_bind, wp_get]
      dsimp only
      rw [testLe_natCast_zero]
      simp only [decide_eq_true_eq]
      split
      · exact hsame
      next hspan =>
        refine wp_confirm_then (fun _ => hsame) fun hconfirmed => ?_
        rw [wp_bind, wp_stopServices]
        have hends (s' : System) (h : s' = stopped s ∨
            CardFrom (imageSpanSectors (s.parts .sd)) s s' ∧
              ∃ sd, findCard .sd s.devs = some sd ∧ sd.size < 2 ^ 31) :
            Command.sdBackups.Ends s s' := by
          rcases h with rfl | ⟨hcard, hsize⟩
          · exact .inl ⟨rfl, rfl⟩
          · exact .inr ⟨.inr hconfirmed, hcard, Nat.pos_of_ne_zero hspan, hsize⟩
        exact wp_mono (createSdBackupsFrom_cardFrom .sd (imageSpanSectors_lt _) (Nat.le_refl _)
          (.stopped s)) (fun _ => hends) fun _ => hends
    next => exact hsame
  next => exact hsame

theorem doEmmcToSd_ends (s : System) :
    wp doEmmcToSd (fun _ => Command.emmcToSd.Ends s) (fun _ => Command.emmcToSd.Ends s) s := by
  unfold doEmmcToSd
  rcases checkCard_cases s with ⟨sd, hfits, hroot, hcheck⟩ | ⟨-, hcheck⟩
  · refine wp_of_ok hcheck (wp_confirm_then (fun _ => .inl (.refl s)) fun hconfirmed => ?_)
    rw [wp_bind, wp_stopServices]
    have hends (s' : System) (h : CardFrom 0 s s') : Command.emmcToSd.Ends s s' :=
      .inr ⟨.inr hconfirmed, h, sd, hfits.1, hroot⟩
    have hkeeps : Keeps (CardFrom 0 s) (do
        ddSpan .emmc .sd (cardSpan s) 0 0
        setDiskSignatureSd
        if (← get).doBackups then createSdBackupsFrom .emmc (cardSpan s)
        else writeSlotMap (cardSpan s) 1) := by
      refine (ddSpan_cardFrom .emmc _ _ _ (Nat.le_refl 0)).bind fun _ =>
        setDiskSignatureSd_cardFrom.bind fun _ s' h => ?_
      rw [wp_bind, wp_get]
      split
      · have hkept (s'' : System) (h'' : s'' = s' ∨ CardFrom 0 s s'' ∧
            ∃ sd, findCard .sd s'.devs = some sd ∧ sd.size < 2 ^ 31) : CardFrom 0 s s'' := by
          rcases h'' with rfl | ⟨hcard, -⟩
          · exact h
          · exact hcard
        exact wp_mono (createSdBackupsFrom_cardFrom .emmc (cardSpan_lt s) (Nat.zero_le _) h)
          (fun _ => hkept) fun _ => hkept
      · exact writeSlotMap_cardFrom _ _ s' h
    exact wp_mono (hkeeps _ (.stopped s)) (fun _ => hends) fun _ => hends
  · rw [wp]
    simp only [bind, EStateM.bind, hcheck]
    exact .inl (.refl s)

/-- The command of a mode of the restore. -/
def ofMode : Mode → Command
  | .sdToEmmc => .sdToEmmc
  | .autoRecover => .autoRecover

theorem dispatch_ofMode (mode : Mode) (s : System) :
    dispatch service (ofMode mode) s = doSdToEmmc service (mode.entry s) := by
  cases mode <;> rfl

theorem restore_ends (mode : Mode) (s : System) :
    wp (dispatch service (ofMode mode)) (fun _ => (ofMode mode).Ends s)
      (fun _ => (ofMode mode).Ends s) s := by
  have hentry : Untouched s (mode.entry s) := by
    cases mode <;> exact ⟨rfl, rfl⟩
  rw [wp, dispatch_ofMode]
  change wp (doSdToEmmc service) (fun _ => (ofMode mode).Ends s) (fun _ => (ofMode mode).Ends s)
    (mode.entry s)
  rcases checkMedia_cases (mode.entry s) with ⟨haccepted, hcheck⟩ | ⟨-, hcheck⟩
  · rcases confirm_cases (mode.entry s) with ⟨hconfirmed, -⟩ | ⟨-, hdeclined⟩
    · have hagreed : (ofMode mode).Agreed s := by
        cases mode with
        | sdToEmmc => exact .inr hconfirmed
        | autoRecover => exact .inl rfl
      have hends (s' : System) (h : EmmcOnly (mode.entry s) s') : (ofMode mode).Ends s s' := by
        obtain ⟨-, emmc, -, hemmc, -, -, -, hroot, -⟩ := haccepted
        refine .inr ⟨hagreed, ?_⟩
        cases mode <;> exact ⟨⟨h.sd, h.trace⟩, emmc, hemmc, hroot⟩
      have hspec : wp (installOs service mode) (fun _ _ => False)
          (fun _ => EmmcOnly (mode.entry s)) s := installOs_emmcOnly mode haccepted hconfirmed
      rw [wp, installOs_eq] at hspec
      simp only [bind, EStateM.bind] at hspec
      rw [wp]
      cases hrun : doSdToEmmc service (mode.entry s) with
      | ok a s' =>
          rw [hrun] at hspec
          exact hends s' hspec
      | error e s' =>
          rw [hrun] at hspec
          exact hends s' hspec
    · rw [wp]
      simp only [doSdToEmmc, bind, EStateM.bind, hcheck, framGetRestoreOffset_run, hdeclined]
      exact .inl hentry
  · rw [wp]
    simp only [doSdToEmmc, bind, EStateM.bind, hcheck]
    exact .inl hentry

theorem showStatus_ends (s : System) :
    wp showStatus (fun _ s' => s' = s) (fun _ s' => s' = s) s := by
  unfold showStatus
  rw [wp_bind, wp_needSd]
  split
  next =>
    split
    · rfl
    · rfl
  next => rfl

theorem dispatch_ends (command : Command) (s : System) :
    wp (dispatch service command) (fun _ => command.Ends s) (fun _ => command.Ends s) s := by
  cases command with
  | sdToEmmc => exact restore_ends service .sdToEmmc s
  | autoRecover => exact restore_ends service .autoRecover s
  | emmcToSd => exact doEmmcToSd_ends s
  | sdBackups => exact doSdBackups_ends s
  | status =>
      have hends (s' : System) (h : s' = s) : Command.status.Ends s s' := h ▸ .inl (.refl s')
      exact wp_mono (showStatus_ends s) (fun _ => hends) fun _ => hends

/-! ## Whole runs -/

/-- The state that a command starts in: only the options were set. -/
def prepared (s : System) (yes doBackups : Bool) : System :=
  { s with yes := yes, doBackups := doBackups }

theorem interactive_ends (choice : String) (s : System) (yes doBackups : Bool) :
    wp (interactive choice)
      (fun command s' => menu choice = some command ∧ ∃ b, s' = prepared s yes b)
      (fun _ s' => s' = prepared s yes doBackups) (prepared s yes doBackups) := by
  unfold interactive
  refine wp_seq (showStatus_ends (prepared s yes doBackups)) fun _ s' hsame => ?_
  subst hsame
  unfold menu
  split
  · exact ⟨rfl, doBackups, rfl⟩
  split
  · next htwo => exact ⟨if_pos (Or.inl htwo), false, rfl⟩
  split
  · next htwo hthree => exact ⟨if_pos (Or.inr hthree), true, rfl⟩
  split
  · next htwo hthree hfour =>
      exact ⟨if_neg (not_or.mpr ⟨htwo, hthree⟩), doBackups, rfl⟩
  · rfl

theorem Did.ofPrepared {command : Command} {s s' : System} {yes doBackups : Bool}
    (h : command.Did (prepared s yes doBackups) s') : command.Did s s' := by
  cases command with
  | status => exact ⟨h.durable, h.trace⟩
  | sdToEmmc =>
      obtain ⟨honly, emmc, hemmc, hroot⟩ := h
      exact ⟨⟨honly.sd, honly.trace⟩, emmc, hemmc, hroot⟩
  | autoRecover =>
      obtain ⟨honly, emmc, hemmc, hroot⟩ := h
      exact ⟨⟨honly.sd, honly.trace⟩, emmc, hemmc, hroot⟩
  | emmcToSd =>
      obtain ⟨hcard, sd, hsd, hroot⟩ := h
      exact ⟨⟨hcard.emmc, hcard.fram, hcard.trace⟩, sd, hsd, hroot⟩
  | sdBackups =>
      obtain ⟨hcard, hspan⟩ := h
      exact ⟨⟨hcard.emmc, hcard.fram, hcard.trace⟩, hspan⟩

/-- Nothing durable is touched, or a command was ordered and does what it is for. -/
def Call.Ends (call : Call) (s s' : System) : Prop :=
  Untouched s s' ∨ ∃ command, call.Orders s.answer command ∧ command.Did s s'

theorem Call.ends_of_dispatch {call : Call} {options : Options} {command : Command}
    (hunderstood : Understood ⟨none, false, false⟩ call.argv options) (hroot : call.root = true)
    (hchosen : options.mode = some command ∨
      options.mode = none ∧ menu call.choice = some command) (s : System) (doBackups : Bool) :
    wp (dispatch service command >>= fun _ => (throw (.exit 0) : Script Unit)) (fun _ _ => False)
      (fun _ => call.Ends s) (prepared s options.yes doBackups) := by
  have hmode : options.mode = (modes call.argv).getLast? := by
    rw [hunderstood.mode]
    cases (modes call.argv).getLast? <;> rfl
  have hyes : options.yes = saysYes call.argv := hunderstood.yes
  have hends (s' : System) (h : command.Ends (prepared s options.yes doBackups) s') :
      call.Ends s s' := by
    rcases h with huntouched | ⟨hagreed, hdid⟩
    · exact .inl ⟨huntouched.durable, huntouched.trace⟩
    · refine .inr ⟨command, ⟨hunderstood.goesOn, hroot, ?_, ?_⟩, Did.ofPrepared hdid⟩
      · rw [← hmode]
        refine hchosen.imp_right fun ⟨hnone, hmenu⟩ => ⟨?_, hmenu⟩
        exact List.getLast?_eq_none_iff.mp (hmode.symm.trans hnone)
      · rcases hagreed with hauto | hoption | hanswer
        · exact .inr (.inl hauto)
        · exact .inl (hyes.symm.trans hoption)
        · exact .inr (.inr hanswer)
  refine wp_seq (wp_mono (dispatch_ends service command _) (fun _ => hends) fun _ => hends) ?_
  exact fun _ _ h => h

theorem wp_run (call : Call) (s : System) :
    wp (run service call) (fun _ _ => False) (fun _ => call.Ends s) s := by
  unfold run
  cases hread : readArgs ⟨none, false, false⟩ call.argv with
  | error status => exact .inl (.refl s)
  | ok options =>
      have hunderstood := readArgs_understood hread
      dsimp only
      cases hroot : call.root with
      | false => exact .inl (.refl s)
      | true =>
          change wp (setOptions options >>= fun _ => _) (fun _ _ => False) (fun _ => call.Ends s) s
          rw [wp_bind, setOptions, wp_modify]
          change wp _ (fun _ _ => False) (fun _ => call.Ends s)
            (prepared s options.yes options.doBackups)
          cases hmode : options.mode with
          | some command => exact call.ends_of_dispatch service hunderstood hroot (.inl hmode) s _
          | none =>
              rw [wp_bind]
              refine wp_mono (interactive_ends call.choice s options.yes options.doBackups) ?_ ?_
              · rintro command _ ⟨hmenu, doBackups, rfl⟩
                exact call.ends_of_dispatch service hunderstood hroot (.inr ⟨hmode, hmenu⟩) s _
              · rintro _ _ rfl
                exact .inl ⟨rfl, rfl⟩

/-- The script never just returns. -/
theorem run_stops (call : Call) (s : System) : ∃ e s', run service call s = .error e s' := by
  cases hrun : run service call s with
  | ok a s' => exact (wp_ok (wp_run service call s) hrun).elim
  | error e s' => exact ⟨e, s', rfl⟩

/-- Whatever the arguments and the answers are. -/
theorem run_ends (call : Call) (s : System) :
    ∃ e s', run service call s = .error e s' ∧ call.Ends s s' := by
  obtain ⟨e, s', hrun⟩ := run_stops service call s
  have hend := wp_error (wp_run service call s) hrun
  exact ⟨e, s', hrun, hend⟩

/-! ## The root disk -/

theorem le_lastEnd (last : Nat) (p : Partition) : last ≤ lastEnd last p := by
  unfold lastEnd
  split
  next htest =>
    have hgt := lt_of_testGt htest
    omega
  next => exact Nat.le_refl last

theorem le_imageSpanSectors {parts : List Partition} {p : Partition} (hp : p ∈ parts)
    (hend : p.start + p.size < 2 ^ 31) : p.start + p.size ≤ imageSpanSectors parts := by
  have hgrows (parts : List Partition) (last : Nat) : last ≤ parts.foldl lastEnd last := by
    induction parts generalizing last with
    | nil => exact Nat.le_refl last
    | cons q parts ih => exact (le_lastEnd last q).trans (ih _)
  have hlast (last : Nat) : p.start + p.size ≤ lastEnd last p := by
    rw [lastEnd, partEnd_of_lt hend, testGt_of_small hend, Int.toNat_natCast]
    simp only [decide_eq_true_eq]
    split <;> omega
  have hmem (parts : List Partition) (last : Nat) (hp : p ∈ parts) :
      p.start + p.size ≤ parts.foldl lastEnd last := by
    induction parts generalizing last with
    | nil => cases hp
    | cons q parts ih =>
        rcases List.mem_cons.mp hp with rfl | htail
        · exact (hlast last).trans (hgrows parts _)
        · exact ih _ htail
  exact hmem parts 0 hp

/-- A write that stays behind the partitions of a disk of this size, and away from their
table. -/
def Clear (size : Nat) (parts : List Partition) (first : Nat) : Prop :=
  0 < first ∧ ∀ p ∈ parts, p.start + p.size ≤ size → p.start + p.size ≤ first

/-- The disk that the root is found on keeps its partitions. -/
structure SparesRoot (s s' : System) : Prop where
  writes : ∀ entry ∈ s'.trace, entry ∈ s.trace ∨ ∀ card dev first count,
    entry.1 = writeAction card first count → findCard card s.devs = some dev →
      rootDiskName s = dev.name → Clear dev.size (s.parts card) first

theorem EmmcOnly.sparesRoot {s s' : System} {emmc : BlockDev} (h : EmmcOnly s s')
    (hemmc : findCard .emmc s.devs = some emmc) (hroot : rootDiskName s ≠ emmc.name) :
    SparesRoot s s' := by
  refine ⟨fun entry hentry => (h.trace entry hentry).imp_right fun htarget => ?_⟩
  intro card dev first count haction hdev hname
  cases card with
  | sd => exact absurd (congrArg target haction) htarget
  | emmc =>
      obtain rfl := Option.some.inj (hemmc.symm.trans hdev)
      exact absurd hname hroot

theorem CardFrom.sparesRoot {s s' : System} {lo : Nat} (h : CardFrom lo s s')
    (hclear : ∀ sd, findCard .sd s.devs = some sd → rootDiskName s = sd.name →
      ∀ first, lo ≤ first → Clear sd.size (s.parts .sd) first) : SparesRoot s s' := by
  refine ⟨fun entry hentry => (h.trace entry hentry).imp_right ?_⟩
  rintro ⟨lo', count', hwrite, hlo⟩ card dev first count haction hdev hname
  cases card with
  | sd =>
      cases hwrite.symm.trans haction
      exact hclear dev hdev hname _ hlo
  | emmc => cases hwrite.symm.trans haction

theorem Did.sparesRoot {command : Command} {s s' : System} (h : command.Did s s') :
    SparesRoot s s' := by
  cases command with
  | status => exact ⟨fun entry hentry => .inl (h.trace ▸ hentry)⟩
  | sdToEmmc =>
      obtain ⟨honly, emmc, hemmc, hroot⟩ := h
      exact EmmcOnly.sparesRoot honly hemmc hroot
  | autoRecover =>
      obtain ⟨honly, emmc, hemmc, hroot⟩ := h
      exact EmmcOnly.sparesRoot honly hemmc hroot
  | emmcToSd =>
      obtain ⟨hcard, sd, hsd, hroot⟩ := h
      refine hcard.sparesRoot fun sd' hsd' hname => ?_
      obtain rfl := Option.some.inj (hsd.symm.trans hsd')
      exact absurd hname hroot
  | sdBackups =>
      obtain ⟨hcard, hspan, sd, hsd, hsize⟩ := h
      refine hcard.sparesRoot fun sd' hsd' _ first hfirst => ?_
      obtain rfl := Option.some.inj (hsd.symm.trans hsd')
      refine ⟨hspan.trans_le hfirst, fun p hp hfits => ?_⟩
      exact (le_imageSpanSectors hp (hfits.trans_lt hsize)).trans hfirst

theorem run_sparesRoot (call : Call) (s : System) :
    ∃ e s', run service call s = .error e s' ∧ SparesRoot s s' := by
  obtain ⟨e, s', hrun⟩ := run_stops service call s
  have hend := wp_error (wp_run service call s) hrun
  refine ⟨e, s', hrun, ?_⟩
  rcases hend with huntouched | ⟨command, -, hdid⟩
  · exact ⟨fun entry hentry => .inl (huntouched.trace ▸ hentry)⟩
  · exact Did.sparesRoot hdid

end RadsatLinux.InstallOs.CommandLine
