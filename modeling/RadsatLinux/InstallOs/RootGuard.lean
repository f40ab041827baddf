import RadsatLinux.InstallOs.EmmcToSd
import RadsatLinux.InstallOs.RootDisk
import RadsatLinux.Media.RestorePaths

/-!
# The disk of the live root

Neither command that copies between the media may write the disk the root file system is on.
Both go by the name that `root_disk_name` prints, and they take it differently when it is
empty.  Sessions are what the system can be in: boots of any media, with U-Boot and the
script writing them in between.
-/

namespace RadsatLinux.InstallOs.RootGuard

open RadsatLinux.Library.Crash RadsatLinux.Library.BlockDevice
open RadsatLinux.UBoot.Hardware RadsatLinux.UBoot.RestoreSafety
open RadsatLinux.InstallOs.Commands RadsatLinux.InstallOs.Script RadsatLinux.InstallOs.Latch
open RadsatLinux.InstallOs.EmmcToSd RadsatLinux.InstallOs.RootDisk

/-! ## Sessions -/

/-- A running system; `live` is the name of the disk that holds the root. -/
structure Session where
  linux : Linux
  durable : Durable
  live : String

namespace Session

variable (session : Session)

def system : System := start session.linux session.durable

/-- What the kernel shows: the devices that the shell finds, and the node of the live disk
where /proc/mounts has an MMC device as the source of the root. -/
structure Booted : Prop where
  names : ∀ dev ∈ session.linux.devs, IsDiskName dev.name
  mounted : isMmcblk (basename session.linux.rootSource) = true →
    IsDiskName session.live ∧ NodeOf session.live session.linux.rootSource

end Session

/-- What stays as it is until the next boot. -/
structure SameBoot (linux linux' : Linux) : Prop where
  devs : linux'.devs = linux.devs
  others : linux'.others = linux.others
  rootSource : linux'.rootSource = linux.rootSource
  rootPartuuid : linux'.rootPartuuid = linux.rootPartuuid

inductive Command where
  | restore (mode : Mode)
  | emmcToSd

variable (service : FramService) (fatFile : Disk → String → Option Disk)

def Command.run : Command → Script Unit
  | .restore mode => installOs service mode
  | .emmcToSd => do
      doEmmcToSd
      throw (.exit 0)

/-- A command that comes to its end, and whatever happens then until the next one. -/
inductive CommandStep (session : Session) : Session → Prop where
  | exit {command : Command} {status : Nat} {s' : System} {linux : Linux}
      (hrun : command.run service session.system = .error (.exit status) s')
      (hsame : SameBoot session.linux linux) :
      CommandStep session ⟨linux, s'.toDurable, session.live⟩

/-- The media a session leaves: nothing is run any more, or a command is cut short. -/
inductive Leaves (session : Session) : Durable → Prop where
  | idle : Leaves session session.durable
  | cut {command : Command} {e : Stop} {s' : System}
      (hrun : command.run service session.system = .error e s') :
      Leaves session s'.toDurable

/-- The sessions on media that were `d₀` once. -/
inductive Reachable (d₀ : Durable) : Session → Prop where
  | boot {session : Session}
      (hrounds : Relation.ReflTransGen (RecoveryRound fatFile) d₀ session.durable)
      (hbooted : session.Booted) : Reachable d₀ session
  | command {session session' : Session} (hreach : Reachable d₀ session)
      (hstep : CommandStep service session session') : Reachable d₀ session'
  | reboot {session session' : Session} {d : Durable} (hreach : Reachable d₀ session)
      (hleft : Leaves service session d)
      (hrounds : Relation.ReflTransGen (RecoveryRound fatFile) d session'.durable)
      (hbooted : session'.Booted) : Reachable d₀ session'

/-! ## What a session keeps -/

/-- No command writes the live disk, and the name of the root disk is right if there is one. -/
structure Session.Guarded (session : Session) : Prop where
  spared : ∀ command e s', Command.run service command session.system = .error e s' →
    ∀ entry ∈ s'.trace, ∀ card, target entry.1 = some card →
      (findCard card session.linux.devs).map BlockDev.name ≠ some session.live
  named : rootDiskName session.system ≠ "" → rootDiskName session.system = session.live

/-- The live root is on the card, and the checks of `do_emmc_to_sd` besides the one for the
root, and the user, would let it be overwritten. -/
def Session.CardAtRisk (session : Session) : Prop :=
  (∃ sd, Fits session.system sd ∧ sd.name = session.live) ∧ Confirmed session.system

/-- The root can be told, or cannot be told and is not at risk. -/
inductive Session.RootTold (session : Session) : Prop where
  | mounted (hmounted : isMmcblk (basename session.linux.rootSource) = true)
      (hname : 'p' ∉ session.live.toList)
  | signature {partuuid : String} {dev : BlockDev}
      (hsource : isMmcblk (basename session.linux.rootSource) = false)
      (hpartuuid : session.linux.rootPartuuid = some partuuid)
      (hfirst : FirstCarrier session.linux.devs (contents session.system) (partuuidSig partuuid)
        dev)
      (hlive : dev.name = session.live)
  | unknown (hsource : isMmcblk (basename session.linux.rootSource) = false)
      (hnone : ∀ partuuid, session.linux.rootPartuuid = some partuuid →
        ∀ dev ∈ session.linux.devs,
          mbrSigLe (contents session.system dev) ≠ partuuidSig partuuid)
      (hspared : ¬ session.CardAtRisk)

/-! ## What the commands write -/

/-- Nothing but the eMMC is written. -/
structure EmmcOnly (s s' : System) : Prop where
  sd : s'.sd = s.sd
  trace : ∀ entry ∈ s'.trace, entry ∈ s.trace ∨ target entry.1 ≠ some .sd

section

variable {service : FramService} {s₀ s : System}

theorem EmmcOnly.cons (h : EmmcOnly s₀ s) {action : Action} {d : Durable}
    (haction : target action ≠ some .sd) :
    ∀ entry ∈ (action, d) :: s.trace, entry ∈ s₀.trace ∨ target entry.1 ≠ some .sd :=
  List.forall_mem_cons.mpr ⟨.inr haction, h.trace⟩

theorem EmmcOnly.writes {first count : Nat} {s' : System} (h : EmmcOnly s₀ s)
    (hwrites : WritesEmmc first count s s') : EmmcOnly s₀ s' := by
  obtain ⟨d, -, htrace⟩ := hwrites.trace
  refine ⟨hwrites.sd.trans h.sd, ?_⟩
  rw [htrace]
  exact h.cons nofun

theorem framSet_emmcOnly (request : FlagSet) (h : EmmcOnly s₀ s) :
    wp (framSet service request) (fun _ => EmmcOnly s₀) (fun _ => EmmcOnly s₀) s := by
  rw [wp_framSet]
  split
  · exact h
  · exact ⟨h.sd, h.cons nofun⟩
  · exact { h with }
  · exact { h with }

theorem emmcOnly_kept (service : FramService) (s₀ : System) :
    Kept service (EmmcOnly s₀) (fun _ => EmmcOnly s₀) where
  writes := EmmcOnly.writes
  stops h _ hwrites := h.writes hwrites
  offset _ h := framSet_emmcOnly _ h
  chunkDone _ h := ⟨h.sd, h.cons nofun⟩
  parts _ h := { h with }

theorem installOs_emmcOnly (mode : Mode) {s : System} (haccepted : Accepted (mode.entry s))
    (hconfirmed : Confirmed (mode.entry s)) :
    wp (installOs service mode) (fun _ _ => False) (fun _ => EmmcOnly (mode.entry s)) s := by
  have hkept := emmcOnly_kept service (mode.entry s)
  refine @installOs_wp service mode s (EmmcOnly (mode.entry s)) (EmmcOnly (mode.entry s)) _
    haccepted hconfirmed hkept ?_ (fun s h => ?_) fun s h => ?_
  · refine wp_seq (framSet_emmcOnly _ ⟨rfl, fun _ => .inl⟩) fun _ s₁ h₁ => ?_
    rw [wp_bind, wp_stopServices]
    exact hkept.signedCopy _ _ { h₁ with }
  · refine wp_mono (verifyEmmcBootable_mounts s) ?_ fun _ _ h => h.elim
    rintro bootable _ ⟨mounts, rfl⟩
    cases bootable <;> exact { h with }
  · exact framClearRecoveryAfterVerify_keeps (fun request s h => framSet_emmcOnly request h)
      ⟨h.sd, h.cons nofun⟩

end

/-- A run of a command on a session: it is refused and does nothing, or it writes one disk
whose name is not that of the root disk. -/
theorem run_cases {service : FramService} {session : Session} {command : Command} {e : Stop}
    {s' : System} (hrun : command.run service session.system = .error e s') :
    (s'.toDurable = session.durable ∧ s'.trace = []) ∨
      (∃ emmc, findCard .emmc session.linux.devs = some emmc ∧
        rootDiskName session.system ≠ "" ∧ rootDiskName session.system ≠ emmc.name ∧
        s'.sd = session.durable.sd ∧ ∀ entry ∈ s'.trace, target entry.1 ≠ some .sd) ∨
      ∃ sd, Fits session.system sd ∧ Confirmed session.system ∧
        rootDiskName session.system ≠ sd.name ∧ s'.emmc = session.durable.emmc ∧
        ∀ entry ∈ s'.trace, target entry.1 = some .sd := by
  cases command with
  | restore mode =>
      change installOs service mode session.system = _ at hrun
      have hentry : (mode.entry session.system).toDurable = session.durable ∧
          (mode.entry session.system).trace = [] := by
        cases mode <;> exact ⟨rfl, rfl⟩
      by_cases haccepted : Accepted (mode.entry session.system)
      · by_cases hconfirmed : Confirmed (mode.entry session.system)
        · have honly := wp_error (installOs_emmcOnly mode haccepted hconfirmed) hrun
          obtain ⟨sd, emmc, -, hemmc, -, -, hne, hother, -⟩ := haccepted
          refine .inr (.inl ⟨emmc, ?_, ?_, ?_, ?_, fun entry hentry' => ?_⟩)
          · cases mode <;> exact hemmc
          · cases mode <;> exact hne
          · cases mode <;> exact hother
          · exact honly.sd.trans (congrArg Durable.sd hentry.1)
          · rcases honly.trace entry hentry' with hold | hspares
            · rw [hentry.2] at hold
              cases hold
            · exact hspares
        · rw [installOs_declined service haccepted hconfirmed] at hrun
          cases hrun
          exact .inl hentry
      · rw [installOs_refused service haccepted] at hrun
        cases hrun
        exact .inl hentry
  | emmcToSd =>
      by_cases hgoes : (∃ sd, Fits session.system sd ∧ rootDiskName session.system ≠ sd.name) ∧
          Confirmed session.system
      · have honly : CardOnly session.system s' := by
          have hspec : wp (Command.run service .emmcToSd) (fun _ _ => False)
              (fun _ => CardOnly session.system) session.system :=
            wp_seq (doEmmcToSd_cardOnly session.system) fun _ _ h => h
          have hend := wp_error hspec hrun
          exact hend
        obtain ⟨⟨sd, hfits, hroot⟩, hconfirmed⟩ := hgoes
        refine .inr (.inr ⟨sd, hfits, hconfirmed, hroot, honly.emmc, fun entry hentry => ?_⟩)
        exact (honly.trace entry hentry).resolve_left nofun
      · obtain ⟨status, hrefused⟩ := doEmmcToSd_refused (not_and_or.mp hgoes |>.imp_left
          fun h sd hfits => not_not.mp fun hne => h ⟨sd, hfits, hne⟩)
        simp only [Command.run, bind, EStateM.bind, hrefused] at hrun
        cases hrun
        exact .inl ⟨rfl, rfl⟩

/-- `do_emmc_to_sd` writes the card once nothing holds it back. -/
theorem emmcToSd_writes {service : FramService} {session : Session} {sd : BlockDev}
    (hfits : Fits session.system sd) (hconfirmed : Confirmed session.system)
    (hroot : rootDiskName session.system ≠ sd.name) :
    ∃ e s', Command.run service .emmcToSd session.system = .error e s' ∧
      ∃ entry ∈ s'.trace, target entry.1 = some .sd := by
  have hspec : wp (Command.run service .emmcToSd) (fun _ _ => False) (fun _ => CardWritten)
      session.system :=
    wp_seq (doEmmcToSd_cardWritten hfits hroot hconfirmed) fun _ _ h => h
  cases hrun : Command.run service .emmcToSd session.system with
  | ok _ _ => exact (wp_ok hspec hrun).elim
  | error e s' => exact ⟨e, s', rfl, wp_error hspec hrun⟩

/-! ## When the root is safe -/

section

variable {service : FramService} {session : Session}

theorem rootDiskName_of_source
    (h : isMmcblk (basename session.linux.rootSource) = true) :
    rootDiskName session.system = beforeP (basename session.linux.rootSource) :=
  rootDisk_of_mmcblk _ _ _ h

theorem rootDiskName_of_partuuid {partuuid : String}
    (h : isMmcblk (basename session.linux.rootSource) = false)
    (hpartuuid : session.linux.rootPartuuid = some partuuid) :
    rootDiskName session.system = diskBySignature session.linux.devs (contents session.system)
      (partuuidSig partuuid) := by
  change rootDisk session.linux.rootSource session.linux.rootPartuuid _ _ = _
  unfold rootDisk
  rw [if_neg (ne_true_of_eq_false h), hpartuuid]
  rfl

/-- Where no name is printed, nothing but `do_emmc_to_sd` can do harm. -/
theorem rootDiskName_empty (h : isMmcblk (basename session.linux.rootSource) = false)
    (hnone : ∀ partuuid, session.linux.rootPartuuid = some partuuid →
      ∀ dev ∈ session.linux.devs, mbrSigLe (contents session.system dev) ≠ partuuidSig partuuid) :
    rootDiskName session.system = "" := by
  cases hpartuuid : session.linux.rootPartuuid with
  | none =>
      change rootDisk session.linux.rootSource session.linux.rootPartuuid _ _ = _
      unfold rootDisk
      rw [if_neg (ne_true_of_eq_false h), hpartuuid]
  | some partuuid =>
      rw [rootDiskName_of_partuuid h hpartuuid]
      rcases diskBySignature_cases session.linux.devs (contents session.system)
        (partuuidSig partuuid) with ⟨dev, hdev, hfirst, -⟩ | ⟨-, hempty⟩
      · exact absurd hfirst.1 (hnone partuuid hpartuuid dev hdev)
      · exact hempty

/-- The name that is printed is that of the live disk, or none is printed. -/
theorem Session.RootTold.name (h : session.RootTold) (hbooted : session.Booted) :
    rootDiskName session.system = session.live ∨
      rootDiskName session.system = "" ∧ ¬ session.CardAtRisk := by
  cases h with
  | mounted hmounted hname =>
      left
      obtain ⟨hdisk, hnode⟩ := hbooted.mounted hmounted
      rw [rootDiskName_of_source hmounted]
      exact (hnode.rootDisk hdisk).2.mpr hname
  | @signature partuuid dev hsource hpartuuid hfirst hlive =>
      left
      rw [rootDiskName_of_partuuid hsource hpartuuid, hfirst.name_eq]
      exact hlive
  | unknown hsource hnone hspared => exact .inr ⟨rootDiskName_empty hsource hnone, hspared⟩

theorem guarded_of_rootTold (hbooted : session.Booted) (h : session.RootTold) :
    session.Guarded service := by
  have hname := h.name hbooted
  refine ⟨fun command e s' hrun entry hentry card hcard hlive => ?_, fun hne => ?_⟩
  · rcases run_cases hrun with ⟨-, htrace⟩ | ⟨emmc, hemmc, hne, hother, -, htrace⟩ |
      ⟨sd, hfits, hconfirmed, hroot, -, htrace⟩
    · rw [htrace] at hentry
      cases hentry
    · cases card with
      | sd => exact htrace entry hentry hcard
      | emmc =>
          rw [hemmc] at hlive
          have hlive : emmc.name = session.live := Option.some.inj hlive
          rcases hname with heq | ⟨hempty, -⟩
          · exact hother (heq.trans hlive.symm)
          · exact hne hempty
    · obtain rfl : card = .sd := Option.some.inj (hcard.symm.trans (htrace entry hentry))
      have hsd : findCard .sd session.linux.devs = some sd := hfits.1
      rw [hsd] at hlive
      have hlive : sd.name = session.live := Option.some.inj hlive
      rcases hname with heq | ⟨-, hspared⟩
      · exact hroot (heq.trans hlive.symm)
      · exact hspared ⟨⟨sd, hfits, hlive⟩, hconfirmed⟩
  · exact hname.resolve_right fun hempty => hne hempty.1

theorem rootTold_of_guarded (hbooted : session.Booted) (h : session.Guarded service) :
    session.RootTold := by
  cases hsource : isMmcblk (basename session.linux.rootSource) with
  | true =>
      obtain ⟨hdisk, hnode⟩ := hbooted.mounted hsource
      have hname := rootDiskName_of_source hsource
      refine .mounted hsource ((hnode.rootDisk hdisk).2.mp ?_)
      rw [← hname]
      refine h.named ?_
      rw [hname]
      exact beforeP_ne_empty hsource
  | false =>
      have hunknown (hnone : ∀ partuuid, session.linux.rootPartuuid = some partuuid →
          ∀ dev ∈ session.linux.devs,
            mbrSigLe (contents session.system dev) ≠ partuuidSig partuuid) :
          session.RootTold := by
        refine .unknown hsource hnone ?_
        rintro ⟨⟨sd, hfits, hlive⟩, hconfirmed⟩
        have hsd : findCard .sd session.linux.devs = some sd := hfits.1
        have hdev : IsDiskName sd.name := hbooted.names sd (List.mem_of_find?_eq_some hsd)
        have hroot : rootDiskName session.system ≠ sd.name := by
          rw [rootDiskName_empty hsource hnone]
          exact hdev.ne_empty.symm
        obtain ⟨e, s', hrun, entry, hentry, hcard⟩ := emmcToSd_writes hfits hconfirmed hroot
        refine h.spared .emmcToSd e s' hrun entry hentry .sd hcard ?_
        rw [hsd, ← hlive]
        rfl
      cases hpartuuid : session.linux.rootPartuuid with
      | none =>
          refine hunknown fun _ heq => ?_
          cases hpartuuid.symm.trans heq
      | some partuuid =>
          rcases diskBySignature_cases session.linux.devs (contents session.system)
            (partuuidSig partuuid) with ⟨dev, hdev, hfirst, hname⟩ | ⟨hnone, -⟩
          · have hname := (rootDiskName_of_partuuid hsource hpartuuid).trans hname
            have hne : rootDiskName session.system ≠ "" := by
              rw [hname]
              exact (hbooted.names dev hdev).ne_empty
            exact .signature hsource hpartuuid hfirst (hname.symm.trans (h.named hne))
          · refine hunknown fun partuuid' hpartuuid' => ?_
            obtain rfl := Option.some.inj (hpartuuid.symm.trans hpartuuid')
            exact hnone

end

/-! ## Runs -/

section

variable {service : FramService} {fatFile : Disk → String → Option Disk}

theorem CommandStep.booted {session session' : Session}
    (hstep : CommandStep service session session') (hbooted : session.Booted) :
    session'.Booted ∧ session'.live = session.live ∧ SameBoot session.linux session'.linux := by
  obtain ⟨hrun, hsame⟩ := hstep
  refine ⟨⟨?_, ?_⟩, rfl, hsame⟩
  · rw [hsame.devs]
    exact hbooted.names
  · rw [hsame.rootSource]
    exact hbooted.mounted

theorem reachable_booted {d₀ : Durable} {session : Session}
    (hreach : Reachable service fatFile d₀ session) : session.Booted := by
  induction hreach with
  | boot _ hbooted => exact hbooted
  | command _ hstep ih => exact (hstep.booted ih).1
  | reboot _ _ _ hbooted => exact hbooted

/-- In every session that boots, restores and commands lead to, whole or cut short, the live
disk is safe exactly when the root can be told or is not at risk. -/
theorem guarded_iff {d₀ : Durable} {session : Session}
    (hreach : Reachable service fatFile d₀ session) :
    session.Guarded service ↔ session.RootTold :=
  have hbooted := reachable_booted hreach
  ⟨rootTold_of_guarded hbooted, guarded_of_rootTold hbooted⟩

/-- A command that is given while the root is told leaves the live disk as it was. -/
theorem CommandStep.keeps_root {session session' : Session} (hbooted : session.Booted)
    (htold : session.RootTold) (hstep : CommandStep service session session') {dev : BlockDev}
    (hlive : dev.name = session.live) :
    contents session'.system dev = contents session.system dev := by
  cases hstep with
  | @exit command status s' linux hrun hsame =>
      have hname := htold.name hbooted
      have hsd : findCard .sd session.linux.devs = some dev → s'.sd = session.durable.sd := by
        intro hdev
        rcases run_cases hrun with ⟨hdurable, -⟩ | ⟨-, -, -, -, hsd, -⟩ |
          ⟨sd, hfits, hconfirmed, hroot, -, -⟩
        · exact congrArg Durable.sd hdurable
        · exact hsd
        · have hlive' : sd.name = session.live :=
            (congrArg BlockDev.name (Option.some.inj (hfits.1.symm.trans hdev))).trans hlive
          rcases hname with heq | ⟨-, hspared⟩
          · exact absurd (heq.trans hlive'.symm) hroot
          · exact absurd ⟨⟨sd, hfits, hlive'⟩, hconfirmed⟩ hspared
      have hemmc : findCard .emmc session.linux.devs = some dev →
          s'.emmc = session.durable.emmc := by
        intro hdev
        rcases run_cases hrun with ⟨hdurable, -⟩ | ⟨emmc, hemmc, hne, hother, -, -⟩ |
          ⟨-, -, -, -, hemmc, -⟩
        · exact congrArg Durable.emmc hdurable
        · have hlive' : emmc.name = session.live :=
            (congrArg BlockDev.name (Option.some.inj (hemmc.symm.trans hdev))).trans hlive
          rcases hname with heq | ⟨hempty, -⟩
          · exact absurd (heq.trans hlive'.symm) hother
          · exact absurd hempty hne
        · exact hemmc
      change (if findCard .sd linux.devs = some dev then s'.sd
        else if findCard .emmc linux.devs = some dev then s'.emmc else linux.others dev.name) =
          if findCard .sd session.linux.devs = some dev then session.durable.sd
          else if findCard .emmc session.linux.devs = some dev then session.durable.emmc
          else session.linux.others dev.name
      rw [hsame.devs, hsame.others]
      split
      · next hdev => exact hsd hdev
      · split
        · next hdev => exact hemmc hdev
        · rfl

/-- So does any number of them in one boot. -/
theorem commands_keep_root {session session' : Session} (hbooted : session.Booted)
    (hruns : Relation.ReflTransGen
      (fun a b => a.RootTold ∧ CommandStep service a b) session session') {dev : BlockDev}
    (hlive : dev.name = session.live) :
    contents session'.system dev = contents session.system dev := by
  have hall : session'.Booted ∧ session'.live = session.live ∧
      contents session'.system dev = contents session.system dev := by
    induction hruns with
    | refl => exact ⟨hbooted, rfl, rfl⟩
    | tail _ hstep ih =>
        obtain ⟨hbooted', hlive', hkept⟩ := ih
        obtain ⟨htold, hstep⟩ := hstep
        obtain ⟨hnext, hnextLive, -⟩ := hstep.booted hbooted'
        refine ⟨hnext, hnextLive.trans hlive', ?_⟩
        exact (hstep.keeps_root hbooted' htold (hlive.trans hlive'.symm)).trans hkept
  exact hall.2.2

end

/-! ## Two disks with one signature -/

open RadsatLinux.Fram.Record RadsatLinux.Fram.Memory RadsatLinux.UBoot.Recovery
open RadsatLinux.InstallOs.RecordService RadsatLinux.Media.RestorePaths

theorem cardLinux_names : ∀ dev ∈ cardLinux.devs, IsDiskName dev.name := by decide

/-- The root is on the card, and the card is what /proc/mounts has. -/
theorem guarded_cardLinux :
    (Session.mk cardLinux blankEmmc "mmcblk0").Guarded recordService := by
  have hbooted : (Session.mk cardLinux blankEmmc "mmcblk0").Booted :=
    ⟨cardLinux_names, fun _ => ⟨⟨by decide, by decide⟩, .inr ⟨"2", by decide, rfl⟩⟩⟩
  have hreach : Reachable recordService kernelOfCard blankEmmc
      ⟨cardLinux, blankEmmc, "mmcblk0"⟩ := .boot .refl hbooted
  exact (guarded_iff hreach).mpr (.mounted rfl (by decide))

/-- The kernel has the eMMC before the card, and mounts its root by the PARTUUID of the card. -/
def partuuidLinux : Linux :=
  { cardLinux with
    devs := [⟨"mmcblk0", some .emmc, 8388608, true⟩, ⟨"mmcblk1", some .sd, 8388608, true⟩]
    rootSource := "/dev/root"
    rootPartuuid := some "4b4c4e58-02" }

theorem partuuidLinux_names : ∀ dev ∈ partuuidLinux.devs, IsDiskName dev.name := by decide

theorem partuuidLinux_source : isMmcblk (basename partuuidLinux.rootSource) = false := by decide

theorem cardSignature_sig : mbrSigLe (fun _ => cardSignature) = partuuidSig "4b4c4e58-02" := by
  decide

theorem contents_partuuidLinux (d : Durable) :
    contents (Session.mk partuuidLinux d "mmcblk1").system
      ⟨"mmcblk0", some .emmc, 8388608, true⟩ = d.emmc := by
  have hsd : findCard .sd partuuidLinux.devs ≠ some ⟨"mmcblk0", some .emmc, 8388608, true⟩ := by
    decide
  have hemmc : findCard .emmc partuuidLinux.devs = some ⟨"mmcblk0", some .emmc, 8388608, true⟩ := by
    decide
  exact (if_neg hsd).trans (if_pos hemmc)

/-- Where both disks have the signature of the card, the first one is taken for the root. -/
theorem rootDiskName_partuuidLinux {d : Durable} (h : d.emmc 0 = cardSignature) :
    rootDiskName (Session.mk partuuidLinux d "mmcblk1").system = "mmcblk0" := by
  have hfirst : FirstCarrier partuuidLinux.devs
      (contents (Session.mk partuuidLinux d "mmcblk1").system) (partuuidSig "4b4c4e58-02")
      ⟨"mmcblk0", some .emmc, 8388608, true⟩ := by
    refine ⟨?_, [], [⟨"mmcblk1", some .sd, 8388608, true⟩], rfl, nofun⟩
    rw [contents_partuuidLinux, ← cardSignature_sig]
    exact mbrSigLe_congr h
  rw [@rootDiskName_of_partuuid (Session.mk partuuidLinux d "mmcblk1") "4b4c4e58-02"
    partuuidLinux_source rfl]
  exact hfirst.name_eq

/-- U-Boot restores a blank eMMC, with the signature of the card on it, and the board boots
with the root on the card.  The root disk is taken for the eMMC, and `do_emmc_to_sd`
overwrites the card. -/
theorem not_guarded_restoredEmmc :
    ∃ d, Reachable recordService kernelOfCard blankEmmc ⟨partuuidLinux, d, "mmcblk1"⟩ ∧
      (∃ e s', Command.emmcToSd.run recordService
          (Session.mk partuuidLinux d "mmcblk1").system = .error e s' ∧
        ∃ entry ∈ s'.trace, target entry.1 = some .sd) ∧
      ¬ (Session.mk partuuidLinux d "mmcblk1").Guarded recordService := by
  have hwanted : ¬ HasKernel kernelOfCard blankEmmc.emmc := by
    rintro (h | h) <;> exact absurd h (by decide)
  obtain ⟨b, hboot, -, hsafe, hagree⟩ := recoveryBoot_completes (fun _ _ => rfl)
    (Nat.le_refl span) blankEmmc_resumeSafe (quietPowerOn_quiet _) blankEmmc_restorable
    (Or.inl hwanted)
  have hround : RecoveryRound kernelOfCard blankEmmc b.toDurable :=
    .done (by simp [PowerOn.I2cReliable, quietPowerOn]) hboot
  have hreach : Reachable recordService kernelOfCard blankEmmc
      ⟨partuuidLinux, b.toDurable, "mmcblk1"⟩ := by
    refine .boot (.single hround) ⟨partuuidLinux_names, fun hmounted => ?_⟩
    cases partuuidLinux_source.symm.trans hmounted
  have hsector : b.emmc 0 = cardSignature := by
    rw [hagree 0 (by decide), hsafe.sd]
    rfl
  have hname := rootDiskName_partuuidLinux hsector
  refine ⟨b.toDurable, hreach, ?_, fun hguarded => ?_⟩
  · have hfits : Fits (Session.mk partuuidLinux b.toDurable "mmcblk1").system
        ⟨"mmcblk1", some .sd, 8388608, true⟩ :=
      ⟨rfl, rfl, by change 0 < imageSpanSectors genimageCard.parts; decide +kernel,
        by change imageSpanSectors genimageCard.parts ≤ 8388608; decide +kernel⟩
    refine emmcToSd_writes hfits (.inl rfl) ?_
    rw [hname]
    decide
  · have hlive := hguarded.named (by rw [hname]; decide)
    have hne : ("mmcblk0" : String) ≠ "mmcblk1" := by decide
    exact hne (hname.symm.trans hlive)

end RadsatLinux.InstallOs.RootGuard
