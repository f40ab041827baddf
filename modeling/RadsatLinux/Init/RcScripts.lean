import Mathlib.Data.List.Sort
import Mathlib.Data.String.Basic

/-!
# Start and stop scripts

`rcS` starts the scripts of /etc/init.d and then those of /home/system/etc/init.d, `rcK` is
to stop them in the reverse order.  Both make their list from two calls of `ls` joined by
`&&`, and `flush-filesystems` unmounts /home before it calls `rcK`.
-/

namespace RadsatLinux.Init.RcScripts

/-! ## Directories -/

/-- What a name is: a regular file or a link to one, a symbolic link to nothing, or some other
file that is not regular. -/
inductive Entry where
  | script
  | dangling
  | other
  deriving DecidableEq

/-- A directory, with its names in the order in which the shell expands a pattern.  A name is
one word to the shell. -/
structure Directory where
  entries : List (String × Entry)
  sorted : entries.Pairwise fun a b => a.1 < b.1

/-- The pattern `S??*`. -/
def isScriptName (name : String) : Bool :=
  match name.toList with
  | 'S' :: _ :: _ :: _ => true
  | _ => false

def Directory.glob (dir : Directory) : List (String × Entry) :=
  dir.entries.filter fun entry => isScriptName entry.1

inductive InitDir where
  | system
  | user
  deriving DecidableEq

structure Script where
  dir : InitDir
  name : String
  deriving DecidableEq

def InitDir.path : InitDir → String
  | .system => "/etc/init.d/"
  | .user => "/home/system/etc/init.d/"

def Script.path (script : Script) : String := script.dir.path ++ script.name

/-- /etc/init.d and /home/system/etc/init.d. -/
structure Tree where
  system : Directory
  user : Directory

def Tree.dir (tree : Tree) : InitDir → Directory
  | .system => tree.system
  | .user => tree.user

/-- `[ -f "$i" ]` -/
def Tree.isFile (tree : Tree) (script : Script) : Bool :=
  decide ((script.name, Entry.script) ∈ (tree.dir script.dir).entries)

/-! ## The two scripts -/

/-- What a command of a list prints, and whether its status is 0. -/
structure Output where
  words : List Script
  ok : Bool

/-- `first && second` -/
def Output.andThen (first second : Output) : Output :=
  if first.ok then ⟨first.words ++ second.words, second.ok⟩ else first

/-- `ls DIR/S??*`.  A pattern without a match stands for itself, and no such file exists; a
link to nothing is an error as well, and `ls` lists the rest. -/
def ls (tree : Tree) (dir : InitDir) : Output where
  words := ((tree.dir dir).glob.filter fun entry => entry.2 ≠ .dangling).map fun entry =>
    ⟨dir, entry.1⟩
  ok := !(tree.dir dir).glob.isEmpty && (tree.dir dir).glob.all fun entry => entry.2 ≠ .dangling

/-- `ls -r` -/
def lsReverse (tree : Tree) (dir : InitDir) : Output :=
  { ls tree dir with words := (ls tree dir).words.reverse }

inductive Action where
  | start
  | stop
  deriving DecidableEq

/-- A script run with an argument, as a subprocess or sourced in a subshell. -/
structure Invocation where
  script : Script
  action : Action
  sourced : Bool
  deriving DecidableEq

/-- `case "$i" in *.sh)` -/
def invoke (action : Action) (script : Script) : Invocation :=
  ⟨script, action, ".sh".toList.isSuffixOf script.path.toList⟩

/-- The loop of both scripts. -/
def runScripts (tree : Tree) (action : Action) (list : Output) : List Invocation :=
  (list.words.filter tree.isFile).map (invoke action)

def rcS (tree : Tree) : List Invocation :=
  runScripts tree .start ((ls tree .system).andThen (ls tree .user))

def rcK (tree : Tree) : List Invocation :=
  runScripts tree .stop ((lsReverse tree .user).andThen (lsReverse tree .system))

/-- After `umount -l /home` in `flush-filesystems`, if it succeeds, /home holds what the root file
system has there. -/
def Tree.flushed (tree : Tree) (unmounted : Bool) (underneath : Directory) : Tree :=
  if unmounted then { tree with user := underneath } else tree

/-! ## What they are for -/

def started (tree : Tree) : List Script := (rcS tree).map Invocation.script

def stopped (tree : Tree) : List Script := (rcK tree).map Invocation.script

/-- Of the scripts started at boot, those that are still there are stopped, each once and in
the reverse order. -/
def Mirrors (boot shutdown : Tree) : Prop :=
  (stopped shutdown).filter (fun script => decide (script ∈ started boot)) =
    ((started boot).filter shutdown.isFile).reverse

instance (boot shutdown : Tree) : Decidable (Mirrors boot shutdown) :=
  inferInstanceAs (Decidable (_ = _))

/-- The scripts of a directory. -/
def Directory.scripts (dir : Directory) : List String :=
  (dir.glob.filter fun entry => entry.2 = .script).map Prod.fst

/-- `ls` prints them, and has no error to report. -/
def Directory.Listed (dir : Directory) : Prop :=
  dir.glob ≠ [] ∧ ∀ entry ∈ dir.glob, entry.2 ≠ .dangling

instance (dir : Directory) : Decidable dir.Listed := inferInstanceAs (Decidable (_ ∧ _))

theorem ls_ok (tree : Tree) (dir : InitDir) : (ls tree dir).ok = decide (tree.dir dir).Listed := by
  rw [Bool.eq_iff_iff, decide_eq_true_eq]
  unfold ls Directory.Listed
  dsimp only
  rw [Bool.and_eq_true, Bool.not_eq_true', List.isEmpty_eq_false_iff, List.all_eq_true]
  simp only [decide_eq_true_eq]

/-- The scripts of the user directory that were started. -/
def Tree.userStarted (boot : Tree) : List String :=
  if boot.system.Listed then boot.user.scripts else []

/-! ## Order -/

/-- Two strictly sorted lists have their common elements in the same order. -/
theorem filter_mem_comm {names names' : List String} (h : names.Pairwise (· < ·))
    (h' : names'.Pairwise (· < ·)) :
    names.filter (fun name => decide (name ∈ names')) =
      names'.filter (fun name => decide (name ∈ names)) := by
  have hnodup := (h.imp fun hlt => ne_of_lt hlt).filter fun name => decide (name ∈ names')
  have hnodup' := (h'.imp fun hlt => ne_of_lt hlt).filter fun name => decide (name ∈ names)
  refine List.Perm.eq_of_pairwise ?_ (h.filter _) (h'.filter _) ?_
  · exact fun a b _ _ hab hba => absurd hba (lt_asymm hab)
  · refine (List.perm_ext_iff_of_nodup hnodup hnodup').mpr fun name => ?_
    rw [List.mem_filter, List.mem_filter, decide_eq_true_eq, decide_eq_true_eq]
    exact And.comm

theorem Directory.scripts_sorted (dir : Directory) : dir.scripts.Pairwise (· < ·) :=
  List.pairwise_map.mpr ((dir.sorted.filter _).filter _)

theorem Tree.userStarted_sorted (boot : Tree) : boot.userStarted.Pairwise (· < ·) := by
  unfold Tree.userStarted
  split
  · exact boot.user.scripts_sorted
  · exact List.Pairwise.nil

/-- A name is only one kind of file. -/
theorem Directory.entry_unique (dir : Directory) {name : String} {entry entry' : Entry}
    (h : (name, entry) ∈ dir.entries) (h' : (name, entry') ∈ dir.entries) : entry = entry' := by
  have hnodup : (dir.entries.map Prod.fst).Nodup :=
    List.pairwise_map.mpr (dir.sorted.imp fun hlt => ne_of_lt hlt)
  exact congrArg Prod.snd (List.inj_on_of_nodup_map hnodup h h' rfl)

theorem Directory.mem_scripts (dir : Directory) (name : String) :
    name ∈ dir.scripts ↔ isScriptName name = true ∧ (name, Entry.script) ∈ dir.entries := by
  simp only [scripts, glob, List.mem_map, List.mem_filter, decide_eq_true_eq, Prod.exists]
  constructor
  · rintro ⟨_, _, ⟨⟨hmem, hname⟩, rfl⟩, rfl⟩
    exact ⟨hname, hmem⟩
  · rintro ⟨hname, hmem⟩
    exact ⟨name, .script, ⟨⟨hmem, hname⟩, rfl⟩, rfl⟩

/-- Of what `ls` prints, the loop runs the scripts. -/
theorem ls_files (tree : Tree) (dir : InitDir) :
    (ls tree dir).words.filter tree.isFile = (tree.dir dir).scripts.map (Script.mk dir) := by
  unfold ls Directory.scripts
  dsimp only
  rw [List.filter_map, List.filter_filter, List.map_map]
  congr 1
  refine List.filter_congr fun entry hentry => ?_
  have hmem : entry ∈ (tree.dir dir).entries := (List.mem_filter.mp hentry).1
  have hfile : (entry.1, Entry.script) ∈ (tree.dir dir).entries ↔ entry.2 = .script := by
    constructor
    · exact fun h => (Directory.entry_unique _ h hmem).symm
    · intro heq
      rw [← heq]
      exact hmem
  rw [Bool.eq_iff_iff, Bool.and_eq_true, decide_eq_true_eq, decide_eq_true_eq]
  change decide _ = true ∧ _ ↔ _
  rw [decide_eq_true_eq, hfile]
  constructor
  · exact And.left
  · exact fun heq => ⟨heq, fun hdangling => Entry.noConfusion (heq.symm.trans hdangling)⟩

/-! ## The lists of the two scripts -/

theorem runScripts_scripts (tree : Tree) (action : Action) (list : Output) :
    (runScripts tree action list).map Invocation.script = list.words.filter tree.isFile := by
  rw [runScripts, List.map_map]
  exact List.map_id _

theorem started_eq (tree : Tree) : started tree =
    tree.system.scripts.map (Script.mk .system) ++ tree.userStarted.map (Script.mk .user) := by
  have hok : (ls tree .system).ok = decide tree.system.Listed := ls_ok tree .system
  rw [started, rcS, runScripts_scripts, Output.andThen, hok, Tree.userStarted]
  by_cases hlisted : tree.system.Listed
  · rw [if_pos (decide_eq_true hlisted), if_pos hlisted, List.filter_append, ls_files, ls_files]
    rfl
  · rw [if_neg (by rwa [decide_eq_true_eq]), if_neg hlisted, ls_files, List.map_nil,
      List.append_nil]
    rfl

theorem stopped_eq (tree : Tree) : stopped tree =
    (tree.user.scripts.map (Script.mk .user)).reverse ++
      ((if tree.user.Listed then tree.system.scripts else []).map (Script.mk .system)).reverse := by
  have hwords (dir : InitDir) : (lsReverse tree dir).words.filter tree.isFile =
      ((tree.dir dir).scripts.map (Script.mk dir)).reverse := by
    change (ls tree dir).words.reverse.filter tree.isFile = _
    rw [List.filter_reverse, ls_files]
  have hok : (lsReverse tree .user).ok = decide tree.user.Listed := ls_ok tree .user
  rw [stopped, rcK, runScripts_scripts, Output.andThen, hok]
  by_cases hlisted : tree.user.Listed
  · rw [if_pos (decide_eq_true hlisted), if_pos hlisted, List.filter_append, hwords, hwords]
    rfl
  · rw [if_neg (by rwa [decide_eq_true_eq]), if_neg hlisted, hwords, List.map_nil,
      List.reverse_nil, List.append_nil]
    rfl

/-- The names in both of two lists, in the order of the first. -/
def common (names names' : List String) : List String :=
  names.filter fun name => decide (name ∈ names')

theorem common_eq_nil (names names' : List String) :
    common names names' = [] ↔ ∀ name ∈ names, name ∉ names' := by
  rw [common, List.filter_eq_nil_iff]
  exact forall₂_congr fun _ _ => not_congr decide_eq_true_iff

theorem mem_started (boot : Tree) (name : String) :
    (⟨.system, name⟩ ∈ started boot ↔ name ∈ boot.system.scripts) ∧
      (⟨.user, name⟩ ∈ started boot ↔ name ∈ boot.userStarted) := by
  rw [started_eq]
  simp only [List.mem_append, List.mem_map, Script.mk.injEq, reduceCtorEq, false_and, and_false,
    exists_false, or_false, false_or, true_and, exists_eq_right, and_self]

theorem stopped_started (boot shutdown : Tree) :
    (stopped shutdown).filter (fun script => decide (script ∈ started boot)) =
      ((common shutdown.user.scripts boot.userStarted).map (Script.mk .user)).reverse ++
      ((if shutdown.user.Listed then common shutdown.system.scripts boot.system.scripts
        else []).map (Script.mk .system)).reverse := by
  have hkept (dir : InitDir) (names names' : List String)
      (h : ∀ name, Script.mk dir name ∈ started boot ↔ name ∈ names') :
      (names.map (Script.mk dir)).filter (fun script => decide (script ∈ started boot)) =
        (common names names').map (Script.mk dir) := by
    rw [List.filter_map]
    congr 1
    exact List.filter_congr fun name _ => decide_eq_decide.mpr (h name)
  rw [stopped_eq, List.filter_append, List.filter_reverse, List.filter_reverse,
    hkept .user _ _ fun name => (mem_started boot name).2,
    hkept .system _ _ fun name => (mem_started boot name).1]
  split
  · rfl
  · rfl

theorem started_present (boot shutdown : Tree) :
    ((started boot).filter shutdown.isFile).reverse =
      ((common boot.userStarted shutdown.user.scripts).map (Script.mk .user)).reverse ++
      ((common boot.system.scripts shutdown.system.scripts).map (Script.mk .system)).reverse := by
  have hkept (dir : InitDir) (names : List String) (h : ∀ name ∈ names, isScriptName name = true) :
      (names.map (Script.mk dir)).filter shutdown.isFile =
        (common names (shutdown.dir dir).scripts).map (Script.mk dir) := by
    rw [List.filter_map]
    congr 1
    refine List.filter_congr fun name hname => decide_eq_decide.mpr ?_
    rw [Directory.mem_scripts]
    exact (and_iff_right (h name hname)).symm
  have huser : ∀ name ∈ boot.userStarted, isScriptName name = true := by
    intro name hname
    unfold Tree.userStarted at hname
    split at hname
    · exact ((Directory.mem_scripts _ _).mp hname).1
    · cases hname
  rw [started_eq, List.filter_append, List.reverse_append]
  rw [hkept .system _ fun name hname => ((Directory.mem_scripts _ _).mp hname).1]
  exact congrArg (· ++ _) (congrArg List.reverse (hkept .user _ huser))

/-! ## When the stops mirror the starts -/

/-- The stops mirror the starts exactly if `ls` has no error to report about the scripts of the
user directory at shutdown, or none of the system scripts started at boot is still there. -/
theorem rcK_mirrors_iff (boot shutdown : Tree) : Mirrors boot shutdown ↔
    shutdown.user.Listed ∨ ∀ name ∈ boot.system.scripts, name ∉ shutdown.system.scripts := by
  have huser : common shutdown.user.scripts boot.userStarted =
      common boot.userStarted shutdown.user.scripts :=
    filter_mem_comm shutdown.user.scripts_sorted boot.userStarted_sorted
  have hsystem : common shutdown.system.scripts boot.system.scripts =
      common boot.system.scripts shutdown.system.scripts :=
    filter_mem_comm shutdown.system.scripts_sorted boot.system.scripts_sorted
  rw [Mirrors, stopped_started, started_present, huser, hsystem, List.append_cancel_left_eq]
  by_cases hlisted : shutdown.user.Listed
  · rw [if_pos hlisted]
    exact ⟨fun _ => .inl hlisted, fun _ => rfl⟩
  · rw [if_neg hlisted]
    constructor
    · intro hempty
      refine .inr ((common_eq_nil _ _).mp ?_)
      exact List.map_eq_nil_iff.mp (List.reverse_eq_nil_iff.mp hempty.symm)
    · rintro (h | hgone)
      · exact absurd h hlisted
      · rw [(common_eq_nil _ _).mpr hgone]

/-- The overlays of the board: no script in /home/system/etc/init.d. -/
def boardTree : Tree where
  system := ⟨[("S01cpufreq", .script), ("S02uboot-env", .script), ("S50dropbear", .script),
    ("S79mram-env-sync", .script), ("S92radsat-boot-stamp", .script), ("S99kubos-verify", .script),
    ("rcK", .script), ("rcS", .script)], by decide⟩
  user := ⟨[(".empty", .script)], by decide⟩

/-- The scripts of the board are started, and none is stopped. -/
theorem not_mirrors_board :
    ¬ Mirrors boardTree (boardTree.flushed true ⟨[(".empty", .script)], by decide⟩) := by
  decide +kernel

end RadsatLinux.Init.RcScripts
