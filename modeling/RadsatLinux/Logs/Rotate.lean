import Mathlib
import RadsatLinux.Library.Calendar
import RadsatLinux.Library.Directory
import RadsatLinux.Library.ShellText

/-!
# Log rotation

`log-rotate.sh` keeps the last archives of a log beside it in `/var/log` and knows their age
by their names, which are clock readings.  What a rotation destroys is compared with the order
in which the archives were rotated in, whatever the clock reads.
-/

namespace RadsatLinux.Logs.Rotate

open RadsatLinux.Library.Calendar
open RadsatLinux.Library.Directory
open RadsatLinux.Library.ShellText

abbrev Name := List Char

variable {α : Type}

/-! ## The script -/

/-- The name of a log, without a character that means something to the shell or to `find`. -/
structure LogName where
  text : Name
  plain : ∀ ch ∈ text, ch ∉ ['*', '?', '[', '\\', '/', ' ', '\t', '\n']

/-- What the clock may read: a time of a year with four digits. -/
structure Reading extends Clock where
  inRange : toClock.InRange
  fourDigits : 1000 ≤ toClock.year ∧ toClock.year < 10000

/-- `date +%Y.%m.%d-%H.%M.%S` -/
def stamp (now : Reading) : Name :=
  padded 4 now.year ++ '.' :: (padded 2 now.month ++ '.' :: (padded 2 now.day ++ '-' ::
    (padded 2 now.hour ++ '.' :: (padded 2 now.minute ++ '.' :: padded 2 now.second))))

def maxCount : Nat := 9

/-- `find /var/log/ -maxdepth 1 -name "$1.*"` -/
def archives (log : LogName) (d : Dir Name α) : List (File Name α) :=
  d.select (glob (log.text ++ ['.', '*']))

/-- `find /var/log/ -maxdepth 1 -name "$1.*" | sort -r | tail -n1` -/
def oldest (log : LogName) (d : Dir Name α) : Option Name :=
  (((archives log d).map File.name).mergeSort (fun a b => decide (a ≥ b))).getLast?

def prune (log : LogName) (d : Dir Name α) : Dir Name α :=
  if maxCount ≤ (archives log d).length then
    match oldest log d with
    | some name => d.remove name
    | none => d
  else d

def logRotate (log : LogName) (now : Reading) (d : Dir Name α) : Dir Name α :=
  (prune log d).move log.text (log.text ++ '.' :: stamp now)

/-! ## Rotations -/

/-- What is in the log when it is rotated, and what the clock reads then. -/
structure Rotation (α : Type) where
  content : α
  now : Reading

def Rotation.archive (log : LogName) (r : Rotation α) : File Name α :=
  ⟨log.text ++ '.' :: stamp r.now, r.content⟩

def rotation (log : LogName) (r : Rotation α) (d : Dir Name α) : Dir Name α :=
  logRotate log r.now (d.put log.text r.content)

theorem glob_log (log : LogName) (name : Name) :
    glob (log.text ++ ['.', '*']) name = true ↔ log.text ++ ['.'] <+: name := by
  have hplain : ∀ ch ∈ log.text ++ ['.'], ch ≠ '*' ∧ ch ≠ '?' := by
    intro ch hch
    rcases List.mem_append.mp hch with htext | hdot
    · have hspecial := log.plain ch htext
      constructor
      · rintro rfl
        exact hspecial (by decide)
      · rintro rfl
        exact hspecial (by decide)
    · obtain rfl : ch = '.' := List.mem_singleton.mp hdot
      decide
  rw [← glob_append_star hplain, List.append_assoc]
  rfl

theorem glob_log_self (log : LogName) : glob (log.text ++ ['.', '*']) log.text = false := by
  refine Bool.eq_false_iff.mpr fun h => ?_
  have hlength := ((glob_log log _).mp h).length_le
  rw [List.length_append, List.length_singleton] at hlength
  omega

theorem glob_log_archive (log : LogName) (now : Name) :
    glob (log.text ++ ['.', '*']) (log.text ++ '.' :: now) = true := by
  refine (glob_log log _).mpr ⟨now, ?_⟩
  rw [List.append_assoc]
  rfl

theorem oldest_eq {log : LogName} {d : Dir Name α} (h : archives log d ≠ []) :
    ∃ name, oldest log d = some name ∧ name ∈ (archives log d).map File.name ∧
      ∀ file ∈ archives log d, name ≤ file.name := by
  let names := (archives log d).map File.name
  have hsorted : (names.mergeSort (fun a b => decide (a ≥ b))).Pairwise (· ≥ ·) :=
    List.pairwise_mergeSort' (· ≥ ·) names
  have hperm : (names.mergeSort (fun a b => decide (a ≥ b))).Perm names := List.mergeSort_perm _ _
  rcases List.eq_nil_or_concat' (names.mergeSort (fun a b => decide (a ≥ b))) with
    hnil | ⟨front, last, hconcat⟩
  · rw [hnil] at hperm
    exact absurd (List.map_eq_nil_iff.mp hperm.nil_eq.symm) h
  · rw [hconcat] at hsorted hperm
    have hlast : last ∈ names := hperm.subset (List.mem_append_right _ List.mem_cons_self)
    refine ⟨last, ?_, hlast, fun file hfile => ?_⟩
    · unfold oldest
      rw [hconcat, List.getLast?_concat]
    · have hmem : file.name ∈ front ++ [last] :=
        hperm.symm.subset (List.mem_map.mpr ⟨file, hfile, rfl⟩)
      rcases List.mem_append.mp hmem with hfront | hself
      · exact (List.pairwise_append.mp hsorted).2.2 _ hfront _ List.mem_cons_self
      · exact le_of_eq (List.mem_singleton.mp hself).symm

/-- Below the limit nothing is removed; at the limit, the archive whose name comes first. -/
theorem prune_cases (log : LogName) (d : Dir Name α) :
    prune log d = d ∧ (archives log d).length < maxCount ∨
    ∃ name, prune log d = d.remove name ∧ maxCount ≤ (archives log d).length ∧
      name ∈ (archives log d).map File.name ∧ ∀ file ∈ archives log d, name ≤ file.name := by
  unfold prune
  split
  · next hfull =>
      have hne : archives log d ≠ [] := by
        intro hnil
        rw [hnil] at hfull
        cases hfull
      obtain ⟨name, hname, hmem, hleast⟩ := oldest_eq hne
      rw [hname]
      exact .inr ⟨name, rfl, hfull, hmem, hleast⟩
  · next hroom => exact .inl ⟨rfl, Nat.lt_of_not_le hroom⟩

theorem lookup_prune (log : LogName) (d : Dir Name α) :
    (prune log d).lookup log.text = d.lookup log.text := by
  rcases prune_cases log d with ⟨hprune, -⟩ | ⟨name, hprune, -, hmem, -⟩
  · rw [hprune]
  · obtain ⟨file, hfile, rfl⟩ := List.mem_map.mp hmem
    rw [hprune]
    refine Dir.lookup_remove_of_ne (fun hself => ?_) d
    have hglob := (List.mem_filter.mp hfile).2
    rw [← hself, glob_log_self] at hglob
    cases hglob

theorem archives_rotation (log : LogName) (r : Rotation α) (d : Dir Name α) :
    archives log (rotation log r d) =
      others (r.archive log).name (archives log (prune log (d.put log.text r.content))) ++
        [r.archive log] := by
  have hlookup := (lookup_prune log (d.put log.text r.content)).trans (Dir.lookup_put _ _ _)
  unfold rotation logRotate Dir.move
  rw [hlookup]
  refine (Dir.select_put_of_true (glob_log_archive log _) _ _).trans ?_
  rw [Dir.select_remove_of_false (glob_log_self log)]
  rfl

theorem lookup_rotation (log : LogName) (r : Rotation α) (d : Dir Name α) :
    (rotation log r d).lookup log.text = none := by
  have hlookup := (lookup_prune log (d.put log.text r.content)).trans (Dir.lookup_put _ _ _)
  have hne : log.text ≠ log.text ++ '.' :: stamp r.now := by
    intro hself
    have hlength := congrArg List.length hself
    rw [List.length_append, List.length_cons] at hlength
    omega
  unfold rotation logRotate Dir.move
  rw [hlookup]
  exact (Dir.lookup_put_of_ne hne _ _).trans (Dir.lookup_remove _ _)

/-- What is neither the log nor an archive of it stays as it is. -/
theorem lookup_rotation_of_ne {log : LogName} {name : Name} (r : Rotation α) (d : Dir Name α)
    (hlog : name ≠ log.text) (harchive : ¬ log.text ++ ['.'] <+: name) :
    (rotation log r d).lookup name = d.lookup name := by
  have hput := Dir.lookup_put_of_ne hlog r.content d
  have hlookup := (lookup_prune log (d.put log.text r.content)).trans (Dir.lookup_put _ _ _)
  have hne : name ≠ log.text ++ '.' :: stamp r.now := by
    rintro rfl
    exact harchive ((glob_log log _).mp (glob_log_archive log _))
  have hprune : (prune log (d.put log.text r.content)).lookup name =
      (d.put log.text r.content).lookup name := by
    rcases prune_cases log (d.put log.text r.content) with
      ⟨hprune, -⟩ | ⟨removed, hprune, -, hmem, -⟩
    · rw [hprune]
    · obtain ⟨file, hfile, rfl⟩ := List.mem_map.mp hmem
      rw [hprune]
      refine Dir.lookup_remove_of_ne (fun hself => ?_) _
      rw [hself] at harchive
      exact harchive ((glob_log log _).mp (List.mem_filter.mp hfile).2)
  unfold rotation logRotate Dir.move
  rw [hlookup]
  exact (Dir.lookup_put_of_ne hne _ _).trans
    ((Dir.lookup_remove_of_ne hlog _).trans (hprune.trans hput))

/-! ## What one rotation keeps -/

/-- The archives that should stay, of those that are there in the order in which they were
rotated in. -/
def staying (rotated : List (File Name α)) : List (File Name α) :=
  if maxCount ≤ rotated.length then rotated.tail else rotated

/-- A rotation leaves at most nine archives and no log; there is one more archive, with what
was in the log, beside all that were there, or all but the first that was rotated in when there
were nine. -/
structure RotationKept (log : LogName) (rotated : List (File Name α)) (r : Rotation α)
    (after : Dir Name α) : Prop where
  atMost : (archives log after).length ≤ maxCount
  moved : after.lookup log.text = none
  new : ∃ stay, (archives log after).Perm (stay ++ [r.archive log]) ∧
    (rotated.Perm stay ∨ maxCount ≤ rotated.length ∧ rotated.tail.Perm stay)

/-- The new archive has a name that none of those that stay has, and when one has to go, the
first that was rotated in has the name that comes first. -/
structure Distinguished (log : LogName) (rotated : List (File Name α)) (r : Rotation α) :
    Prop where
  fresh : (r.archive log).name ∉ (staying rotated).map File.name
  earliest : maxCount ≤ rotated.length →
    ∀ first ∈ rotated.head?, ∀ file ∈ rotated, first.name ≤ file.name

variable {log : LogName} {rotated : List (File Name α)} {r : Rotation α} {d : Dir Name α}

theorem nodup_of_perm (hd : (archives log d).Perm rotated) : (rotated.map File.name).Nodup :=
  (hd.map File.name).nodup_iff.mp (Dir.nodup_select _ d)

theorem archives_put (log : LogName) (content : α) (d : Dir Name α) :
    archives log (d.put log.text content) = archives log d :=
  Dir.select_put_of_false (glob_log_self log) content d

/-- The archives after a rotation: fewer than nine before, or nine without the first name. -/
theorem archives_cases (hd : (archives log d).Perm rotated) :
    rotated.length < maxCount ∧ (archives log (rotation log r d)).Perm
        (others (r.archive log).name rotated ++ [r.archive log]) ∨
    maxCount ≤ rotated.length ∧ ∃ name ∈ rotated.map File.name,
      (∀ file ∈ rotated, name ≤ file.name) ∧ (archives log (rotation log r d)).Perm
        (others (r.archive log).name (others name rotated) ++ [r.archive log]) := by
  rw [archives_rotation, ← hd.length_eq]
  rcases prune_cases log (d.put log.text r.content) with
    ⟨hprune, hroom⟩ | ⟨name, hprune, hfull, hmem, hleast⟩
  · rw [archives_put] at hroom
    rw [hprune, archives_put]
    exact .inl ⟨hroom, (hd.filter _).append_right _⟩
  · rw [archives_put] at hfull hmem hleast
    have hremove : archives log (prune log (d.put log.text r.content)) =
        others name (archives log d) := by
      rw [hprune, ← archives_put log r.content d]
      exact Dir.select_remove _ _ _
    rw [hremove]
    exact .inr ⟨hfull, name, (hd.map File.name).subset hmem,
      fun file hfile => hleast file (hd.symm.subset hfile),
      ((hd.filter _).filter _).append_right _⟩

theorem fresh_of_length {name : Name} {files stay : List (File Name α)} {file : File Name α}
    (hnodup : (files.map File.name).Nodup)
    (hperm : (others name files ++ [file]).Perm (stay ++ [file]))
    (hlength : stay.length = files.length) : name ∉ files.map File.name := by
  intro hmem
  have hshort := length_others_of_mem hnodup hmem
  have hsame := hperm.length_eq
  rw [List.length_append, List.length_append] at hsame
  omega

theorem distinguished_of_kept (hd : (archives log d).Perm rotated)
    (hkept : RotationKept log rotated r (rotation log r d)) : Distinguished log rotated r := by
  have hnodup := nodup_of_perm hd
  obtain ⟨stay, hstay, hcases⟩ := hkept.new
  have hmost := hkept.atMost
  rw [hstay.length_eq, List.length_append, List.length_singleton] at hmost
  rcases archives_cases (r := r) hd with ⟨hroom, harchives⟩ |
    ⟨hfull, name, hname, hleast, harchives⟩
  · have hperm : rotated.Perm stay :=
      hcases.resolve_right fun h => absurd h.1 (Nat.not_le_of_lt hroom)
    refine ⟨?_, fun hfull => absurd hfull (Nat.not_le_of_lt hroom)⟩
    rw [staying, if_neg (Nat.not_le_of_lt hroom)]
    exact fresh_of_length hnodup (harchives.symm.trans hstay) hperm.length_eq.symm
  · -- one archive has to go, and it is the first that was rotated in
    have hperm : rotated.tail.Perm stay := by
      refine (hcases.resolve_left fun h => ?_).2
      have hlength := h.length_eq
      omega
    cases rotated with
    | nil => cases hfull
    | cons first rest =>
        have hshort := length_others_of_mem hnodup hname
        have hlength := hperm.length_eq
        rw [List.tail_cons] at hperm hlength
        rw [List.length_cons] at hshort
        have hfresh : (r.archive log).name ∉ (others name (first :: rest)).map File.name :=
          fresh_of_length (nodup_filter hnodup _) (harchives.symm.trans hstay) (by omega)
        have hgone : (others name (first :: rest)).Perm rest := by
          have hrest := harchives.symm.trans hstay
          rw [others_eq_self hfresh] at hrest
          exact ((List.perm_append_right_iff _).mp hrest).trans hperm.symm
        have hfirst : name = first.name := by
          rw [List.map_cons, List.mem_cons] at hname
          exact hname.resolve_right fun hrest =>
            not_mem_others name (first :: rest) ((hgone.map File.name).symm.subset hrest)
        refine ⟨?_, fun _ other hother => ?_⟩
        · rw [staying, if_pos hfull]
          exact fun hrest => hfresh ((hgone.map File.name).symm.subset hrest)
        · obtain rfl : first = other := Option.some.inj hother
          exact fun file hfile => hfirst ▸ hleast file hfile

theorem kept_of_distinguished (hd : (archives log d).Perm rotated)
    (hle : rotated.length ≤ maxCount) (h : Distinguished log rotated r) :
    RotationKept log rotated r (rotation log r d) := by
  have hnodup := nodup_of_perm hd
  have hfresh := h.fresh
  rcases archives_cases (r := r) hd with ⟨hroom, harchives⟩ |
    ⟨hfull, name, hname, hleast, harchives⟩
  · rw [staying, if_neg (Nat.not_le_of_lt hroom)] at hfresh
    rw [others_eq_self hfresh] at harchives
    refine ⟨?_, lookup_rotation log r d, rotated, harchives, .inl (.refl _)⟩
    rw [harchives.length_eq, List.length_append, List.length_singleton]
    exact hroom
  · cases rotated with
    | nil => cases hfull
    | cons first rest =>
        -- the name that comes first is the first that was rotated in
        obtain rfl : name = first.name := by
          obtain ⟨file, hfile, rfl⟩ := List.mem_map.mp hname
          exact le_antisymm (hleast first List.mem_cons_self)
            (h.earliest hfull first rfl file hfile)
        rw [staying, if_pos hfull, List.tail_cons] at hfresh
        rw [others_cons_self hnodup, others_eq_self hfresh] at harchives
        refine ⟨?_, lookup_rotation log r d, rest, harchives, .inr ⟨hfull, .refl _⟩⟩
        rw [harchives.length_eq, List.length_append, List.length_singleton]
        exact hle

/-! ## Any number of rotations -/

/-- Every rotation of a run keeps what it should, and the archives are then, in order, those
that should stay and the new one. -/
def AllKept (log : LogName) : Dir Name α → List (File Name α) → List (Rotation α) → Prop
  | _, _, [] => True
  | d, rotated, r :: rest =>
      RotationKept log rotated r (rotation log r d) ∧
        AllKept log (rotation log r d) (staying rotated ++ [r.archive log]) rest

def AllDistinguished (log : LogName) : List (File Name α) → List (Rotation α) → Prop
  | _, [] => True
  | rotated, r :: rest =>
      Distinguished log rotated r ∧ AllDistinguished log (staying rotated ++ [r.archive log]) rest

/-- After a rotation that keeps what it should, the archives are those that the next one is
about. -/
theorem RotationKept.archives_perm {after : Dir Name α} (h : RotationKept log rotated r after) :
    (archives log after).Perm (staying rotated ++ [r.archive log]) := by
  obtain ⟨stay, hstay, hcases⟩ := h.new
  have hmost := h.atMost
  rw [hstay.length_eq, List.length_append, List.length_singleton] at hmost
  refine hstay.trans (List.Perm.append_right _ ?_)
  unfold staying
  rcases hcases with hall | ⟨hfull, htail⟩
  · have hlength := hall.length_eq
    rw [if_neg (by omega)]
    exact hall.symm
  · rw [if_pos hfull]
    exact htail.symm

theorem allDistinguished_of_allKept {rotations : List (Rotation α)}
    (hd : (archives log d).Perm rotated) (hkept : AllKept log d rotated rotations) :
    AllDistinguished log rotated rotations := by
  induction rotations generalizing d rotated with
  | nil => trivial
  | cons r rest ih =>
      obtain ⟨hfirst, hrest⟩ := hkept
      exact ⟨distinguished_of_kept hd hfirst, ih hfirst.archives_perm hrest⟩

theorem allKept_of_allDistinguished {rotations : List (Rotation α)}
    (hd : (archives log d).Perm rotated) (hle : rotated.length ≤ maxCount)
    (h : AllDistinguished log rotated rotations) : AllKept log d rotated rotations := by
  induction rotations generalizing d rotated with
  | nil => trivial
  | cons r rest ih =>
      obtain ⟨hfirst, hrest⟩ := h
      have hkept := kept_of_distinguished hd hle hfirst
      have hmost : (staying rotated ++ [r.archive log]).length ≤ maxCount := by
        rw [← hkept.archives_perm.length_eq]
        exact hkept.atMost
      exact ⟨hkept, ih hkept.archives_perm hmost hrest⟩

/-- For every sequence of rotations, whatever the clock reads: each loses nothing but the oldest
of nine archives exactly when the names always tell the archives apart. -/
theorem allKept_iff (log : LogName) (rotations : List (Rotation α))
    (hd : (archives log d).Perm rotated) (hle : rotated.length ≤ maxCount) :
    AllKept log d rotated rotations ↔ AllDistinguished log rotated rotations :=
  ⟨allDistinguished_of_allKept hd, allKept_of_allDistinguished hd hle⟩

/-- One of the logs of `rsyslog.conf`. -/
def messages : LogName := ⟨['m', 'e', 's', 's', 'a', 'g', 'e', 's'], by simp⟩

def noon : Reading where
  toClock := ⟨⟨2026, 1, 1⟩, 4, 12, 0, 0⟩
  inRange := ⟨⟨by decide, by decide⟩, by decide, by decide, by decide, by decide⟩
  fourDigits := by decide

/-- On a clock that was set back. -/
def epoch (second : Fin 60) : Reading where
  toClock := ⟨⟨1970, 1, 1⟩, 4, 0, 0, second⟩
  inRange := by
    refine ⟨⟨?_, ?_⟩, ?_, ?_, ?_, second.isLt⟩ <;> dsimp only <;> omega
  fourDigits := by omega

/-- Nine archives, the first of them from before the clock was set back. -/
def nineArchives : List (File Name Nat) :=
  (⟨0, noon⟩ :: (List.range 8).map fun i => ⟨i + 1, epoch (Fin.ofNat 60 i)⟩).map
    (Rotation.archive messages)

def nineFiles : Dir Name Nat := ⟨nineArchives, by decide⟩

theorem allKept_iff_setBack :
    AllKept messages nineFiles nineArchives [⟨9, epoch 8⟩, ⟨10, noon⟩] ↔
      AllDistinguished messages nineArchives [⟨9, epoch 8⟩, ⟨10, noon⟩] :=
  allKept_iff messages _ (by rfl) (by decide)

/-- Two rotations in one second: the second overwrites the first.  After the clock was set back
the oldest of nine archives has the last name, and a newer one is deleted. -/
theorem not_allKept_sameSecond_setBack :
    ¬ AllKept messages (⟨[], List.nodup_nil⟩ : Dir Name Nat) [] [⟨0, noon⟩, ⟨1, noon⟩] ∧
    ¬ AllKept messages nineFiles nineArchives [⟨9, epoch 8⟩] := by
  constructor
  · rintro ⟨hfirst, hsecond, -⟩
    have hfresh := (distinguished_of_kept hfirst.archives_perm hsecond).fresh
    exact hfresh (by decide)
  · rintro ⟨hkept, -⟩
    have hearliest := (distinguished_of_kept (by rfl) hkept).earliest (by decide) _ rfl
      ((⟨1, epoch 0⟩ : Rotation Nat).archive messages) (List.mem_cons_of_mem _ List.mem_cons_self)
    exact absurd hearliest (by decide)

/-! ## A clock that only goes forward -/

/-- Later readings are later as texts. -/
theorem stamp_lt {a b : Reading} (hlt : a.toClock.rank < b.toClock.rank) : stamp a < stamp b := by
  have hyear := b.fourDigits.2
  have hmonth := b.inRange.date.month
  have hday := b.inRange.date.day
  have hhour := b.inRange.hour
  have hminute := b.inRange.minute
  have hsecond := b.inRange.second
  have hmonth' := a.inRange.date.month
  have hday' := a.inRange.date.day
  have hhour' := a.inRange.hour
  have hminute' := a.inRange.minute
  have hsecond' := a.inRange.second
  have hfields : a.year < b.year ∨ a.year = b.year ∧ (a.month < b.month ∨ a.month = b.month ∧
      (a.day < b.day ∨ a.day = b.day ∧ (a.hour < b.hour ∨ a.hour = b.hour ∧
      (a.minute < b.minute ∨ a.minute = b.minute ∧ a.second < b.second)))) := by
    unfold Clock.rank Clock.sod Date.rank at hlt
    omega
  unfold stamp
  refine padded_append_lt (by omega) (hfields.imp_right fun h => ⟨h.1, ?_⟩)
  refine padded_append_lt (by omega) (h.2.imp_right fun h => ⟨h.1, ?_⟩)
  refine padded_append_lt (by omega) (h.2.imp_right fun h => ⟨h.1, ?_⟩)
  refine padded_append_lt (by omega) (h.2.imp_right fun h => ⟨h.1, ?_⟩)
  refine padded_append_lt (by omega) (h.2.imp_right fun h => ⟨h.1, ?_⟩)
  exact padded_lt h.2 (by omega)

/-- Rotated in one after another, at later and later readings. -/
def Increasing (rotations : List (Rotation α)) : Prop :=
  rotations.Pairwise fun earlier later => earlier.now.toClock.rank < later.now.toClock.rank

theorem archive_lt {earlier later : Rotation α}
    (h : earlier.now.toClock.rank < later.now.toClock.rank) :
    (earlier.archive log).name < (later.archive log).name :=
  List.append_left_lt (List.cons_lt_cons_iff.mpr (.inr ⟨rfl, stamp_lt h⟩))

theorem staying_map (start : List (Rotation α)) :
    staying (start.map (Rotation.archive log)) =
      (if maxCount ≤ start.length then start.tail else start).map (Rotation.archive log) := by
  unfold staying
  rw [List.length_map]
  split
  · exact List.map_tail.symm
  · rfl

theorem distinguished_of_increasing {start : List (Rotation α)}
    (h : Increasing (start ++ [r])) :
    Distinguished log (start.map (Rotation.archive log)) r := by
  obtain ⟨hstart, -, hlast⟩ := List.pairwise_append.mp h
  constructor
  · intro hmem
    rw [staying_map] at hmem
    obtain ⟨file, hfile, hname⟩ := List.mem_map.mp hmem
    obtain ⟨earlier, hearlier, rfl⟩ := List.mem_map.mp hfile
    have hin : earlier ∈ start := by
      split at hearlier
      · exact List.mem_of_mem_tail hearlier
      · exact hearlier
    have hlt : (earlier.archive log).name < (r.archive log).name :=
      archive_lt (hlast earlier hin r List.mem_cons_self)
    rw [hname] at hlt
    exact List.lt_irrefl _ hlt
  · intro _ first hfirst file hfile
    obtain ⟨later, hlater, rfl⟩ := List.mem_map.mp hfile
    cases start with
    | nil => cases hlater
    | cons earliest rest =>
        obtain rfl : earliest.archive log = first := Option.some.inj hfirst
        rcases List.mem_cons.mp hlater with rfl | hrest
        · exact le_refl _
        · exact le_of_lt (archive_lt ((List.pairwise_cons.mp hstart).1 later hrest))

theorem allDistinguished_of_increasing (log : LogName) {start rotations : List (Rotation α)}
    (h : Increasing (start ++ rotations)) :
    AllDistinguished log (start.map (Rotation.archive log)) rotations := by
  induction rotations generalizing start with
  | nil => trivial
  | cons r rest ih =>
      have hprefix : (start ++ [r]).Sublist (start ++ r :: rest) :=
        (List.Sublist.refl start).append (List.singleton_sublist.mpr List.mem_cons_self)
      refine ⟨distinguished_of_increasing (h.sublist hprefix), ?_⟩
      rw [staying_map, ← List.map_singleton, ← List.map_append]
      refine ih ?_
      rw [List.append_assoc]
      refine h.sublist (List.Sublist.append ?_ (.refl _))
      split
      · exact List.tail_sublist start
      · exact .refl _

/-- When the clock reads later at each rotation than at the one before, every rotation loses
nothing but the oldest of nine archives. -/
theorem allKept_of_increasing (log : LogName) {start rotations : List (Rotation α)}
    (hd : (archives log d).Perm (start.map (Rotation.archive log)))
    (hle : start.length ≤ maxCount) (h : Increasing (start ++ rotations)) :
    AllKept log d (start.map (Rotation.archive log)) rotations :=
  allKept_of_allDistinguished hd (by rwa [List.length_map])
    (allDistinguished_of_increasing log h)

end RadsatLinux.Logs.Rotate
