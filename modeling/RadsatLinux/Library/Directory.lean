import Mathlib.Data.List.Nodup
import Mathlib.Data.List.Perm.Basic

/-!
# One directory of files

Files by name, no two with one name.  `select` lists the files whose names pass a test, as
`find -name` does; `move` puts a file under another name, over what was there.
-/

namespace RadsatLinux.Library.Directory

structure File (ν α : Type) where
  name : ν
  content : α
  deriving DecidableEq

structure Dir (ν α : Type) where
  files : List (File ν α)
  nodup : (files.map File.name).Nodup

variable {ν α : Type}

theorem nodup_filter {files : List (File ν α)} (h : (files.map File.name).Nodup)
    (p : File ν α → Bool) : ((files.filter p).map File.name).Nodup :=
  h.sublist ((List.filter_sublist).map File.name)

/-- The files whose names pass the test. -/
def Dir.select (p : ν → Bool) (d : Dir ν α) : List (File ν α) :=
  d.files.filter (fun file => p file.name)

theorem Dir.nodup_select (p : ν → Bool) (d : Dir ν α) : ((d.select p).map File.name).Nodup :=
  nodup_filter d.nodup _

variable [DecidableEq ν]

/-- The files of a list that have another name. -/
def others (name : ν) (files : List (File ν α)) : List (File ν α) :=
  files.filter (fun file => decide (file.name ≠ name))

theorem others_cons (name : ν) (file : File ν α) (files : List (File ν α)) :
    others name (file :: files) =
      if file.name = name then others name files else file :: others name files := by
  unfold others
  rw [List.filter_cons]
  by_cases h : file.name = name
  · rw [if_pos h, if_neg (by simp [h])]
  · rw [if_neg h, if_pos (decide_eq_true h)]

theorem not_mem_others (name : ν) (files : List (File ν α)) :
    name ∉ (others name files).map File.name := by
  intro hmem
  obtain ⟨file, hfile, hname⟩ := List.mem_map.mp hmem
  exact of_decide_eq_true (List.mem_filter.mp hfile).2 hname

theorem others_eq_self {name : ν} {files : List (File ν α)}
    (h : name ∉ files.map File.name) : others name files = files := by
  refine List.filter_eq_self.mpr fun file hfile => decide_eq_true fun hname => ?_
  exact h (List.mem_map.mpr ⟨file, hfile, hname⟩)

theorem others_cons_self {file : File ν α} {files : List (File ν α)}
    (h : ((file :: files).map File.name).Nodup) : others file.name (file :: files) = files := by
  rw [others_cons, if_pos rfl]
  exact others_eq_self (List.nodup_cons.mp h).1

theorem length_others_of_mem {name : ν} {files : List (File ν α)}
    (h : (files.map File.name).Nodup) (hmem : name ∈ files.map File.name) :
    (others name files).length + 1 = files.length := by
  induction files with
  | nil => cases hmem
  | cons file files ih =>
      by_cases hname : file.name = name
      · rw [← hname, others_cons_self h, List.length_cons]
      · rw [List.map_cons, List.mem_cons] at hmem
        have hrest := hmem.resolve_left fun heq => hname heq.symm
        rw [others_cons, if_neg hname, List.length_cons, List.length_cons,
          ih (List.nodup_cons.mp h).2 hrest]

namespace Dir

def remove (name : ν) (d : Dir ν α) : Dir ν α :=
  ⟨others name d.files, nodup_filter d.nodup _⟩

/-- The file under that name is written anew. -/
def put (name : ν) (content : α) (d : Dir ν α) : Dir ν α where
  files := others name d.files ++ [⟨name, content⟩]
  nodup := by
    rw [List.map_append]
    refine (nodup_filter d.nodup _).append (List.nodup_singleton _) ?_
    intro other hother hlast
    obtain rfl : other = name := List.mem_singleton.mp hlast
    exact not_mem_others other d.files hother

def lookup (name : ν) (d : Dir ν α) : Option α :=
  (d.files.find? (fun file => decide (file.name = name))).map File.content

def move (source target : ν) (d : Dir ν α) : Dir ν α :=
  match d.lookup source with
  | none => d
  | some content => (d.remove source).put target content

theorem select_remove (p : ν → Bool) (name : ν) (d : Dir ν α) :
    (d.remove name).select p = others name (d.select p) := by
  unfold select remove others
  rw [List.filter_filter, List.filter_filter]
  exact List.filter_congr fun file _ => Bool.and_comm _ _

theorem select_remove_of_false {p : ν → Bool} {name : ν} (hp : p name = false) (d : Dir ν α) :
    (d.remove name).select p = d.select p := by
  rw [select_remove]
  refine others_eq_self fun hmem => ?_
  obtain ⟨file, hfile, rfl⟩ := List.mem_map.mp hmem
  rw [(List.mem_filter.mp hfile).2] at hp
  cases hp

theorem select_put_of_true {p : ν → Bool} {name : ν} (hp : p name = true) (content : α)
    (d : Dir ν α) :
    (d.put name content).select p = others name (d.select p) ++ [⟨name, content⟩] := by
  rw [← select_remove]
  unfold select put
  rw [List.filter_append]
  exact congrArg _ (List.filter_cons_of_pos hp)

theorem select_put_of_false {p : ν → Bool} {name : ν} (hp : p name = false) (content : α)
    (d : Dir ν α) : (d.put name content).select p = d.select p := by
  have hnone : ([⟨name, content⟩] : List (File ν α)).filter (fun file => p file.name) = [] :=
    List.filter_cons_of_neg (by rw [hp]; exact Bool.false_ne_true)
  rw [← select_remove_of_false hp d]
  exact (List.filter_append _ _).trans (by rw [hnone, List.append_nil]; rfl)

theorem find?_others (name : ν) (files : List (File ν α)) :
    (others name files).find? (fun file => decide (file.name = name)) = none := by
  refine List.find?_eq_none.mpr fun file hfile hname => ?_
  exact of_decide_eq_true (List.mem_filter.mp hfile).2 (of_decide_eq_true hname)

theorem find?_others_of_ne {name other : ν} (hne : other ≠ name) (files : List (File ν α)) :
    (others name files).find? (fun file => decide (file.name = other)) =
      files.find? (fun file => decide (file.name = other)) := by
  induction files with
  | nil => rfl
  | cons file files ih =>
      rw [others_cons, List.find?_cons]
      by_cases hname : file.name = name
      · have hother : decide (file.name = other) = false :=
          decide_eq_false fun h => hne (h.symm.trans hname)
        rw [if_pos hname, hother]
        exact ih
      · rw [if_neg hname, List.find?_cons, ih]

theorem lookup_remove (name : ν) (d : Dir ν α) : (d.remove name).lookup name = none :=
  congrArg (Option.map File.content) (find?_others name d.files)

theorem lookup_remove_of_ne {name other : ν} (hne : other ≠ name) (d : Dir ν α) :
    (d.remove name).lookup other = d.lookup other :=
  congrArg (Option.map File.content) (find?_others_of_ne hne d.files)

theorem lookup_put (name : ν) (content : α) (d : Dir ν α) :
    (d.put name content).lookup name = some content := by
  unfold lookup put
  rw [List.find?_append, find?_others, Option.none_or]
  simp

theorem lookup_put_of_ne {name other : ν} (hne : other ≠ name) (content : α) (d : Dir ν α) :
    (d.put name content).lookup other = d.lookup other := by
  have hlast : ([⟨name, content⟩] : List (File ν α)).find?
      (fun file => decide (file.name = other)) = none := by
    simp [hne.symm]
  unfold lookup put
  rw [List.find?_append, find?_others_of_ne hne, hlast, Option.or_none]

end Dir

end RadsatLinux.Library.Directory
