import RadsatLinux.InstallOs.Script
import Mathlib.Data.List.Basic

/-!
# The name of the root disk

What `root_disk_name` prints for a source that is a device node, and for one that has to be
resolved with the PARTUUID of the kernel command line.
-/

namespace RadsatLinux.InstallOs.RootDisk

open RadsatLinux.UBoot.Hardware
open RadsatLinux.InstallOs.Commands RadsatLinux.InstallOs.Script

/-! ## Device nodes -/

/-- A name that `/sys/block/mmcblk*` expands to. -/
structure IsDiskName (name : String) : Prop where
  mmcblk : isMmcblk name = true
  noSlash : '/' ∉ name.toList

instance (name : String) : Decidable (IsDiskName name) :=
  decidable_of_iff (isMmcblk name = true ∧ '/' ∉ name.toList)
    ⟨fun h => ⟨h.1, h.2⟩, fun h => ⟨h.mmcblk, h.noSlash⟩⟩

/-- `/dev/disk`, or `/dev/diskpN` for a partition of it. -/
def NodeOf (disk source : String) : Prop :=
  source = "/dev/" ++ disk ∨
    ∃ number : String, '/' ∉ number.toList ∧ source = "/dev/" ++ disk ++ "p" ++ number

theorem IsDiskName.ne_empty {name : String} (h : IsDiskName name) : name ≠ "" := by
  rintro rfl
  exact absurd h.mmcblk (by decide)

theorem isMmcblk_append {name : String} (h : isMmcblk name = true) (rest : String) :
    isMmcblk (name ++ rest) = true := by
  unfold isMmcblk at h ⊢
  rw [List.isPrefixOf_iff_prefix] at h ⊢
  rw [String.toList_append]
  exact h.trans (List.prefix_append _ _)

theorem basename_dev {name : String} (hne : name ≠ "") (hslash : '/' ∉ name.toList) :
    basename ("/dev/" ++ name) = name := by
  have hchars : ("/dev/" ++ name).toList.reverse = name.toList.reverse ++ "/ved/".toList := by
    rw [String.toList_append, List.reverse_append]
    rfl
  have hreverse : name.toList.reverse ≠ [] := by
    rwa [Ne, List.reverse_eq_nil_iff, String.toList_eq_nil_iff]
  have hhead : (name.toList.reverse ++ "/ved/".toList).head? ≠ some '/' := by
    obtain ⟨c, chars, hcons⟩ := List.exists_cons_of_ne_nil hreverse
    rw [hcons]
    intro hhead
    have hmem : c ∈ name.toList := by
      rw [← List.mem_reverse, hcons]
      exact List.mem_cons_self
    exact hslash (Option.some.inj hhead ▸ hmem)
  have htake : (name.toList.reverse ++ "/ved/".toList).takeWhile (· != '/') =
      name.toList.reverse := by
    rw [List.takeWhile_append_of_pos fun c hc => ?_]
    · exact List.append_nil _
    · rw [List.mem_reverse] at hc
      exact bne_iff_ne.mpr fun heq => hslash (heq ▸ hc)
  unfold basename
  rw [hchars]
  dsimp only
  rw [if_neg hhead, if_neg (by simp), htake, List.reverse_reverse, String.ofList_toList]

theorem noP_beforeP (name : String) : 'p' ∉ (beforeP name).toList := by
  rw [beforeP, String.toList_ofList]
  intro hmem
  have hne : ('p' != 'p') = true := List.mem_takeWhile_imp (p := fun c => c != 'p') hmem
  exact absurd hne (by decide)

theorem beforeP_self {name : String} (h : 'p' ∉ name.toList) : beforeP name = name := by
  rw [beforeP, List.takeWhile_eq_self_iff.mpr, String.ofList_toList]
  exact fun c hc => bne_iff_ne.mpr fun heq => h (heq ▸ hc)

theorem beforeP_append {name : String} (h : 'p' ∉ name.toList) (number : String) :
    beforeP (name ++ "p" ++ number) = name := by
  have hchars : (name ++ "p" ++ number).toList = name.toList ++ 'p' :: number.toList := by
    rw [String.toList_append, String.toList_append, List.append_assoc]
    rfl
  rw [beforeP, hchars, List.takeWhile_append_of_pos, List.takeWhile_cons_of_neg (by decide),
    List.append_nil, String.ofList_toList]
  exact fun c hc => bne_iff_ne.mpr fun heq => h (heq ▸ hc)

theorem beforeP_ne_empty {name : String} (h : isMmcblk name = true) : beforeP name ≠ "" := by
  rw [isMmcblk, List.isPrefixOf_iff_prefix] at h
  obtain ⟨rest, hchars⟩ := h
  have hcons : name.toList = 'm' :: ("mcblk".toList ++ rest) := hchars.symm
  rw [beforeP, hcons, List.takeWhile_cons_of_pos (by decide), Ne, ← String.toList_inj,
    String.toList_ofList]
  exact List.cons_ne_nil _ _

/-- A node of a disk has the name of the disk before the first `p`, if that name has none. -/
theorem NodeOf.rootDisk {disk source : String} (hnode : NodeOf disk source)
    (hdisk : IsDiskName disk) :
    isMmcblk (basename source) = true ∧
      (beforeP (basename source) = disk ↔ 'p' ∉ disk.toList) := by
  have hp {name : String} (h : beforeP name = disk) : 'p' ∉ disk.toList :=
    h ▸ noP_beforeP name
  rcases hnode with rfl | ⟨number, hnumber, rfl⟩
  · rw [basename_dev hdisk.ne_empty hdisk.noSlash]
    exact ⟨hdisk.mmcblk, hp, beforeP_self⟩
  · have hslash : '/' ∉ (disk ++ "p" ++ number).toList := by
      rw [String.toList_append, String.toList_append, List.mem_append, List.mem_append]
      rintro ((h | h) | h)
      · exact hdisk.noSlash h
      · exact absurd h (by decide)
      · exact hnumber h
    have hne : disk ++ "p" ++ number ≠ "" := by
      intro hempty
      have hmem : 'p' ∈ (disk ++ "p" ++ number).toList := by
        rw [String.toList_append, String.toList_append]
        simp
      rw [hempty] at hmem
      cases hmem
    have hsource : "/dev/" ++ disk ++ "p" ++ number = "/dev/" ++ (disk ++ "p" ++ number) := by
      simp only [String.append_assoc]
    rw [hsource, basename_dev hne hslash]
    refine ⟨?_, hp, fun h => beforeP_append h number⟩
    rw [String.append_assoc]
    exact isMmcblk_append hdisk.mmcblk _

theorem rootDisk_of_mmcblk {source : String} (partuuid : Option String) (devs : List BlockDev)
    (disk : BlockDev → Disk) (h : isMmcblk (basename source) = true) :
    rootDisk source partuuid devs disk = beforeP (basename source) :=
  if_pos h

/-! ## Signatures -/

/-- The first device that carries a signature. -/
def FirstCarrier (devs : List BlockDev) (disk : BlockDev → Disk) (sig : String)
    (dev : BlockDev) : Prop :=
  mbrSigLe (disk dev) = sig ∧
    ∃ before after, devs = before ++ dev :: after ∧ ∀ other ∈ before, mbrSigLe (disk other) ≠ sig

/-- Only the first sector matters. -/
theorem mbrSigLe_congr {disk disk' : Disk} (h : disk 0 = disk' 0) :
    mbrSigLe disk = mbrSigLe disk' := by
  unfold mbrSigLe
  rw [h]

theorem find?_eq_some_iff {devs : List BlockDev} {disk : BlockDev → Disk} {sig : String}
    {dev : BlockDev} : devs.find? (fun dev => mbrSigLe (disk dev) == sig) = some dev ↔
      FirstCarrier devs disk sig dev := by
  rw [List.find?_eq_some_iff_append, beq_iff_eq]
  simp only [Bool.not_eq_true', beq_eq_false_iff_ne]
  exact Iff.rfl

theorem diskBySignature_cases (devs : List BlockDev) (disk : BlockDev → Disk) (sig : String) :
    (∃ dev ∈ devs, FirstCarrier devs disk sig dev ∧ diskBySignature devs disk sig = dev.name) ∨
      ((∀ dev ∈ devs, mbrSigLe (disk dev) ≠ sig) ∧ diskBySignature devs disk sig = "") := by
  unfold diskBySignature
  cases hfind : devs.find? fun dev => mbrSigLe (disk dev) == sig with
  | none =>
      refine Or.inr ⟨fun dev hdev heq => ?_, rfl⟩
      exact List.find?_eq_none.mp hfind dev hdev (beq_iff_eq.mpr heq)
  | some dev =>
      exact Or.inl ⟨dev, List.mem_of_find?_eq_some hfind, find?_eq_some_iff.mp hfind, rfl⟩

theorem FirstCarrier.name_eq {devs : List BlockDev} {disk : BlockDev → Disk} {sig : String}
    {dev : BlockDev} (h : FirstCarrier devs disk sig dev) :
    diskBySignature devs disk sig = dev.name := by
  unfold diskBySignature
  rw [find?_eq_some_iff.mpr h]

end RadsatLinux.InstallOs.RootDisk
