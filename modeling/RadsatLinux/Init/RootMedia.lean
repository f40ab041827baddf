import RadsatLinux.InstallOs.EmmcToSd
import RadsatLinux.InstallOs.RootDisk
import RadsatLinux.Library.ShellText

/-!
# Three readings of the root

`install-os`, `S92radsat-boot-stamp` and `announce-boot-media` each find out on their own which
disk the root is on: the first from /proc/mounts and then by PARTUUID, the second from
/proc/mounts alone, the third by PARTUUID and then from /proc/mounts.
-/

namespace RadsatLinux.Init.RootMedia

open RadsatLinux.UBoot.Hardware RadsatLinux.Library.ShellText
open RadsatLinux.InstallOs.Commands RadsatLinux.InstallOs.Script RadsatLinux.InstallOs.RootDisk

/-! ## What the scripts see -/

/-- `procMounts` and `mountOutput` are the source of the root in /proc/mounts and in what
`mount` prints, empty where there is none; `findfs` is what that program prints for a PARTUUID,
if it is there; `recoveryNeeded` is the flag of fram-service, and `imageId` the first word of
/etc/radsat-image-id. -/
structure Userspace where
  procMounts : String
  mountOutput : String
  cmdline : Option String
  devs : List BlockDev
  disk : BlockDev → Disk
  findfs : Option (String → String)
  framSetExec : Bool
  framGetExec : Bool
  framGetAnswers : Bool
  installOsExec : Bool
  recoveryNeeded : Option Bool
  imageId : Option String

/-- `sed -n 's/.*key\([^ ]*\).*/\1/p'` -/
def sedWord (key line : String) : Option String :=
  (afterLast key.toList line.toList).map fun rest => String.ofList (rest.takeWhile (· != ' '))

/-- `case "$name" in mmcblk*p*)` -/
def isMmcblkPart (name : String) : Bool :=
  isMmcblk name && name.toList.contains 'p'

namespace Userspace

variable (u : Userspace)

/-! ## `root_disk_name` -/

def rootSource : String :=
  if u.procMounts = "" then u.mountOutput else u.procMounts

def rootPartuuid : Option String :=
  u.cmdline.bind (sedWord "root=PARTUUID=")

def rootDiskName : String :=
  rootDisk u.rootSource u.rootPartuuid u.devs u.disk

/-- `cat /sys/block/NAME/device/type` -/
def cardOf (name : String) : Option MmcDevice :=
  (u.devs.find? fun dev => dev.name == name).bind BlockDev.card

/-! ## `S92radsat-boot-stamp` -/

/-- `NAME` -/
def stampName : String :=
  String.ofList (dropWord "/dev/".toList (beforeP u.procMounts).toList)

/-- `MEDIA` -/
def media : Nat :=
  if "/dev/mmcblk".toList.isPrefixOf u.procMounts.toList ∧ u.cardOf u.stampName = some .sd then 1
  else 0

/-- What `fram-get` has after `boolValue: `. -/
def needWord : String :=
  if u.framGetAnswers then
    match u.recoveryNeeded with
    | some true => "true"
    | some false => "false"
    | none => "null"
  else ""

inductive Act where
  | framSet (name value : String)
  | autoRecover
  deriving DecidableEq

/-- Only a decimal image id is stamped. -/
def stampImageId : List Act :=
  match u.imageId with
  | some id => if id ≠ "" ∧ id.toList.all Char.isDigit then [.framSet "boot_image_id" id] else []
  | none => []

def start : List Act :=
  if u.framSetExec then
    .framSet "boot_media" (toString u.media) :: u.stampImageId ++
      if u.media = 1 ∧ u.framGetExec ∧ u.installOsExec ∧
          ["true", "True", "1"].contains u.needWord then [.autoRecover]
      else []
  else []

/-! ## `announce-boot-media` -/

/-- The banner: a root that is not known, the source as it is, or a partition of a disk. -/
inductive Banner where
  | unknown (cmdlineRoot : String)
  | source (rootSrc : String)
  | partition (disk part : String) (card : Option MmcDevice)

def cmdlineRoot : String :=
  (u.cmdline.bind (sedWord "root=")).getD ""

/-- `partuuid`, empty unless the root of the command line is one. -/
def announcedPartuuid : String :=
  if "PARTUUID=".toList.isPrefixOf u.cmdlineRoot.toList then
    String.ofList (u.cmdlineRoot.toList.drop 9)
  else ""

def hexDigit (c : Char) : Option Nat :=
  if '0' ≤ c ∧ c ≤ '9' then some (c.toNat - '0'.toNat)
  else if 'a' ≤ c ∧ c ≤ 'f' then some (c.toNat - 'a'.toNat + 10)
  else if 'A' ≤ c ∧ c ≤ 'F' then some (c.toNat - 'A'.toNat + 10)
  else none

/-- `$((0xDIGITS))`; the shell gives up on anything else. -/
def hexNumber (digits : List Char) : Option Nat :=
  if digits = [] then none
  else digits.foldlM (fun n c => (hexDigit c).map (16 * n + ·)) 0

/-- `$((0x${partuuid#*-}))` -/
def partNumber (partuuid : String) : Option Nat :=
  hexNumber (afterFirst '-' partuuid.toList)

def partitionNode (disk : String) (part : Nat) : String :=
  "/dev/" ++ disk ++ "p" ++ toString part

/-- The last partition of the search by MBR signature, or `src`. -/
def searchSignature (src partuuid : String) : Option String :=
  (partNumber partuuid).map fun part =>
    match u.devs.find? fun dev => mbrSigLe (u.disk dev) == partuuidSig partuuid with
    | some dev => partitionNode dev.name part
    | none => src

/-- `root_src` -/
def announcedSource : Option String :=
  if u.announcedPartuuid = "" then some u.procMounts
  else
    let resolved := match u.findfs with
      | some findfs => findfs u.announcedPartuuid
      | none => ""
    let src := if resolved = "" then u.procMounts else resolved
    if resolved = "" ∨ src = "/dev/root" then u.searchSignature src u.announcedPartuuid
    else some src

def bannerOf (src : String) : Banner :=
  if src = "" ∨ src = "/dev/root" ∨ src = "rootfs" then .unknown u.cmdlineRoot
  else if isMmcblkPart (basename src) then
    .partition (beforeP (basename src)) (String.ofList (afterFirst 'p' (basename src).toList))
      (u.cardOf (beforeP (basename src)))
  else .source src

def announce : Option Banner :=
  u.announcedSource.map u.bannerOf

end Userspace

/-! ## Agreement -/

/-- The disk a banner names. -/
def Userspace.Banner.Names (name : String) : Userspace.Banner → Prop
  | .unknown _ => False
  | .source rootSrc => basename rootSrc = name
  | .partition disk _ _ => disk = name

/-- The PARTUUID is that of a partition of the device. -/
def NamesDisk (u : Userspace) (partuuid : String) (dev : BlockDev) : Prop :=
  mbrSigLe (u.disk dev) = partuuidSig partuuid ∧ (Userspace.partNumber partuuid).isSome = true

/-- `root_disk_name` prints the name of a disk; the signatures of the disks are distinct, and
the PARTUUID of the command line is that of a partition of this one.  `findfs` prints the node
of the partition, or nothing. -/
structure Resolved (u : Userspace) (dev : BlockDev) : Prop where
  mem : dev ∈ u.devs
  name : u.rootDiskName = dev.name
  names : ∀ dev ∈ u.devs, IsDiskName dev.name
  nodup : (u.devs.map BlockDev.name).Nodup
  distinct : (u.devs.map fun dev => mbrSigLe (u.disk dev)).Nodup
  partuuid : ∀ partuuid, u.rootPartuuid = some partuuid → partuuid ≠ "" →
    NamesDisk u partuuid dev
  findfs : ∀ findfs, u.findfs = some findfs → ∀ partuuid dev part, dev ∈ u.devs →
    mbrSigLe (u.disk dev) = partuuidSig partuuid → Userspace.partNumber partuuid = some part →
    findfs partuuid = "" ∨ findfs partuuid = Userspace.partitionNode dev.name part

/-- The three scripts agree on the disk. -/
structure Agrees (u : Userspace) (dev : BlockDev) : Prop where
  sd : .framSet "boot_media" "1" ∈ u.start ↔ dev.card = some .sd
  emmc : .framSet "boot_media" "0" ∈ u.start ↔ dev.card = some .emmc
  recover : .autoRecover ∈ u.start ↔ dev.card = some .sd ∧ u.recoveryNeeded = some true
  announced : ∃ banner, u.announce = some banner ∧ banner.Names dev.name

/-- `/dev/disk`, or anything that begins with `/dev/diskp`. -/
def Spells (disk source : String) : Prop :=
  source = "/dev/" ++ disk ∨ ("/dev/" ++ disk ++ "p").toList <+: source.toList

/-- /proc/mounts has a node of an SD card. -/
def SpellsCard (u : Userspace) : Prop :=
  ∃ dev ∈ u.devs, dev.card = some .sd ∧ 'p' ∉ dev.name.toList ∧ Spells dev.name u.procMounts

/-- The last `root=` of the command line has a PARTUUID. -/
def RootIsPartuuid (u : Userspace) : Prop :=
  ∃ line word, u.cmdline = some line ∧ word ≠ "" ∧
    sedWord "root=" line = some ("PARTUUID=" ++ word)

/-- When the three scripts agree: /proc/mounts has a node of an SD card just if the disk is
one, the programs that a pending recovery takes are there, and there is either a PARTUUID to
announce, and a name it can be announced by, or a node in /proc/mounts. -/
structure Agreeable (u : Userspace) (dev : BlockDev) : Prop where
  stamped : u.framSetExec = true ∧ (dev.card = some .sd ∧ SpellsCard u ∨
      dev.card = some .emmc ∧ ¬ SpellsCard u) ∨
    u.framSetExec = false ∧ dev.card = none
  recover : dev.card = some .sd → u.recoveryNeeded = some true →
    u.framGetExec = true ∧ u.framGetAnswers = true ∧ u.installOsExec = true
  announced : RootIsPartuuid u ∧ 'p' ∉ dev.name.toList ∨
    ¬ RootIsPartuuid u ∧ isMmcblk (basename u.procMounts) = true

/-! ## The stamp -/

section

variable {u : Userspace} {dev : BlockDev}

theorem beforeP_dev (name : String) : beforeP ("/dev/" ++ name) = "/dev/" ++ beforeP name := by
  have hnoP : ∀ c ∈ "/dev/".toList, (c != 'p') = true := by simp
  rw [beforeP, String.toList_append, List.takeWhile_append_of_pos hnoP, String.ofList_append]
  rfl

theorem stampName_dev {name : String} (h : u.procMounts = "/dev/" ++ name) :
    u.stampName = beforeP name := by
  unfold Userspace.stampName
  rw [h, beforeP_dev, String.toList_append, dropWord_append, String.ofList_toList]

theorem noP_stampName (u : Userspace) : 'p' ∉ u.stampName.toList := by
  unfold Userspace.stampName dropWord
  rw [String.toList_ofList]
  split
  · exact fun hmem => noP_beforeP _ (List.mem_of_mem_drop hmem)
  · exact noP_beforeP _

theorem spells_iff {name : String} (hname : isMmcblk name = true) (hp : 'p' ∉ name.toList) :
    Spells name u.procMounts ↔
      "/dev/mmcblk".toList.isPrefixOf u.procMounts.toList = true ∧ u.stampName = name := by
  rw [isMmcblk, List.isPrefixOf_iff_prefix] at hname
  rw [List.isPrefixOf_iff_prefix]
  constructor
  · intro hspells
    have hrest : ∃ rest, u.procMounts = "/dev/" ++ (name ++ rest) ∧
        (rest = "" ∨ ∃ number, rest = "p" ++ number) := by
      rcases hspells with heq | ⟨number, heq⟩
      · exact ⟨"", by rw [heq, String.append_empty], .inl rfl⟩
      · refine ⟨"p" ++ String.ofList number, ?_, .inr ⟨_, rfl⟩⟩
        rw [← String.toList_inj, ← heq]
        simp only [String.toList_append, String.toList_ofList, List.append_assoc]
    obtain ⟨rest, hsource, hrest⟩ := hrest
    constructor
    · rw [hsource, String.toList_append, String.toList_append]
      change "/dev/".toList ++ "mmcblk".toList <+: _
      exact (List.prefix_append_right_inj _).mpr (hname.trans (List.prefix_append _ _))
    · rw [stampName_dev hsource]
      rcases hrest with rfl | ⟨number, rfl⟩
      · rw [String.append_empty]
        exact beforeP_self hp
      · rw [← String.append_assoc]
        exact beforeP_append hp number
  · rintro ⟨⟨rest, hsource⟩, hstamp⟩
    have hsource : u.procMounts = "/dev/" ++ String.ofList ("mmcblk".toList ++ rest) := by
      rw [← String.toList_inj, ← hsource, String.toList_append]
      change "/dev/".toList ++ ("mmcblk".toList ++ rest) = _
      exact congrArg ("/dev/".toList ++ ·) String.toList_ofList.symm
    rw [stampName_dev hsource, beforeP, String.toList_ofList] at hstamp
    have hsplit := List.takeWhile_append_dropWhile (p := (· != 'p')) (l := "mmcblk".toList ++ rest)
    rw [Spells, hsource, ← hsplit, String.ofList_append, hstamp]
    cases hdrop : ("mmcblk".toList ++ rest).dropWhile (· != 'p') with
    | nil =>
        left
        rw [String.ofList_nil, String.append_empty]
    | cons c tail =>
        right
        have hc : c = 'p' := by
          have hhead := List.head?_dropWhile_not (· != 'p') ("mmcblk".toList ++ rest)
          rw [hdrop] at hhead
          simpa using hhead
        refine ⟨tail, ?_⟩
        simp only [hc, String.toList_append, String.toList_ofList, List.append_assoc]
        rfl

/-- A list without two elements of one key is searched by key. -/
theorem find?_key {α : Type} {key : α → String} {l : List α} (hnodup : (l.map key).Nodup) {a : α}
    (ha : a ∈ l) : l.find? (fun b => key b == key a) = some a := by
  cases hfind : l.find? fun b => key b == key a with
  | none => exact absurd (beq_self_eq_true _) (List.find?_eq_none.mp hfind a ha)
  | some b =>
      have hkey : key b = key a :=
        beq_iff_eq.mp (List.find?_some (p := fun b => key b == key a) hfind)
      rw [List.inj_on_of_nodup_map hnodup (List.mem_of_find?_eq_some hfind) ha hkey]

theorem cardOf_eq (hnodup : (u.devs.map BlockDev.name).Nodup) (hdev : dev ∈ u.devs) :
    u.cardOf dev.name = dev.card := by
  rw [Userspace.cardOf, find?_key hnodup hdev]
  rfl

theorem exists_of_cardOf {name : String} {card : MmcDevice} (h : u.cardOf name = some card) :
    ∃ dev ∈ u.devs, dev.name = name ∧ dev.card = some card := by
  obtain ⟨dev, hfind, hcard⟩ := Option.bind_eq_some_iff.mp h
  exact ⟨dev, List.mem_of_find?_eq_some hfind,
    beq_iff_eq.mp (List.find?_some (p := fun dev : BlockDev => dev.name == name) hfind), hcard⟩

/-- `MEDIA` is 1 just if /proc/mounts has a node of an SD card. -/
theorem media_eq_one_iff (hnames : ∀ dev ∈ u.devs, IsDiskName dev.name)
    (hnodup : (u.devs.map BlockDev.name).Nodup) : u.media = 1 ↔ SpellsCard u := by
  have hmedia : u.media = 1 ↔ "/dev/mmcblk".toList.isPrefixOf u.procMounts.toList = true ∧
      u.cardOf u.stampName = some .sd := by
    rw [Userspace.media]
    split
    · next h => exact ⟨fun _ => h, fun _ => rfl⟩
    · next h => exact ⟨nofun, fun h' => absurd h' h⟩
  rw [hmedia]
  constructor
  · rintro ⟨hnode, hcard⟩
    obtain ⟨dev, hdev, hname, hsd⟩ := exists_of_cardOf hcard
    have hp : 'p' ∉ dev.name.toList := hname ▸ noP_stampName u
    exact ⟨dev, hdev, hsd, hp, (spells_iff (hnames dev hdev).mmcblk hp).mpr ⟨hnode, hname.symm⟩⟩
  · rintro ⟨dev, hdev, hsd, hp, hspells⟩
    obtain ⟨hnode, hname⟩ := (spells_iff (hnames dev hdev).mmcblk hp).mp hspells
    refine ⟨hnode, ?_⟩
    rw [hname, cardOf_eq hnodup hdev]
    exact hsd

theorem media_cases (u : Userspace) : u.media = 0 ∨ u.media = 1 := by
  unfold Userspace.media
  split
  · exact .inr rfl
  · exact .inl rfl

theorem mem_stampImageId {act : Userspace.Act} (h : act ∈ u.stampImageId) :
    ∃ id, act = .framSet "boot_image_id" id := by
  unfold Userspace.stampImageId at h
  split at h
  · next id _ =>
      split at h
      · exact ⟨id, List.mem_singleton.mp h⟩
      · cases h
  · cases h

theorem needWord_iff (u : Userspace) : ["true", "True", "1"].contains u.needWord = true ↔
    u.framGetAnswers = true ∧ u.recoveryNeeded = some true := by
  unfold Userspace.needWord
  cases u.framGetAnswers with
  | false => simp
  | true =>
      cases u.recoveryNeeded with
      | none => simp
      | some needed => cases needed <;> simp

/-- What the script runs, in the order of the script. -/
theorem mem_start (u : Userspace) (act : Userspace.Act) :
    act ∈ u.start ↔ u.framSetExec = true ∧
      (act = .framSet "boot_media" (toString u.media) ∨ act ∈ u.stampImageId ∨
        act = .autoRecover ∧ u.media = 1 ∧ u.framGetExec = true ∧ u.installOsExec = true ∧
          u.framGetAnswers = true ∧ u.recoveryNeeded = some true) := by
  unfold Userspace.start
  split
  · next hexec =>
      rw [List.cons_append, List.mem_cons, List.mem_append, and_iff_right hexec, ← needWord_iff]
      refine or_congr_right (or_congr_right ?_)
      split
      · next hstarted => rw [List.mem_singleton, and_iff_left hstarted]
      · next hstarted => exact ⟨nofun, fun h => absurd h.2 hstarted⟩
  · next hexec => exact ⟨nofun, fun h => absurd h.1 hexec⟩

theorem stamped_iff (u : Userspace) (value : String) :
    .framSet "boot_media" value ∈ u.start ↔ u.framSetExec = true ∧ value = toString u.media := by
  rw [mem_start]
  refine and_congr_right fun _ => ⟨?_, fun h => .inl (by rw [h])⟩
  rintro (h | h | ⟨h, -⟩)
  · exact (Userspace.Act.framSet.inj h).2
  · obtain ⟨id, hid⟩ := mem_stampImageId h
    have hne : ("boot_media" : String) ≠ "boot_image_id" := by decide
    exact absurd (Userspace.Act.framSet.inj hid).1 hne
  · cases h

theorem autoRecover_iff (u : Userspace) : .autoRecover ∈ u.start ↔ u.framSetExec = true ∧
    u.media = 1 ∧ u.framGetExec = true ∧ u.installOsExec = true ∧ u.framGetAnswers = true ∧
      u.recoveryNeeded = some true := by
  rw [mem_start]
  refine and_congr_right fun _ => ⟨?_, fun h => .inr (.inr ⟨rfl, h⟩)⟩
  rintro (h | h | ⟨-, h⟩)
  · cases h
  · obtain ⟨id, hid⟩ := mem_stampImageId h
    cases hid
  · exact h

/-- The stamp tells the two kinds of media apart, and the recovery is started, as it should. -/
theorem stamp_iff (hnames : ∀ dev ∈ u.devs, IsDiskName dev.name)
    (hnodup : (u.devs.map BlockDev.name).Nodup) :
    ((.framSet "boot_media" "1" ∈ u.start ↔ dev.card = some .sd) ∧
      (.framSet "boot_media" "0" ∈ u.start ↔ dev.card = some .emmc) ∧
      (.autoRecover ∈ u.start ↔ dev.card = some .sd ∧ u.recoveryNeeded = some true)) ↔
    ((u.framSetExec = true ∧ (dev.card = some .sd ∧ SpellsCard u ∨
        dev.card = some .emmc ∧ ¬ SpellsCard u) ∨
      u.framSetExec = false ∧ dev.card = none) ∧
    (dev.card = some .sd → u.recoveryNeeded = some true →
      u.framGetExec = true ∧ u.framGetAnswers = true ∧ u.installOsExec = true)) := by
  have hone : "1" = toString u.media ↔ SpellsCard u := by
    rw [← media_eq_one_iff hnames hnodup]
    rcases media_cases u with h | h <;> rw [h] <;> decide
  have hzero : "0" = toString u.media ↔ ¬ SpellsCard u := by
    rw [← media_eq_one_iff hnames hnodup]
    rcases media_cases u with h | h <;> rw [h] <;> decide
  rw [stamped_iff, stamped_iff, autoRecover_iff, hone, hzero, media_eq_one_iff hnames hnodup]
  cases hcard : dev.card with
  | none => cases u.framSetExec <;> by_cases hspells : SpellsCard u <;> simp [hspells]
  | some card =>
      cases card with
      | sd =>
          cases u.framSetExec <;> by_cases hspells : SpellsCard u <;> simp [hspells]
          tauto
      | emmc => cases u.framSetExec <;> by_cases hspells : SpellsCard u <;> simp [hspells]

/-! ## The banner -/

theorem sedWord_append {key rest word line : String} (hkey : ' ' ∉ rest.toList)
    (h : sedWord key line = some (rest ++ word)) : sedWord (key ++ rest) line = some word := by
  obtain ⟨found, hfound, hword⟩ := Option.map_eq_some_iff.mp h
  have hchars : found.takeWhile (· != ' ') = rest.toList ++ word.toList := by
    rw [← String.toList_append, ← hword, String.toList_ofList]
  have hsplit := List.takeWhile_append_dropWhile (p := (· != ' ')) (l := found)
  have hafter : afterLast key.toList line.toList =
      some (rest.toList ++ (word.toList ++ found.dropWhile (· != ' '))) := by
    rw [hfound, ← List.append_assoc, ← hchars, hsplit]
  have hlong := afterLast_append hafter
  rw [← String.toList_append] at hlong
  rw [sedWord, hlong, Option.map_some, Option.some_inj]
  have hrest : ∀ c ∈ rest.toList, (c != ' ') = true :=
    fun c hc => bne_iff_ne.mpr fun heq => hkey (heq ▸ hc)
  have hagain : found.takeWhile (· != ' ') =
      rest.toList ++ (word.toList ++ found.dropWhile (· != ' ')).takeWhile (· != ' ') := by
    rw [← List.takeWhile_append_of_pos hrest, ← List.append_assoc, ← hchars, hsplit]
  rw [← String.toList_inj, String.toList_ofList]
  exact (List.append_cancel_left (hchars.symm.trans hagain)).symm

theorem announcedPartuuid_eq {line word : String} (hline : u.cmdline = some line)
    (hword : sedWord "root=" line = some ("PARTUUID=" ++ word)) : u.announcedPartuuid = word := by
  have hroot : u.cmdlineRoot = "PARTUUID=" ++ word := by
    rw [Userspace.cmdlineRoot, hline, Option.bind_some, hword]
    rfl
  have hchars : u.cmdlineRoot.toList = "PARTUUID=".toList ++ word.toList := by
    rw [hroot, String.toList_append]
  rw [Userspace.announcedPartuuid, hchars,
    if_pos (List.isPrefixOf_iff_prefix.mpr (List.prefix_append _ _))]
  exact String.ofList_toList

theorem rootIsPartuuid_iff (u : Userspace) : RootIsPartuuid u ↔ u.announcedPartuuid ≠ "" := by
  constructor
  · rintro ⟨line, word, hline, hne, hword⟩
    rw [announcedPartuuid_eq hline hword]
    exact hne
  · intro hne
    have hprefix : "PARTUUID=".toList <+: u.cmdlineRoot.toList := by
      by_contra hnot
      refine hne (if_neg ?_)
      rwa [List.isPrefixOf_iff_prefix]
    obtain ⟨rest, hrest⟩ := hprefix
    cases hsed : u.cmdline.bind (sedWord "root=") with
    | none =>
        rw [Userspace.cmdlineRoot, hsed] at hrest
        cases hrest
    | some root =>
        obtain ⟨line, hline, hword⟩ := Option.bind_eq_some_iff.mp hsed
        have hroot : root = "PARTUUID=" ++ String.ofList rest := by
          rw [Userspace.cmdlineRoot, hsed, Option.getD_some] at hrest
          rw [← String.toList_inj, ← hrest, String.toList_append]
          exact congrArg ("PARTUUID=".toList ++ ·) String.toList_ofList.symm
        rw [hroot] at hword
        refine ⟨line, _, hline, ?_, hword⟩
        rwa [announcedPartuuid_eq hline hword] at hne

/-- The PARTUUID that is announced is the one `install-os` goes by. -/
theorem rootPartuuid_of_announced (h : u.announcedPartuuid ≠ "") :
    u.rootPartuuid = some u.announcedPartuuid := by
  obtain ⟨line, word, hline, -, hword⟩ := (rootIsPartuuid_iff u).mpr h
  rw [announcedPartuuid_eq hline hword, Userspace.rootPartuuid, hline, Option.bind_some]
  exact sedWord_append (by decide) hword

theorem noSlash_toString (n : Nat) : '/' ∉ (toString n).toList := by
  intro hmem
  change '/' ∈ n.repr.toList at hmem
  rw [Nat.toList_repr] at hmem
  exact absurd (Nat.isDigit_of_mem_toDigits (by decide) (by decide) hmem) (by decide)

/-- A banner for a source names the disk that `root_disk_name` would have for it. -/
theorem bannerOf_names {name : String} (hname : isMmcblk name = true) (src : String) :
    (u.bannerOf src).Names name ↔
      isMmcblk (basename src) = true ∧ beforeP (basename src) = name := by
  unfold Userspace.bannerOf
  split
  · next hunknown =>
      have hsource : isMmcblk (basename src) = false := by
        rcases hunknown with rfl | rfl | rfl <;> decide
      rw [hsource]
      exact ⟨False.elim, fun h => Bool.false_ne_true h.1⟩
  · rw [isMmcblkPart]
    cases hsource : isMmcblk (basename src) with
    | false =>
        refine ⟨fun heq => ?_, fun h => absurd h.1 Bool.false_ne_true⟩
        have heq : basename src = name := heq
        rw [heq, hname] at hsource
        cases hsource
    | true =>
        rw [Bool.true_and, and_iff_right rfl]
        split
        · exact Iff.rfl
        · next hnoP =>
            have hp : 'p' ∉ (basename src).toList := by
              rwa [List.contains_iff_mem] at hnoP
            rw [beforeP_self hp]
            exact Iff.rfl

theorem partitionNode_rootDisk {disk : String} (hdisk : IsDiskName disk) (part : Nat) :
    isMmcblk (basename (Userspace.partitionNode disk part)) = true ∧
      (beforeP (basename (Userspace.partitionNode disk part)) = disk ↔ 'p' ∉ disk.toList) :=
  NodeOf.rootDisk (.inr ⟨toString part, noSlash_toString part, rfl⟩) hdisk

/-- Whether found by `findfs` or by its signature, the disk is announced by its node. -/
theorem announcedSource_partuuid (h : Resolved u dev) (hne : u.announcedPartuuid ≠ "") :
    ∃ part, u.announcedSource = some (Userspace.partitionNode dev.name part) := by
  obtain ⟨hsig, hpart⟩ := h.partuuid _ (rootPartuuid_of_announced hne) hne
  obtain ⟨part, hpart⟩ := Option.isSome_iff_exists.mp hpart
  have hsearch (src : String) : u.searchSignature src u.announcedPartuuid =
      some (Userspace.partitionNode dev.name part) := by
    rw [Userspace.searchSignature, hpart, Option.map_some, ← hsig,
      @find?_key _ (fun dev => mbrSigLe (u.disk dev)) _ h.distinct _ h.mem]
  have hnode : Userspace.partitionNode dev.name part ≠ "" := by
    intro hempty
    have hmmcblk := (partitionNode_rootDisk (h.names dev h.mem) part).1
    rw [hempty] at hmmcblk
    exact absurd hmmcblk (by decide)
  refine ⟨part, ?_⟩
  rw [Userspace.announcedSource, if_neg hne]
  cases hfindfs : u.findfs with
  | none => exact (if_pos (.inl rfl)).trans (hsearch _)
  | some findfs =>
      dsimp only
      rcases h.findfs findfs hfindfs _ dev part h.mem hsig hpart with hempty | hfound
      · rw [hempty]
        exact (if_pos (.inl rfl)).trans (hsearch _)
      · rw [hfound, if_neg hnode]
        split
        · exact hsearch _
        · rfl

/-- The disk is announced by way of the PARTUUID, or by its node in /proc/mounts. -/
theorem announced_iff (h : Resolved u dev) :
    (∃ banner, u.announce = some banner ∧ banner.Names dev.name) ↔
      RootIsPartuuid u ∧ 'p' ∉ dev.name.toList ∨
        ¬ RootIsPartuuid u ∧ isMmcblk (basename u.procMounts) = true := by
  have hdisk := h.names dev h.mem
  have hannounce {src : String} (hsrc : u.announcedSource = some src) :
      (∃ banner, u.announce = some banner ∧ banner.Names dev.name) ↔
        isMmcblk (basename src) = true ∧ beforeP (basename src) = dev.name := by
    rw [Userspace.announce, hsrc, Option.map_some, ← bannerOf_names hdisk.mmcblk]
    constructor
    · rintro ⟨_, heq, hnames⟩
      rwa [← Option.some.inj heq] at hnames
    · exact fun hnames => ⟨_, rfl, hnames⟩
  by_cases hpartuuid : RootIsPartuuid u
  · obtain ⟨part, hsource⟩ := announcedSource_partuuid h ((rootIsPartuuid_iff u).mp hpartuuid)
    obtain ⟨hmmcblk, hname⟩ := partitionNode_rootDisk hdisk part
    rw [hannounce hsource, hname, and_iff_right hmmcblk, and_iff_right hpartuuid]
    exact ⟨.inl, fun h => h.resolve_right fun hnot => hnot.1 hpartuuid⟩
  · have hempty : u.announcedPartuuid = "" :=
      not_not.mp fun hne => hpartuuid ((rootIsPartuuid_iff u).mpr hne)
    have hsource : u.announcedSource = some u.procMounts := by
      rw [Userspace.announcedSource, if_pos hempty]
    rw [hannounce hsource]
    constructor
    · exact fun hnamed => .inr ⟨hpartuuid, hnamed.1⟩
    · rintro (⟨hpartuuid', -⟩ | ⟨-, hmmcblk⟩)
      · exact absurd hpartuuid' hpartuuid
      · refine ⟨hmmcblk, ?_⟩
        have hne : u.procMounts ≠ "" := by
          intro heq
          rw [heq] at hmmcblk
          exact absurd hmmcblk (by decide)
        have hroot : u.rootSource = u.procMounts := if_neg hne
        rw [← h.name, Userspace.rootDiskName, hroot]
        exact (rootDisk_of_mmcblk _ _ _ hmmcblk).symm

/-! ## When the scripts agree -/

/-- The three scripts agree on the disk of the root exactly if /proc/mounts tells the kind of
its medium, the recovery can be started if it is needed, and the disk can be announced. -/
theorem agrees_iff (h : Resolved u dev) : Agrees u dev ↔ Agreeable u dev := by
  have hstamp := @stamp_iff u dev h.names h.nodup
  have hannounced := announced_iff h
  constructor
  · intro hagrees
    obtain ⟨hstamped, hrecover⟩ := hstamp.mp ⟨hagrees.sd, hagrees.emmc, hagrees.recover⟩
    exact ⟨hstamped, hrecover, hannounced.mp hagrees.announced⟩
  · intro hagreeable
    obtain ⟨hsd, hemmc, hrecover⟩ := hstamp.mpr ⟨hagreeable.stamped, hagreeable.recover⟩
    exact ⟨hsd, hemmc, hrecover, hannounced.mpr hagreeable.announced⟩

end

/-! ## A board that runs from the card -/

open RadsatLinux.InstallOs.EmmcToSd

def cardDev : BlockDev := ⟨"mmcblk0", some .sd, 8388608, true⟩

/-- The root is the second partition of the card, by PARTUUID, and a recovery is pending. -/
def cardBoard (procMounts : String) : Userspace where
  procMounts := procMounts
  mountOutput := procMounts
  cmdline := some "console=ttyS0,115200n8 root=PARTUUID=4b4c4e58-02 ro rootwait"
  devs := [cardDev, ⟨"mmcblk1", some .emmc, 8388608, true⟩]
  disk dev _ := if dev = cardDev then sdSignature else emmcSignature
  findfs := some fun partuuid => if partuuid = "4b4c4e58-02" then "/dev/mmcblk0p2" else ""
  framSetExec := true
  framGetExec := true
  framGetAnswers := true
  installOsExec := true
  recoveryNeeded := some true
  imageId := none

theorem cardBoard_partuuid (procMounts : String) :
    (cardBoard procMounts).rootPartuuid = some "4b4c4e58-02" := by
  change (cardBoard "").rootPartuuid = _
  decide +kernel

theorem cardBoard_resolved {procMounts : String}
    (hname : (cardBoard procMounts).rootDiskName = "mmcblk0") :
    Resolved (cardBoard procMounts) cardDev where
  mem := List.mem_cons_self
  name := hname
  names := by
    change ∀ dev ∈ (cardBoard "").devs, IsDiskName dev.name
    decide
  nodup := by
    change ((cardBoard "").devs.map BlockDev.name).Nodup
    decide
  distinct := by
    change ((cardBoard "").devs.map fun dev => mbrSigLe ((cardBoard "").disk dev)).Nodup
    decide +kernel
  partuuid := by
    intro partuuid hpartuuid _
    obtain rfl := Option.some.inj ((cardBoard_partuuid procMounts).symm.trans hpartuuid)
    exact ⟨by change mbrSigLe ((cardBoard "").disk cardDev) = _; decide +kernel, by decide⟩
  findfs := by
    intro findfs hfindfs partuuid dev part hdev hsig hpart
    obtain rfl := Option.some.inj hfindfs
    dsimp only
    split
    · next hpartuuid =>
        rw [hpartuuid] at hsig hpart
        obtain rfl : 2 = part := Option.some.inj hpart
        rcases List.mem_cons.mp hdev with rfl | hdev
        · exact .inr rfl
        · obtain rfl := List.mem_singleton.mp hdev
          have hother : mbrSigLe ((cardBoard "").disk ⟨"mmcblk1", some .emmc, 8388608, true⟩) ≠
              partuuidSig "4b4c4e58-02" := by
            decide +kernel
          exact absurd hsig hother
    · exact .inl rfl

/-- Where /proc/mounts has the node of the partition, the scripts agree. -/
theorem agrees_cardNode : Agrees (cardBoard "/dev/mmcblk0p2") cardDev :=
  (agrees_iff (cardBoard_resolved (by decide +kernel))).mpr
    ⟨.inl ⟨rfl, .inl ⟨rfl, cardDev, List.mem_cons_self, rfl, by decide, .inr (by decide)⟩⟩,
      fun _ _ => ⟨rfl, rfl, rfl⟩,
      .inl ⟨(rootIsPartuuid_iff _).mpr (by decide +kernel), by decide⟩⟩

/-- Where it has /dev/root, `root_disk_name` finds the card, but the eMMC is stamped as the boot
medium and the pending recovery is not started. -/
theorem not_agrees_devRoot :
    Resolved (cardBoard "/dev/root") cardDev ∧
      .framSet "boot_media" "0" ∈ (cardBoard "/dev/root").start ∧
      .autoRecover ∉ (cardBoard "/dev/root").start ∧
      ¬ Agrees (cardBoard "/dev/root") cardDev := by
  have hstamp : .framSet "boot_media" "0" ∈ (cardBoard "/dev/root").start := by decide +kernel
  refine ⟨cardBoard_resolved (by decide +kernel), hstamp, by decide +kernel, fun hagrees => ?_⟩
  exact absurd (hagrees.emmc.mp hstamp) (by decide)

end RadsatLinux.Init.RootMedia
