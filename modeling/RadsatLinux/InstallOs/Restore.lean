import RadsatLinux.InstallOs.Script
import RadsatLinux.Library.Crash

/-!
# What a restore by `install-os` leaves behind

`Holds` is the invariant of a run in which no copying `dd` fails: what the eMMC has in
common with the SD card, what the stored offset says, and that every recorded action was
sound when it was done.  Each command keeps it or stops the run in a state that can still
be resumed.
-/

namespace RadsatLinux.InstallOs.Restore

open RadsatLinux.Library.Crash RadsatLinux.Library.BlockDevice
open RadsatLinux.Library.ShellNumber
open RadsatLinux.Fram.Record RadsatLinux.Fram.Memory
open RadsatLinux.UBoot.Hardware
open RadsatLinux.InstallOs.Commands RadsatLinux.InstallOs.Script

/-! ## Sectors and partitions -/

/-- Sectors that are equal, up to the disk signature in the first one. -/
def ExceptSignature (i : Nat) (x y : Sector) : Prop :=
  ∀ j : Fin 512, (i = 0 → j.val < 440 ∨ 444 ≤ j.val) → x j = y j

theorem exceptSignature_refl (i : Nat) (x : Sector) : ExceptSignature i x x :=
  fun _ _ => rfl

theorem exceptSignature_setSignature {k : Nat} {a b : Disk} (bytes : Sector)
    (h : AgreeBelow ExceptSignature k a b) :
    AgreeBelow ExceptSignature k (setSignature bytes a) b := by
  intro i hi j hj
  rw [← h i hi j hj]
  refine if_neg ?_
  rintro ⟨hzero, hlow, hhigh⟩
  have := hj hzero
  omega

/-- The kernel's partition table of the eMMC after `partx -u`. -/
def refreshedParts (l : Linux) : List Partition :=
  l.partx.getD (l.parts .emmc)

/-- The partition that becomes /home: the fourth one, at once or after the wait. -/
def homePartition (l : Linux) (span fullSpan : Nat) : Option Partition :=
  match findPartition 4 (refreshedParts l) with
  | some p => some p
  | none => if span < fullSpan then l.lateP4 else none

/-! ## The setting of a run -/

/-- What a run starts from, and what is asked of it: `read` is the reader that the stored
offset is for, `r` relates the sectors that were copied, `r'` also allows for the disk
signature, `known pos offset` says that a stored offset is no further on than `pos`, and
`resumable` is what a stopped run must leave. -/
structure Setting where
  service : FramService
  read : Chip → Option U64
  s₀ : System
  span : Nat
  fullSpan : Nat
  r : Nat → Sector → Sector → Prop
  r' : Nat → Sector → Sector → Prop
  known : Nat → Option U64 → Prop
  resumable : Option U64 → Disk → Disk → Prop
  span_lt : span < 2 ^ 31
  fullSpan_lt : fullSpan < 2 ^ 31
  read_store : ∀ request chip, read (service.store request chip) = offsetAfter request (read chip)
  refl : ∀ i x, r i x x
  weaken : ∀ k a b, AgreeBelow r k a b → AgreeBelow r' k a b
  signature : ∀ k bytes a b, AgreeBelow r' k a b → AgreeBelow r' k (setSignature bytes a) b
  known_mono : ∀ {pos pos' offset}, pos ≤ pos' → known pos offset → known pos' offset
  known_none : ∀ pos, known pos none
  known_pos : ∀ pos, known pos (some (BitVec.ofNat 64 pos))
  resumable_of : ∀ {pos offset emmc sd}, pos ≤ span → known pos offset →
    AgreeBelow r' pos emmc sd → resumable offset emmc sd
  faultless : ∀ left, MmcEvent.fail left ∉ s₀.dds
  home_above : ∀ p, homePartition s₀.toLinux span fullSpan = some p → span ≤ p.start

namespace Setting

variable (S : Setting)

/-- The copy and, if no signature was miswritten, the signature. -/
structure Signed (emmc sd : Disk) : Prop where
  agree : AgreeBelow S.r' S.span emmc sd
  signature : (∀ left, MmcEvent.fail left ∉ S.s₀.signatures) →
    ∀ j : Fin 512, 440 ≤ j.val → j.val < 444 → emmc 0 j = emmcSignature j

/-- Besides, unless `mkfs.ext4` failed, a fresh /home. -/
structure Good (emmc sd : Disk) : Prop extends S.Signed emmc sd where
  home : (∀ left, MmcEvent.fail left ∉ S.s₀.mkfs) →
    ∀ p, homePartition S.s₀.toLinux S.span S.fullSpan = some p →
      ∀ i, p.start ≤ i → i < p.start + p.size → emmc i = S.s₀.fresh i

/-- Above the span, and outside what becomes /home. -/
def Spared (i : Nat) : Prop :=
  S.span ≤ i ∧ ∀ p, homePartition S.s₀.toLinux S.span S.fullSpan = some p →
    i < p.start ∨ p.start + p.size ≤ i

/-- An offset is only stored below which the copy is complete, and recovery is only cleared
when the eMMC is good. -/
def Sound : Action × Durable → Prop
  | (.setFlag (.emmcRestoreOffset offset), d) => AgreeBelow S.r offset.toNat d.emmc d.sd
  | (.clearRecovery, d) => S.Good d.emmc d.sd
  | _ => True

end Setting

/-- What no command changes. -/
def fixedPart (s : System) : Linux :=
  { s.toLinux with
    parts := fun _ => [], serviceRunning := false, requests := [], dds := [], signatures := [],
    mkfs := [], mounts := [] }

namespace Setting

variable (S : Setting)

/-- A running restore: `A` holds of the eMMC and the SD card, `C` of the stored offset. -/
structure Holds (parts : MmcDevice → List Partition) (A : Disk → Disk → Prop)
    (C : Option U64 → Prop) (s : System) : Prop where
  fixed : fixedPart s = fixedPart S.s₀
  parts : s.parts = parts
  sd : s.sd = S.s₀.sd
  spared : ∀ i, S.Spared i → s.emmc i = S.s₀.emmc i
  dds : s.dds <:+ S.s₀.dds
  signatures : s.signatures <:+ S.s₀.signatures
  mkfs : s.mkfs <:+ S.s₀.mkfs
  media : A s.emmc s.sd
  offset : C (S.read s.fram)
  trace : ∀ e ∈ s.trace, S.Sound e

/-- A stopped restore. -/
structure Halted (e : Stop) (s : System) : Prop where
  sd : s.sd = S.s₀.sd
  spared : ∀ i, S.Spared i → s.emmc i = S.s₀.emmc i
  trace : ∀ entry ∈ s.trace, S.Sound entry
  resumable : e.Detected S.read → S.resumable (S.read s.fram) s.emmc s.sd

/-- What must hold when the script is stopped after it has begun. -/
def Stops (e : Stop) (s : System) : Prop :=
  e ≠ .exit 0 ∧ S.Halted e s

end Setting

section Commands

variable {S : Setting} {parts : MmcDevice → List Partition} {A A' : Disk → Disk → Prop}
  {C C' : Option U64 → Prop} {s : System}

namespace Setting.Holds

theorem mono (h : S.Holds parts A C s) (hA : A s.emmc s.sd → A' s.emmc s.sd)
    (hC : ∀ offset, C offset → C' offset) : S.Holds parts A' C' s :=
  { h with media := hA h.media, offset := hC _ h.offset }

theorem partx_eq (h : S.Holds parts A C s) : s.partx = S.s₀.partx := by
  have hfixed := congrArg Linux.partx h.fixed
  exact hfixed

theorem lateP4_eq (h : S.Holds parts A C s) : s.lateP4 = S.s₀.lateP4 := by
  have hfixed := congrArg Linux.lateP4 h.fixed
  exact hfixed

theorem fresh_eq (h : S.Holds parts A C s) : s.fresh = S.s₀.fresh := by
  have hfixed := congrArg Linux.fresh h.fixed
  exact hfixed

theorem halted {e : Stop} (h : S.Holds parts A C s)
    (hresume : ∀ offset emmc sd, A emmc sd → C offset → S.resumable offset emmc sd) :
    S.Halted e s :=
  ⟨h.sd, h.spared, h.trace, fun _ => hresume _ _ _ h.media h.offset⟩

end Setting.Holds

theorem wp_nextRequest (Q : RequestEvent → System → Prop) (R : Stop → System → Prop)
    (s : System) : wp nextRequest Q R s ↔
      Q (s.requests.headD .served) { s with requests := s.requests.tail } := Iff.rfl

/-- `fram-set` with a request that keeps `C` and stores no offset too far on. -/
theorem framSet_holds (request : FlagSet) (h : S.Holds parts A C s)
    (hC : ∀ old, C old → C (offsetAfter request old))
    (hnone : ∀ offset, request = .emmcRestoreOffset offset → C none)
    (hsound : ∀ offset, request = .emmcRestoreOffset offset →
      AgreeBelow S.r offset.toNat s.emmc s.sd)
    (hresume : ∀ offset emmc sd, A emmc sd → C offset → S.resumable offset emmc sd) :
    wp (framSet S.service request)
      (fun _ s' => S.Holds parts A C s' ∧ s'.toDurable = { s.toDurable with fram := s'.fram })
      S.Stops s := by
  unfold framSet
  rw [wp_bind, wp_get]
  split
  · exact ⟨h, rfl⟩
  · rw [wp_bind, wp_nextRequest]
    cases s.requests.headD .served with
    | served =>
        refine ⟨⟨h.fixed, h.parts, h.sd, h.spared, h.dds, h.signatures, h.mkfs, h.media, ?_, ?_⟩,
          rfl⟩
        · rw [S.read_store]
          exact hC _ h.offset
        · intro e he
          rcases List.mem_cons.mp he with rfl | he
          · cases request with
            | emmcRestoreOffset offset => exact hsound offset rfl
            | emmcRecoveryNeeded value => trivial
            | lastEmmcProbeOk value => trivial
            | bootMedia value => trivial
          · exact h.trace e he
    | failed => exact ⟨{ h with }, rfl⟩
    | cut left =>
        refine ⟨nofun, h.sd, h.spared, h.trace, fun hdetected => hresume _ _ _ h.media ?_⟩
        -- The chip has the old offset, the new one, or none.
        rcases hdetected with hold | hnew | ⟨⟨offset, hrequest⟩, hgone⟩
        · rw [hold]
          exact h.offset
        · rw [hnew]
          exact hC _ h.offset
        · rw [hgone]
          exact hnone offset hrequest

theorem wp_nextDd (Q : MmcEvent → System → Prop) (R : Stop → System → Prop) (s : System) :
    wp nextDd Q R s ↔ Q (s.dds.headD .ok) { s with dds := s.dds.tail } := Iff.rfl

theorem mem_of_headD {α : Type} {l : List α} {default a : α} (h : l.headD default = a)
    (hne : a ≠ default) : a ∈ l := by
  cases l with
  | nil => exact absurd h.symm hne
  | cons x xs =>
      rw [List.headD_cons] at h
      exact h ▸ List.mem_cons_self

theorem record_holds {action : Action} (h : S.Holds parts A C s)
    (hsound : S.Sound (action, s.toDurable)) :
    wp (record action) (fun _ s' => S.Holds parts A C s' ∧ s'.toDurable = s.toDurable ∧
      s'.toLinux = s.toLinux) S.Stops s := by
  refine ⟨{ h with trace := ?_ }, rfl, rfl⟩
  intro e he
  rcases List.mem_cons.mp he with rfl | he
  · exact hsound
  · exact h.trace e he

/-- What a stopped copy leaves can be resumed. -/
theorem resumable_of_copied {first pos : Nat} (hpos : pos ≤ first) (hspan : pos ≤ S.span)
    {offset : Option U64} {emmc sd : Disk} (hagree : AgreeBelow S.r first emmc sd)
    (hknown : S.known pos offset) : S.resumable offset emmc sd :=
  S.resumable_of hspan hknown (S.weaken _ _ _ (hagree.anti hpos))

theorem spared_overwrite {first count : Nat} {emmc : Disk} (hend : first + count ≤ S.span)
    (h : ∀ i, S.Spared i → emmc i = S.s₀.emmc i) (data : Disk) (i : Nat) (hi : S.Spared i) :
    overwrite emmc first count data i = S.s₀.emmc i := by
  rw [overwrite_outside (Or.inr (Nat.le_trans hend hi.1))]
  exact h i hi

/-- A `dd` of the sectors at the position of the copy. -/
theorem dd_holds {first pos bs skip count : Nat} (hfirst : skip * bs = first) (hpos : pos ≤ first)
    (hspan : first + count * bs ≤ S.span)
    (h : S.Holds parts (AgreeBelow S.r first) (S.known pos) s) :
    wp (dd .sd .emmc bs skip skip count)
      (fun _ s' => S.Holds parts (AgreeBelow S.r (first + count * bs)) (S.known pos) s')
      S.Stops s := by
  subst hfirst
  unfold dd
  dsimp only
  refine wp_seq (record_holds h trivial) ?_
  rintro _ s₁ ⟨h₁, -, -⟩
  rw [wp_bind, wp_nextDd]
  cases hevent : s₁.dds.headD .ok with
  | ok =>
      refine ⟨h₁.fixed, h₁.parts, h₁.sd, spared_overwrite hspan h₁.spared _,
        (List.tail_suffix _).trans h₁.dds, h₁.signatures, h₁.mkfs, ?_, h₁.offset, h₁.trace⟩
      have hcopy : overwrite s₁.emmc (skip * bs) (count * bs)
          (fun i => s₁.sd (i - skip * bs + skip * bs)) =
          overwrite s₁.emmc (skip * bs) (count * bs) s₁.sd :=
        overwrite_congr fun i hlow _ => by rw [Nat.sub_add_cancel hlow]
      change AgreeBelow S.r _ (overwrite s₁.emmc (skip * bs) (count * bs)
        fun i => s₁.sd (i - skip * bs + skip * bs)) s₁.sd
      rw [hcopy]
      exact h₁.media.copy_chunk S.refl
  | fail left =>
      have hmem := mem_of_headD hevent (by simp)
      exact absurd (h₁.dds.subset hmem) (S.faultless left)
  | cut left =>
      refine ⟨nofun, h₁.sd, spared_overwrite hspan h₁.spared _, h₁.trace, fun _ => ?_⟩
      exact resumable_of_copied hpos (by omega)
        (h₁.media.overwrite_above (Nat.le_refl _) left) h₁.offset

theorem ddSpan_holds {pos count : Nat} (hcount : count < 2 ^ 31) (hspan : pos + count ≤ S.span)
    (h : S.Holds parts (AgreeBelow S.r pos) (S.known pos) s) :
    wp (ddSpan .sd .emmc count pos pos)
      (fun _ s' => S.Holds parts (AgreeBelow S.r (pos + count)) (S.known pos) s')
      S.Stops s := by
  have hdiv := Nat.div_add_mod count 8192
  by_cases hpos : pos = 0
  · subst hpos
    rw [ddSpan_start .sd .emmc hcount]
    split
    · refine wp_seq (dd_holds (Nat.zero_mul _) (Nat.le_refl _) (by omega) h) ?_
      intro _ s₁ h₁
      have hcount : 0 + count / 8192 * 8192 = 0 + count := by omega
      rwa [hcount] at h₁
    · have remainder {s₁ : System}
          (h₁ : S.Holds parts (AgreeBelow S.r (count / 8192 * 8192)) (S.known 0) s₁) :
          wp (do
              let _ ← dd .sd .emmc 1 (count / 8192 * 8192) (count / 8192 * 8192) (count % 8192)
              pure ())
            (fun _ s' => S.Holds parts (AgreeBelow S.r (0 + count)) (S.known 0) s')
            S.Stops s₁ := by
        refine wp_seq (dd_holds (Nat.mul_one _) (Nat.zero_le _) (by omega) h₁) ?_
        intro _ s₂ h₂
        have hcount : count / 8192 * 8192 + count % 8192 * 1 = 0 + count := by omega
        rwa [hcount] at h₂
      split
      · refine wp_seq (dd_holds (Nat.zero_mul _) (Nat.le_refl _) (by omega) h) ?_
        intro _ s₁ h₁
        rw [Nat.zero_add] at h₁
        exact remainder h₁
      · refine remainder ?_
        have hblk : count / 8192 * 8192 = 0 := by omega
        rw [hblk]
        exact h
  · rw [ddSpan_offset .sd .emmc (Or.inl hpos)]
    refine wp_seq (dd_holds (Nat.mul_one _) (Nat.le_refl _) (by omega) h) ?_
    intro _ s₁ h₁
    rwa [Nat.mul_one] at h₁

/-- Storing an offset no further on than the position of the copy. -/
theorem framSetRestoreOffset_holds {pos offset : Nat} (hoffset : offset ≤ pos)
    (hspan : pos ≤ S.span) (h : S.Holds parts (AgreeBelow S.r pos) (S.known pos) s) :
    wp (framSetRestoreOffset S.service offset)
      (fun _ s' => S.Holds parts (AgreeBelow S.r pos) (S.known pos) s') S.Stops s := by
  refine wp_mono (framSet_holds _ h ?_ ?_ ?_ ?_) (fun _ _ h => h.1) fun _ _ h => h
  · exact fun _ _ => S.known_mono hoffset (S.known_pos offset)
  · exact fun _ _ => S.known_none pos
  · intro stored heq
    cases heq
    refine h.media.anti ?_
    rw [BitVec.toNat_ofNat]
    exact Nat.le_trans (Nat.mod_le _ _) hoffset
  · exact fun _ _ _ hagree hknown => resumable_of_copied (Nat.le_refl _) hspan hagree hknown

/-- The copy loop, by induction on its position. -/
theorem copyChunks_holds {pos : Nat} (hspan : pos ≤ S.span)
    (h : S.Holds parts (AgreeBelow S.r pos) (S.known pos) s) :
    wp (copyChunks S.service S.span pos)
      (fun _ s' => S.Holds parts (AgreeBelow S.r S.span) (S.known S.span) s') S.Stops s := by
  induction pos using copyChunks.induct S.span generalizing s with
  | case1 pos hlt ih =>
      obtain ⟨-, hchunk, hend⟩ := chunkAt_of_testLt hlt
      have hcount : chunkAt S.span pos < 2 ^ 31 := Nat.lt_of_le_of_lt hchunk (by decide)
      rw [nextPos_of_testLt hlt] at ih
      rw [copyChunks, if_pos hlt, nextPos_of_testLt hlt]
      refine wp_seq (ddSpan_holds hcount hend h) ?_
      intro _ s₁ h₁
      have h₁ := h₁.mono id fun _ =>
        S.known_mono (Nat.le_add_right pos (chunkAt S.span pos))
      refine wp_seq (framSetRestoreOffset_holds (Nat.le_refl _) hend h₁) ?_
      intro _ s₂ h₂
      refine wp_seq (record_holds h₂ trivial) ?_
      rintro _ s₃ ⟨h₃, -⟩
      exact ih hend h₃
  | case2 pos hge =>
      rw [copyChunks, if_neg hge]
      have hsmall := S.span_lt
      rw [testLt_of_small (by omega) hsmall, decide_eq_true_eq] at hge
      obtain rfl : pos = S.span := by omega
      exact h

/-- The service will store the next flag. -/
structure Serves (s : System) : Prop where
  exec : s.framSetExec = true
  running : s.serviceRunning = true
  next : s.requests.headD .served = .served

theorem framSet_served {service : FramService} (request : FlagSet) (h : Serves s) :
    wp (framSet service request)
      (fun _ s' => s' =
        { s with
          fram := service.store request s.fram, requests := s.requests.tail,
          trace := (.setFlag request, { s.toDurable with
            fram := service.store request s.fram }) :: s.trace })
      (fun _ _ => False) s := by
  unfold framSet
  rw [wp_bind, wp_get, if_neg (by simp [h.exec, h.running]), wp_bind, wp_nextRequest, h.next]
  exact rfl

/-- The copy may begin at `pos`: the stored offset is no further on, or is sure to be set
to 0 before anything is written. -/
def Setting.Ready (S : Setting) (parts : MmcDevice → List Partition) (pos : Nat)
    (s : System) : Prop :=
  S.Holds parts (AgreeBelow S.r pos) (S.known pos) s ∨
    pos = 0 ∧ S.Holds parts (AgreeBelow S.r 0) (fun _ => True) s ∧ Serves s

/-- The offset is set to 0 where the copy begins at 0. -/
theorem reset_holds (h : S.Ready parts 0 s) :
    wp (framSetRestoreOffset S.service 0)
      (fun _ s' => S.Holds parts (AgreeBelow S.r 0) (S.known 0) s') S.Stops s := by
  rcases h with hknown | ⟨-, hany, hserves⟩
  · exact framSetRestoreOffset_holds (Nat.le_refl 0) (Nat.zero_le _) hknown
  · refine wp_mono (framSet_served (.emmcRestoreOffset (BitVec.ofNat 64 0)) hserves) ?_
      fun _ _ h => h.elim
    rintro _ _ rfl
    refine ⟨hany.fixed, hany.parts, hany.sd, hany.spared, hany.dds, hany.signatures,
      hany.mkfs, hany.media, ?_, ?_⟩
    · rw [S.read_store]
      exact S.known_pos 0
    · intro e he
      rcases List.mem_cons.mp he with rfl | he
      · exact AgreeBelow.zero _ _ _
      · exact hany.trace e he

theorem ddSpanResumable_holds {pos : Nat} (hspan : 0 < S.span)
    (hpos : pos < S.span ∨ 2 ^ 31 ≤ pos) (h : S.Ready parts (min pos S.span) s) :
    wp (ddSpanResumable S.service S.span pos)
      (fun _ s' => S.Holds parts (AgreeBelow S.r S.span) (S.known S.span) s') S.Stops s := by
  have hsmall := S.span_lt
  have hrestart : testGe pos S.span = false := by
    rw [testGe_natCast, decide_eq_false_iff_not]
    omega
  unfold ddSpanResumable
  rw [hrestart]
  simp only [Bool.false_eq_true, if_false, testGt_zero, Bool.not_eq_true',
    decide_eq_false_iff_not]
  rcases hpos with hbelow | hlarge
  · rw [Nat.min_eq_left (Nat.le_of_lt hbelow)] at h
    split
    · obtain rfl : pos = 0 := by omega
      refine wp_seq (reset_holds h) ?_
      intro _ s₁ h₁
      exact copyChunks_holds (Nat.zero_le _) h₁
    · rcases h with hknown | ⟨hzero, -⟩
      · exact copyChunks_holds (Nat.le_of_lt hbelow) hknown
      · omega
  · -- Nothing is copied: the whole span must have been there.
    rw [Nat.min_eq_right (by omega)] at h
    have hloop : ¬ testLt pos S.span = true := by
      rw [testLt_natCast, decide_eq_true_eq]
      omega
    rw [if_pos (by omega)]
    rcases h with hknown | ⟨hzero, -⟩
    · refine wp_seq (framSetRestoreOffset_holds (Nat.zero_le _) (Nat.le_refl _) hknown) ?_
      intro _ s₁ h₁
      rw [copyChunks, if_neg hloop]
      exact h₁
    · omega

/-! ## After the copy -/

theorem wp_nextSignature (Q : MmcEvent → System → Prop) (R : Stop → System → Prop)
    (s : System) : wp nextSignature Q R s ↔
      Q (s.signatures.headD .ok) { s with signatures := s.signatures.tail } := Iff.rfl

theorem wp_nextMkfs (Q : MmcEvent → System → Prop) (R : Stop → System → Prop) (s : System) :
    wp nextMkfs Q R s ↔ Q (s.mkfs.headD .ok) { s with mkfs := s.mkfs.tail } := Iff.rfl

theorem wp_mount (Q : Option (List String) → System → Prop) (R : Stop → System → Prop)
    (s : System) :
    wp mount Q R s ↔ Q (s.mounts.headD none) { s with mounts := s.mounts.tail } := Iff.rfl

theorem resumable_of_signed {offset : Option U64} {emmc sd : Disk} (hsigned : S.Signed emmc sd)
    (hknown : S.known S.span offset) : S.resumable offset emmc sd :=
  S.resumable_of (Nat.le_refl _) hknown hsigned.agree

theorem setDiskSignatureEmmc_holds (hspan : 0 < S.span)
    (h : S.Holds parts (AgreeBelow S.r S.span) (S.known S.span) s) :
    wp setDiskSignatureEmmc (fun _ s' => S.Holds parts S.Signed (S.known S.span) s')
      S.Stops s := by
  unfold setDiskSignatureEmmc writeSignature
  refine wp_seq (record_holds h trivial) ?_
  rintro _ s₁ ⟨h₁, -, -⟩
  rw [wp_bind, wp_nextSignature]
  have hagree (bytes : Sector) : AgreeBelow S.r' S.span (setSignature bytes s₁.emmc) s₁.sd :=
    S.signature _ bytes _ _ (S.weaken _ _ _ h₁.media)
  have hspared (bytes : Sector) (i : Nat) (hi : S.Spared i) :
      setSignature bytes s₁.emmc i = S.s₀.emmc i := by
    rw [← h₁.spared i hi]
    funext j
    refine if_neg ?_
    rintro ⟨hzero, -⟩
    have := hi.1
    omega
  have hsuffix : s₁.signatures.tail <:+ S.s₀.signatures :=
    (List.tail_suffix _).trans h₁.signatures
  cases hevent : s₁.signatures.headD .ok with
  | ok =>
      refine ⟨h₁.fixed, h₁.parts, h₁.sd, hspared _, h₁.dds, hsuffix, h₁.mkfs, ⟨hagree _, ?_⟩,
        h₁.offset, h₁.trace⟩
      exact fun _ j hlow hhigh => if_pos ⟨rfl, hlow, hhigh⟩
  | fail left =>
      have hmem := h₁.signatures.subset (mem_of_headD hevent (by simp))
      exact ⟨h₁.fixed, h₁.parts, h₁.sd, hspared _, h₁.dds, hsuffix, h₁.mkfs,
        ⟨hagree _, fun hfaultless => absurd hmem (hfaultless left)⟩, h₁.offset, h₁.trace⟩
  | cut left =>
      exact ⟨nofun, h₁.sd, hspared _, h₁.trace,
        fun _ => S.resumable_of (Nat.le_refl _) h₁.offset (hagree _)⟩

theorem partxUpdate_holds (h : S.Holds S.s₀.parts A C s) :
    wp partxUpdate (fun _ s' => ∃ parts', parts' .emmc = refreshedParts S.s₀.toLinux ∧
      S.Holds parts' A C s') S.Stops s := by
  unfold partxUpdate
  rw [wp_modify]
  split
  · next parts hview =>
      refine ⟨_, ?_, { h with parts := rfl }⟩
      rw [refreshedParts, ← h.partx_eq, hview]
      rfl
  · next hview =>
      refine ⟨S.s₀.parts, ?_, h⟩
      rw [refreshedParts, ← h.partx_eq, hview]
      rfl

theorem mkfsExt4_holds {p : Partition} (hspan : 0 < S.span)
    (hp : homePartition S.s₀.toLinux S.span S.fullSpan = some p)
    (h : S.Holds parts S.Signed (S.known S.span) s) :
    wp (mkfsExt4 p) (fun _ s' => S.Holds parts S.Good (S.known S.span) s') S.Stops s := by
  have habove := S.home_above p hp
  unfold mkfsExt4
  refine wp_seq (record_holds h trivial) ?_
  rintro _ s₁ ⟨h₁, -, -⟩
  rw [wp_bind, wp_nextMkfs]
  have hsigned (left : Disk) : S.Signed (overwrite s₁.emmc p.start p.size left) s₁.sd := by
    refine ⟨h₁.media.agree.overwrite_above habove left, fun hfaultless j hlow hhigh => ?_⟩
    rw [overwrite_outside (Or.inl (by omega))]
    exact h₁.media.signature hfaultless j hlow hhigh
  have hspared (left : Disk) (i : Nat) (hi : S.Spared i) :
      overwrite s₁.emmc p.start p.size left i = S.s₀.emmc i := by
    rw [overwrite_outside (hi.2 p hp)]
    exact h₁.spared i hi
  have hsuffix : s₁.mkfs.tail <:+ S.s₀.mkfs := (List.tail_suffix _).trans h₁.mkfs
  cases hevent : s₁.mkfs.headD .ok with
  | ok =>
      refine ⟨h₁.fixed, h₁.parts, h₁.sd, hspared _, h₁.dds, h₁.signatures, hsuffix,
        ⟨hsigned _, ?_⟩, h₁.offset, h₁.trace⟩
      intro _ q hq i hlow hhigh
      obtain rfl : p = q := Option.some.inj (hp.symm.trans hq)
      rw [← h₁.fresh_eq]
      exact if_pos ⟨hlow, hhigh⟩
  | fail left =>
      have hmem := h₁.mkfs.subset (mem_of_headD hevent (by simp))
      exact ⟨h₁.fixed, h₁.parts, h₁.sd, hspared _, h₁.dds, h₁.signatures, hsuffix,
        ⟨hsigned _, fun hfaultless => absurd hmem (hfaultless left)⟩, h₁.offset, h₁.trace⟩
  | cut left =>
      exact ⟨nofun, h₁.sd, hspared _, h₁.trace,
        fun _ => resumable_of_signed (hsigned left) h₁.offset⟩

theorem makeHome_holds (hspan : 0 < S.span) (hparts : parts .emmc = refreshedParts S.s₀.toLinux)
    (h : S.Holds parts S.Signed (S.known S.span) s) :
    wp (makeHome S.span S.fullSpan)
      (fun _ s' => S.Holds parts S.Good (S.known S.span) s') S.Stops s := by
  have hwider : testGt S.fullSpan S.span = decide (S.span < S.fullSpan) :=
    testGt_of_small S.fullSpan_lt _
  have none_good (hnone : homePartition S.s₀.toLinux S.span S.fullSpan = none) :
      S.Holds parts S.Good (S.known S.span) s := by
    refine h.mono (fun hsigned => ⟨hsigned, fun _ p hp => ?_⟩) fun _ => id
    rw [hnone] at hp
    cases hp
  unfold makeHome
  rw [wp_bind, wp_get, h.parts, hparts, hwider]
  cases hp4 : findPartition 4 (refreshedParts S.s₀.toLinux) with
  | some p =>
      have hp : homePartition S.s₀.toLinux S.span S.fullSpan = some p := by
        rw [homePartition, hp4]
      rw [if_pos (by simp), wp_bind, waitForP4, wp_bind, wp_get, h.parts, hparts, hp4]
      exact mkfsExt4_holds hspan hp h
  | none =>
      by_cases hfull : S.span < S.fullSpan
      · have hp : homePartition S.s₀.toLinux S.span S.fullSpan = s.lateP4 := by
          rw [homePartition, hp4, h.lateP4_eq]
          exact if_pos hfull
        rw [if_pos (by simpa using hfull), wp_bind, waitForP4, wp_bind, wp_get, h.parts, hparts,
          hp4]
        dsimp only
        rw [wp_pure]
        cases hlate' : s.lateP4 with
        | some p => exact mkfsExt4_holds hspan (hp.trans hlate') h
        | none => exact none_good (hp.trans hlate')
      · have hp : homePartition S.s₀.toLinux S.span S.fullSpan = none := by
          rw [homePartition, hp4]
          exact if_neg hfull
        rw [if_neg (by simpa using hfull)]
        exact none_good hp

theorem verifyEmmcBootable_holds (h : S.Holds parts A C s) :
    wp verifyEmmcBootable (fun _ s' => S.Holds parts A C s') S.Stops s := by
  unfold verifyEmmcBootable
  rw [wp_bind, wp_mount]
  cases s.mounts.headD none with
  | some files => exact { h with }
  | none =>
      dsimp only
      rw [wp_bind, wp_mount]
      split <;> exact { h with }

/-- Clearing the recovery flags of a good eMMC. -/
theorem framClearRecoveryAfterVerify_holds (h : S.Holds parts S.Good (S.known S.span) s) :
    wp (framClearRecoveryAfterVerify S.service)
      (fun _ s' => S.Holds parts S.Good (S.known S.span) s') S.Stops s := by
  have clear {request : FlagSet} {s : System} (h : S.Holds parts S.Good (S.known S.span) s)
      (hrequest : ∀ offset, request = .emmcRestoreOffset offset → offset = 0) :
      wp (framSet S.service request)
        (fun _ s' => S.Holds parts S.Good (S.known S.span) s') S.Stops s := by
    refine wp_mono (framSet_holds _ h ?_ ?_ ?_ ?_) (fun _ _ h => h.1) fun _ _ h => h
    · intro old hold
      cases request with
      | emmcRestoreOffset offset =>
          rw [hrequest offset rfl]
          exact S.known_mono (Nat.zero_le _) (S.known_pos 0)
      | emmcRecoveryNeeded value => exact hold
      | lastEmmcProbeOk value => exact hold
      | bootMedia value => exact hold
    · exact fun _ _ => S.known_none _
    · intro offset heq
      rw [hrequest offset heq]
      exact AgreeBelow.zero _ _ _
    · exact fun _ _ _ hgood hknown => resumable_of_signed hgood.toSigned hknown
  unfold framClearRecoveryAfterVerify
  refine wp_seq (record_holds h h.media) ?_
  rintro _ s₁ ⟨h₁, -⟩
  refine wp_seq (clear h₁ nofun) ?_
  intro _ s₂ h₂
  refine wp_seq (clear h₂ nofun) ?_
  intro _ s₃ h₃
  refine wp_seq (clear h₃ fun _ heq => (FlagSet.emmcRestoreOffset.inj heq).symm) ?_
  intro _ s₄ h₄
  exact clear h₄ nofun

end Commands

/-! ## A whole run -/

/-- The second request, which sets the offset to 0, is sure to be served. -/
structure ResetServed (s : System) : Prop where
  exec : s.framSetExec = true
  running : s.serviceRunning = true
  survives : s.servicePidFile = false
  next : s.requests.tail.headD .served = .served

/-- What a run must start from. -/
structure Setting.Entry (S : Setting) : Prop where
  check : checkMedia S.s₀ = .ok (S.span, S.fullSpan) S.s₀
  span_pos : 0 < S.span
  trace : S.s₀.trace = []
  agree : AgreeBelow S.r (min (startPos S.service S.s₀ S.span) S.span) S.s₀.emmc S.s₀.sd
  known : S.known (min (startPos S.service S.s₀ S.span) S.span) (S.read S.s₀.fram) ∨
    startPos S.service S.s₀ S.span = 0 ∧ ResetServed S.s₀
  resumable : S.resumable (S.read S.s₀.fram) S.s₀.emmc S.s₀.sd

theorem framSet_queue (service : FramService) (request : FlagSet) {s : System}
    (hexec : s.framSetExec = true) (hrunning : s.serviceRunning = true) :
    wp (framSet service request)
      (fun _ s' => s'.requests = s.requests.tail ∧ s'.framSetExec = true ∧
        s'.serviceRunning = true ∧ s'.servicePidFile = s.servicePidFile)
      (fun _ _ => True) s := by
  unfold framSet
  rw [wp_bind, wp_get, if_neg (by simp [hexec, hrunning]), wp_bind, wp_nextRequest]
  cases s.requests.headD .served with
  | served => exact ⟨rfl, hexec, hrunning, rfl⟩
  | failed => exact ⟨rfl, hexec, hrunning, rfl⟩
  | cut left => trivial

theorem stopServices_holds {S : Setting} {parts : MmcDevice → List Partition}
    {A : Disk → Disk → Prop} {C : Option U64 → Prop} {s : System} (h : S.Holds parts A C s) :
    S.Holds parts A C { s with serviceRunning := s.serviceRunning && !s.servicePidFile } :=
  { h with }

/-- The latch and the end of the services leave a state the copy may begin in. -/
theorem latchAndStop_ready {S : Setting} (hentry : S.Entry) :
    wp (do framLatchRecovery S.service; stopServices)
      (fun _ s' => S.Ready S.s₀.parts (min (startPos S.service S.s₀ S.span) S.span) s')
      S.Stops S.s₀ := by
  have holds (A : Disk → Disk → Prop) (C : Option U64 → Prop) (hA : A S.s₀.emmc S.s₀.sd)
      (hC : C (S.read S.s₀.fram)) : S.Holds S.s₀.parts A C S.s₀ :=
    ⟨rfl, rfl, rfl, fun _ _ => rfl, List.suffix_rfl, List.suffix_rfl, List.suffix_rfl, hA, hC,
      by simp [hentry.trace]⟩
  rcases hentry.known with hknown | ⟨hzero, hreset⟩
  · refine wp_seq (framSet_holds _ (holds _ _ hentry.agree hknown) (fun _ => id) nofun nofun ?_) ?_
    · exact fun _ _ _ hagree hknown =>
        resumable_of_copied (Nat.le_refl _) (Nat.min_le_right _ _) hagree hknown
    · rintro _ s₁ ⟨h₁, -⟩
      exact Or.inl (stopServices_holds h₁)
  · -- The stored offset is too far on, but the eMMC is as it was.
    have hlatch := framSet_holds (.emmcRecoveryNeeded true)
      (holds (fun emmc sd => emmc = S.s₀.emmc ∧ sd = S.s₀.sd)
        (fun offset => offset = S.read S.s₀.fram) ⟨rfl, rfl⟩ rfl)
      (fun _ => id) nofun nofun (by
        rintro offset emmc sd ⟨rfl, rfl⟩ rfl
        exact hentry.resumable)
    have hqueue := framSet_queue S.service (.emmcRecoveryNeeded true) hreset.exec hreset.running
    refine wp_seq (wp_mono (wp_and hlatch hqueue) (fun _ _ h => h) fun _ _ h => h.1) ?_
    rintro _ s₁ ⟨⟨h₁, -⟩, hrequests, hexec, hrunning, hpid⟩
    refine Or.inr ⟨by rw [hzero, Nat.zero_min],
      stopServices_holds (h₁.mono (fun _ => ?_) fun _ _ => trivial), ?_⟩
    · exact AgreeBelow.zero _ _ _
    · refine ⟨hexec, ?_, ?_⟩
      · simp [hrunning, hpid, hreset.survives]
      · rw [hrequests]
        exact hreset.next

/-- A restore leaves a good eMMC, or stops in a state that can be resumed; it exits with
status 0 before its end only where it is declined. -/
theorem doSdToEmmc_holds {S : Setting} (hentry : S.Entry) :
    wp (doSdToEmmc S.service)
      (fun _ s' => ∃ parts, S.Holds parts S.Good (S.known S.span) s')
      (fun e s' => S.Halted e s' ∧ (e = .exit 0 → ¬ Confirmed S.s₀)) S.s₀ := by
  have halted₀ : S.Halted (.exit 0) S.s₀ :=
    ⟨rfl, fun _ _ => rfl, by simp [hentry.trace], fun _ => hentry.resumable⟩
  have stops {e : Stop} {s : System} (h : S.Stops e s) :
      S.Halted e s ∧ (e = .exit 0 → ¬ Confirmed S.s₀) :=
    ⟨h.2, fun heq => absurd heq h.1⟩
  have hstart := startPos_cases S.service S.s₀ hentry.span_pos S.span_lt
  unfold doSdToEmmc
  refine wp_of_ok hentry.check (wp_of_ok (framGetRestoreOffset_run S.service S.s₀) ?_)
  dsimp only
  rw [← startPos]
  rcases confirm_cases S.s₀ with ⟨-, hconfirm⟩ | ⟨hdeclined, hconfirm⟩
  · refine wp_of_ok hconfirm ?_
    have hready := latchAndStop_ready hentry
    rw [wp_bind] at hready ⊢
    refine wp_mono hready (fun _ s₁ hready => ?_) fun _ _ => stops
    refine wp_seq (wp_mono hready (fun _ _ h => h) fun _ _ => stops) ?_
    intro _ s₂ h₂
    refine wp_seq (wp_mono (ddSpanResumable_holds hentry.span_pos hstart h₂) (fun _ _ h => h)
      fun _ _ => stops) ?_
    intro _ s₃ h₃
    refine wp_seq (wp_mono (setDiskSignatureEmmc_holds hentry.span_pos h₃) (fun _ _ h => h)
      fun _ _ => stops) ?_
    intro _ s₄ h₄
    refine wp_seq (wp_mono (partxUpdate_holds h₄) (fun _ _ h => h) fun _ _ => stops) ?_
    rintro _ s₅ ⟨parts, hparts, h₅⟩
    refine wp_seq (wp_mono (makeHome_holds hentry.span_pos hparts h₅) (fun _ _ h => h)
      fun _ _ => stops) ?_
    intro _ s₆ h₆
    refine wp_seq (wp_mono (verifyEmmcBootable_holds h₆) (fun _ _ h => h) fun _ _ => stops) ?_
    intro bootable s₇ h₇
    cases bootable with
    | false =>
        refine stops ⟨by simp, h₇.halted ?_⟩
        exact fun _ _ _ hgood hknown => resumable_of_signed hgood.toSigned hknown
    | true =>
        refine wp_mono (framClearRecoveryAfterVerify_holds h₇) ?_ fun _ _ => stops
        exact fun _ _ h => ⟨parts, h⟩
  · rw [wp_bind, wp, hconfirm]
    exact ⟨halted₀, fun _ => hdeclined⟩

/-- The same of the whole script. -/
theorem installOs_holds {S : Setting} (hentry : S.Entry) (mode : Mode) {s : System}
    (hs : mode.entry s = S.s₀) :
    wp (installOs S.service mode) (fun _ _ => False)
      (fun e s' => S.Halted e s' ∧
        (e = .exit 0 → Confirmed S.s₀ → S.Good s'.emmc s'.sd)) s := by
  rw [wp, installOs_eq, hs]
  change wp (doSdToEmmc S.service >>= fun _ => throw (.exit 0)) (fun _ _ => False)
    (fun e s' => S.Halted e s' ∧
      (e = .exit 0 → Confirmed S.s₀ → S.Good s'.emmc s'.sd)) S.s₀
  refine wp_seq (wp_mono (doSdToEmmc_holds hentry) (fun _ _ h => h) ?_) ?_
  · exact fun e s' h => ⟨h.1, fun heq hconfirmed => absurd hconfirmed (h.2 heq)⟩
  · rintro _ s' ⟨parts, h⟩
    refine ⟨h.halted ?_, fun _ _ => h.media⟩
    exact fun _ _ _ hgood hknown => resumable_of_signed hgood.toSigned hknown

end RadsatLinux.InstallOs.Restore
