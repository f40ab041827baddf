import RadsatLinux.InstallOs.Backups

/-!
# Where `dd_span` is exact

`dd_span` and `dd_span_resumable` copy what they are asked to copy as long as the shell can
count the sectors in 32 bits.  From 2^31 on `[` fails and `$((…))` wraps around, and they copy
nothing.
-/

namespace RadsatLinux.InstallOs.SpanCopy

open RadsatLinux.Library.Crash RadsatLinux.Library.BlockDevice RadsatLinux.Library.ShellNumber
open RadsatLinux.UBoot.Hardware
open RadsatLinux.InstallOs.Commands RadsatLinux.InstallOs.Script RadsatLinux.InstallOs.Restore
open RadsatLinux.InstallOs.Latch RadsatLinux.InstallOs.EmmcToSd RadsatLinux.InstallOs.Backups
open RadsatLinux.InstallOs.CopySafety RadsatLinux.InstallOs.RecordService

/-! ## Large numbers -/

/-- A number from 2^31 on is taken for a negative one: its first `dd` gets a negative count, or
none is made. -/
theorem ddCalls_large {count : Nat} (hcount : 2 ^ 31 ≤ count) :
    ddCalls count 0 0 = if count < 2 ^ 32 ∧ count % 8192 = 0 then
      [⟨8192, 0, 0, -((2 ^ 32 - count) / 8192 : Nat)⟩] else [] := by
  have hzero : testEq (0 : Nat) 0 = true := testEq_zero 0
  have hnegative : shellInt count = -((2 ^ 32 - min count (2 ^ 32 - 1) : Nat) : Int) :=
    shellInt_large hcount
  generalize hm : 2 ^ 32 - min count (2 ^ 32 - 1) = m at hnegative
  have hbounds : 1 ≤ m ∧ m ≤ 2 ^ 31 := by omega
  have hdiv : (shellInt count).tdiv 8192 = -((m / 8192 : Nat) : Int) := by
    rw [hnegative, Int.neg_tdiv]
    exact congrArg Neg.neg (Int.ofNat_tdiv m 8192).symm
  have hmod : (shellInt count).tmod 8192 = -((m % 8192 : Nat) : Int) := by
    rw [hnegative, Int.neg_tmod]
    exact congrArg Neg.neg (Int.ofNat_tmod m 8192).symm
  have hmultiple : testEq (-((m % 8192 : Nat) : Int)) 0 = decide (m % 8192 = 0) := by
    have hlong : isLong (-((m % 8192 : Nat) : Int)) = true := isLong_of_bounds (by omega)
    rw [testEq, test, hlong, isLong_zero, Bool.true_and, Bool.true_and, decide_eq_decide]
    omega
  have hblk : testGt (-((m / 8192 : Nat) : Int)) 0 = false := not_testGt_zero (by omega)
  have hrem : testGt (-((m % 8192 : Nat) : Int)) 0 = false := not_testGt_zero (by omega)
  rw [ddCalls, hzero, hdiv, hmod, hmultiple]
  simp only [Bool.and_self, Bool.true_and, decide_eq_true_eq, if_true, hblk, hrem]
  by_cases hwhole : count < 2 ^ 32 ∧ count % 8192 = 0
  · have hm' : m = 2 ^ 32 - count := by omega
    rw [if_pos hwhole, if_pos (by omega), hm']
  · rw [if_neg hwhole, if_neg (by omega)]
    rfl

/-- All the calls that `dd_span` makes have valid numbers. -/
def AllAccepted (count seek skip : Nat) : Prop :=
  ∀ call ∈ ddCalls count seek skip, call.Accepted

theorem allAccepted_large {count : Nat} (hcount : 2 ^ 31 ≤ count) :
    AllAccepted count 0 0 ↔ ¬ (count < 2 ^ 32 ∧ count % 8192 = 0) := by
  rw [AllAccepted, ddCalls_large hcount]
  split
  · rename_i hwhole
    refine iff_of_false (fun h => ?_) fun h => h hwhole
    have hcall := (h _ (List.mem_singleton_self _)).2.2
    have hpos : 0 < (2 ^ 32 - count) / 8192 := Nat.div_pos (by omega) (by decide)
    dsimp only at hcall
    omega
  · rename_i hpart
    exact iff_of_true (fun _ h => absurd h List.not_mem_nil) hpart

/-! ## What is recorded -/

/-- The action writes sector `i` of `dst`. -/
def covers (dst : MmcDevice) (i : Nat) : Action → Bool
  | .emmcWrite first count => decide (dst = .emmc ∧ first ≤ i ∧ i < first + count)
  | .sdWrite first count => decide (dst = .sd ∧ first ≤ i ∧ i < first + count)
  | _ => false

theorem covers_writeAction (dst : MmcDevice) (i first count : Nat) :
    covers dst i (writeAction dst first count) = decide (first ≤ i ∧ i < first + count) := by
  cases dst <;> simp [writeAction, covers]

/-- How often sector `i` of `dst` is written. -/
def timesWritten (dst : MmcDevice) (actions : List Action) (i : Nat) : Nat :=
  actions.countP (covers dst i)

theorem timesWritten_append (dst : MmcDevice) (actions more : List Action) (i : Nat) :
    timesWritten dst (actions ++ more) i = timesWritten dst actions i + timesWritten dst more i :=
  List.countP_append

/-- The offsets stored after a chunk, in order. -/
def checkpoints (actions : List Action) : List Nat :=
  actions.filterMap fun action =>
    match action with
    | .chunkDone pos => some pos
    | _ => none

theorem checkpoints_append (actions more : List Action) :
    checkpoints (actions ++ more) = checkpoints actions ++ checkpoints more :=
  List.filterMap_append

/-- Each sector of `[first, first + count)` is written once, and nothing else. -/
structure WritesOnce (dst : MmcDevice) (first count : Nat) (actions : List Action) : Prop where
  once : ∀ i, timesWritten dst actions i = if first ≤ i ∧ i < first + count then 1 else 0
  noCheckpoint : checkpoints actions = []

theorem writesOnce_writeAction (dst : MmcDevice) (first count : Nat) :
    WritesOnce dst first count [writeAction dst first count] where
  once i := by
    rw [timesWritten, List.countP_singleton, covers_writeAction]
    simp only [decide_eq_true_eq]
  noCheckpoint := by cases dst <;> rfl

theorem WritesOnce.append {dst : MmcDevice} {first m n : Nat} {actions more : List Action}
    (h : WritesOnce dst first m actions) (h' : WritesOnce dst (first + m) n more) :
    WritesOnce dst first (m + n) (actions ++ more) where
  once i := by
    rw [timesWritten_append, h.once, h'.once]
    split <;> split <;> split <;> omega
  noCheckpoint := by rw [checkpoints_append, h.noCheckpoint, h'.noCheckpoint, List.append_nil]

/-! ## What is copied -/

/-- No `dd` fails, and the power stays on. -/
structure Served (s : System) : Prop where
  dds : ∀ event ∈ s.dds, event = .ok
  requests : ∀ left, RequestEvent.cut left ∉ s.requests

/-- `dst` holds `disk`, the other device what it held in `s₀`, and `actions` were done since. -/
structure Reached (dst : MmcDevice) (s₀ : System) (disk : Disk) (actions : List Action)
    (s : System) : Prop where
  served : Served s
  target : s.disk dst = disk
  other : ∀ dev, dev ≠ dst → s.disk dev = s₀.disk dev
  trace : s.trace.map Prod.fst = actions.reverse ++ s₀.trace.map Prod.fst

section Reached

variable {dst : MmcDevice} {s₀ s : System} {disk : Disk} {actions : List Action}
  {R : Stop → System → Prop}

theorem Reached.refl (hserved : Served s) : Reached dst s (s.disk dst) [] s :=
  ⟨hserved, rfl, fun _ _ => rfl, rfl⟩

theorem dd_reached (src : MmcDevice) (bs skip seek count : Nat)
    (h : Reached dst s₀ disk actions s) :
    wp (dd src dst bs skip seek count) (fun _ => Reached dst s₀
      (overwrite disk (seek * bs) (count * bs) fun i => s.disk src (i - seek * bs + skip * bs))
      (actions ++ [writeAction dst (seek * bs) (count * bs)])) R s := by
  obtain ⟨hnext, hlater⟩ := all_ok_next h.served.dds
  unfold dd
  dsimp only
  rw [wp_bind, record, wp_modify, wp_bind, wp_nextDd]
  cases hevent : s.dds.headD .ok with
  | ok =>
      have htrace : (writeAction dst (seek * bs) (count * bs)) :: s.trace.map Prod.fst =
          (actions ++ [writeAction dst (seek * bs) (count * bs)]).reverse ++
            s₀.trace.map Prod.fst := by
        rw [h.trace, List.reverse_append]
        rfl
      have htarget := h.target
      have hother := h.other
      cases dst with
      | sd =>
          refine ⟨⟨hlater, h.served.requests⟩, ?_, fun dev hne => ?_, htrace⟩
          · rw [← htarget]
            rfl
          · cases dev with
            | sd => exact absurd rfl hne
            | emmc => exact hother .emmc hne
      | emmc =>
          refine ⟨⟨hlater, h.served.requests⟩, ?_, fun dev hne => ?_, htrace⟩
          · rw [← htarget]
            rfl
          · cases dev with
            | sd => exact hother .sd hne
            | emmc => exact absurd rfl hne
  | fail left => cases hnext.symm.trans hevent
  | cut left => cases hnext.symm.trans hevent

/-- An offset stored through the service leaves both devices alone. -/
theorem framSet_reached (service : FramService) (request : FlagSet)
    (h : Reached dst s₀ disk actions s) :
    wp (framSet service request) (fun _ s' => ∃ more, Reached dst s₀ disk (actions ++ more) s' ∧
      WritesOnce dst 0 0 more) R s := by
  have hnone : WritesOnce dst 0 0 [] := ⟨fun i => by simp [timesWritten], rfl⟩
  have hflag : WritesOnce dst 0 0 [.setFlag request] :=
    ⟨fun i => by simp [timesWritten, covers], rfl⟩
  have hkept : ∃ more, Reached dst s₀ disk (actions ++ more) s ∧ WritesOnce dst 0 0 more :=
    ⟨[], by rwa [List.append_nil], hnone⟩
  have hrest : ∀ left, RequestEvent.cut left ∉ s.requests.tail :=
    fun left hmem => h.served.requests left (List.mem_of_mem_tail hmem)
  rw [wp_framSet]
  cases houtcome : requestOutcome s with
  | none => exact hkept
  | some event =>
      cases event with
      | served =>
          refine ⟨[.setFlag request], ⟨⟨h.served.dds, hrest⟩, h.target, h.other, ?_⟩, hflag⟩
          have htrace : (Action.setFlag request) :: s.trace.map Prod.fst =
              (actions ++ [Action.setFlag request]).reverse ++ s₀.trace.map Prod.fst := by
            rw [h.trace, List.reverse_append]
            rfl
          exact htrace
      | failed =>
          refine ⟨[], ⟨⟨h.served.dds, hrest⟩, h.target, h.other, ?_⟩, hnone⟩
          rw [List.append_nil]
          exact h.trace
      | cut left =>
          unfold requestOutcome at houtcome
          split at houtcome
          · have hmem := mem_of_headD (Option.some.inj houtcome) (by simp)
            exact absurd hmem (h.served.requests left)
          · cases houtcome

/-- One `dd`, in sectors. -/
theorem dd_copies {src : MmcDevice} {bs skip seek count source first sectors : Nat}
    (h : Reached dst s₀ disk actions s) (hskip : skip * bs = source) (hseek : seek * bs = first)
    (hcount : count * bs = sectors) :
    wp (dd src dst bs skip seek count) (fun _ s' => ∃ more, Reached dst s₀
      (overwrite disk first sectors fun i => s.disk src (i - first + source))
      (actions ++ more) s' ∧ WritesOnce dst first sectors more) R s := by
  subst hskip hseek hcount
  exact wp_mono (dd_reached src bs skip seek count h)
    (fun _ _ h' => ⟨_, h', writesOnce_writeAction dst _ _⟩) fun _ _ h' => h'

/-- From the start: large blocks, and then the rest. -/
theorem ddSpan_start_copies {src : MmcDevice} {count : Nat} (hcount : count < 2 ^ 31)
    (hne : 0 < count → src ≠ dst) (h : Reached dst s₀ disk actions s) :
    wp (ddSpan src dst count 0 0) (fun _ s' => ∃ more, Reached dst s₀
      (overwrite disk 0 count fun i => s.disk src (i - 0 + 0)) (actions ++ more) s' ∧
      WritesOnce dst 0 count more) R s := by
  have hblocks : count / 8192 * 8192 + count % 8192 = count := Nat.div_add_mod' count 8192
  rw [ddSpan_start src dst hcount]
  by_cases hmultiple : count % 8192 = 0
  · rw [if_pos hmultiple]
    rw [hmultiple, Nat.add_zero] at hblocks
    exact wp_seq (dd_copies h (Nat.zero_mul _) (Nat.zero_mul _) hblocks) fun _ _ h' => h'
  rw [if_neg hmultiple]
  by_cases hblk : 0 < count / 8192
  · rw [if_pos hblk]
    refine wp_seq (dd_copies h (Nat.zero_mul _) (Nat.zero_mul _) rfl) ?_
    rintro _ s₁ ⟨more₁, h₁, honce₁⟩
    refine wp_seq (dd_copies h₁ (Nat.mul_one _) (Nat.mul_one _) (Nat.mul_one _)) ?_
    rintro _ s₂ ⟨more₂, h₂, honce₂⟩
    -- The source has not changed, and the second copy goes on where the first one ended.
    have hother : src ≠ dst := hne (by omega)
    have hsource : s₁.disk src = s.disk src :=
      (h₁.other src hother).trans (h.other src hother).symm
    have hwhole : overwrite (overwrite disk 0 (count / 8192 * 8192) fun i =>
          s.disk src (i - 0 + 0)) (count / 8192 * 8192) (count % 8192) (fun i =>
          s₁.disk src (i - count / 8192 * 8192 + count / 8192 * 8192)) =
        overwrite disk 0 count fun i => s.disk src (i - 0 + 0) := by
      have happend := overwrite_append disk (fun i => s.disk src (i - 0 + 0)) 0
        (count / 8192 * 8192) (count % 8192)
      rw [Nat.zero_add, hblocks] at happend
      rw [← happend, hsource]
      refine overwrite_congr fun i hlow _ => ?_
      rw [Nat.sub_add_cancel hlow, Nat.sub_zero, Nat.add_zero]
    rw [hwhole, List.append_assoc] at h₂
    refine ⟨more₁ ++ more₂, h₂, ?_⟩
    rw [← hblocks]
    exact honce₁.append (by rwa [Nat.zero_add])
  · have hnone : count / 8192 * 8192 = 0 := by
      rw [Nat.eq_zero_of_not_pos hblk, Nat.zero_mul]
    have hstart : count / 8192 * 8192 * 1 = 0 := by rw [hnone]
    have hrest : count % 8192 * 1 = count := by omega
    rw [if_neg hblk]
    exact wp_seq (dd_copies h hstart hstart hrest) fun _ _ h' => h'

/-- Whichever blocks it uses, `dd_span` copies the sectors it is asked to copy, where the shell
can count them or does not have to. -/
theorem ddSpan_copies (src : MmcDevice) {count seek skip : Nat}
    (hcounts : skip ≠ 0 ∨ seek ≠ 0 ∨ count < 2 ^ 31)
    (hapart : src = dst → seek + count ≤ skip ∨ skip + count ≤ seek)
    (h : Reached dst s₀ disk actions s) :
    wp (ddSpan src dst count seek skip) (fun _ s' => ∃ more, Reached dst s₀
      (overwrite disk seek count fun i => s.disk src (i - seek + skip)) (actions ++ more) s' ∧
      WritesOnce dst seek count more) R s := by
  by_cases hoffset : skip ≠ 0 ∨ seek ≠ 0
  · rw [ddSpan_offset src dst hoffset]
    exact wp_seq (dd_copies h (Nat.mul_one _) (Nat.mul_one _) (Nat.mul_one _)) fun _ _ h' => h'
  · obtain ⟨rfl, rfl⟩ : skip = 0 ∧ seek = 0 := by omega
    refine ddSpan_start_copies (by omega) (fun hpos heq => ?_) h
    have hdisjoint := hapart heq
    omega

end Reached

/-! ## The whole copy -/

/-- The course of the chunks from `start` on: each sector is written once, and the checkpoints
go up to `span`. -/
structure ChunkRun (span start : Nat) (actions : List Action) : Prop where
  once : ∀ i, timesWritten .emmc actions i = if start ≤ i ∧ i < span then 1 else 0
  increasing : (start :: checkpoints actions).Pairwise (· < ·)
  last : (start :: checkpoints actions).getLast? = some span

theorem ChunkRun.done (span : Nat) : ChunkRun span span [] where
  once i := by
    rw [if_neg (by omega)]
    rfl
  increasing := List.pairwise_singleton _ _
  last := rfl

theorem ChunkRun.after {span start : Nat} {store rest : List Action}
    (hstore : WritesOnce .emmc 0 0 store) (hrest : ChunkRun span start rest) :
    ChunkRun span start (store ++ rest) := by
  have hpoints : checkpoints (store ++ rest) = checkpoints rest := by
    rw [checkpoints_append, hstore.noCheckpoint, List.nil_append]
  refine ⟨fun i => ?_, ?_, ?_⟩
  · rw [timesWritten_append, hstore.once, hrest.once, if_neg (by omega), Nat.zero_add]
  · rw [hpoints]
    exact hrest.increasing
  · rw [hpoints]
    exact hrest.last

theorem ChunkRun.chunk {span pos n : Nat} {copy store rest : List Action} (hn : 0 < n)
    (hend : pos + n ≤ span) (hcopy : WritesOnce .emmc pos n copy)
    (hstore : WritesOnce .emmc 0 0 store) (hrest : ChunkRun span (pos + n) rest) :
    ChunkRun span pos (copy ++ (store ++ (.chunkDone (pos + n) :: rest))) := by
  have hpoints : checkpoints (copy ++ (store ++ (.chunkDone (pos + n) :: rest))) =
      (pos + n) :: checkpoints rest := by
    rw [checkpoints_append, checkpoints_append, hcopy.noCheckpoint, hstore.noCheckpoint]
    rfl
  refine ⟨fun i => ?_, ?_, ?_⟩
  · have hdone : timesWritten .emmc (.chunkDone (pos + n) :: rest) i =
        timesWritten .emmc rest i := List.countP_cons_of_neg (by simp [covers])
    rw [timesWritten_append, timesWritten_append, hcopy.once, hstore.once, hdone, hrest.once]
    split <;> split <;> split <;> split <;> omega
  · rw [hpoints, List.pairwise_cons]
    refine ⟨fun point hpoint => ?_, hrest.increasing⟩
    rcases List.mem_cons.mp hpoint with rfl | hlater
    · omega
    · have hlt := (List.pairwise_cons.mp hrest.increasing).1 point hlater
      omega
  · rw [hpoints, List.getLast?_cons_cons]
    exact hrest.last

theorem record_reached {s₀ s : System} {disk : Disk} {actions : List Action}
    {R : Stop → System → Prop} (action : Action) (h : Reached .emmc s₀ disk actions s) :
    wp (record action) (fun _ => Reached .emmc s₀ disk (actions ++ [action])) R s := by
  refine ⟨⟨h.served.dds, h.served.requests⟩, h.target, h.other, ?_⟩
  have htrace : action :: s.trace.map Prod.fst =
      (actions ++ [action]).reverse ++ s₀.trace.map Prod.fst := by
    rw [h.trace, List.reverse_append]
    rfl
  exact htrace

variable (service : FramService)

/-- The loop copies what is left from `pos` on. -/
theorem copyChunks_copies {s₀ s : System} {disk : Disk} {actions : List Action}
    {R : Stop → System → Prop} {span pos : Nat} (hspan : span < 2 ^ 31) (hpos : pos ≤ span)
    (h : Reached .emmc s₀ disk actions s) :
    wp (copyChunks service span pos) (fun _ s' => ∃ more,
      Reached .emmc s₀ (overwrite disk pos (span - pos) (s₀.disk .sd)) (actions ++ more) s' ∧
      ChunkRun span pos more) R s := by
  induction pos using copyChunks.induct span generalizing s disk actions with
  | case1 pos hlt ih =>
      obtain ⟨hn, hchunk, hend⟩ := chunkAt_of_testLt hlt
      have hsmall : chunkAt span pos < 2 ^ 31 := Nat.lt_of_le_of_lt hchunk (by decide)
      rw [copyChunks, if_pos hlt]
      rw [nextPos_of_testLt hlt] at ih ⊢
      generalize chunkAt span pos = n at hn hend hsmall ih
      have hapart : MmcDevice.sd = MmcDevice.emmc → pos + n ≤ pos ∨ pos + n ≤ pos :=
        fun h => MmcDevice.noConfusion h
      refine wp_seq (ddSpan_copies .sd (Or.inr (Or.inr hsmall)) hapart h) ?_
      rintro _ s₁ ⟨copy, h₁, hcopy⟩
      refine wp_seq (framSet_reached service _ h₁) ?_
      rintro _ s₂ ⟨store, h₂, hstore⟩
      refine wp_seq (record_reached (.chunkDone (pos + n)) h₂) ?_
      intro _ s₃ h₃
      refine wp_mono (ih hend h₃) ?_ fun _ _ h => h
      rintro _ s' ⟨rest, h', hrest⟩
      have hsource : overwrite disk pos n (fun i => s.disk .sd (i - pos + pos)) =
          overwrite disk pos n (s₀.disk .sd) := by
        refine overwrite_congr fun i hlow _ => ?_
        rw [Nat.sub_add_cancel hlow, h.other .sd (by decide)]
      have hrange : n + (span - (pos + n)) = span - pos := by omega
      rw [hsource, overwrite_append, hrange] at h'
      refine ⟨copy ++ (store ++ (.chunkDone (pos + n) :: rest)), ?_,
        ChunkRun.chunk hn hend hcopy hstore hrest⟩
      simpa only [List.append_assoc, List.singleton_append] using h'
  | case2 pos hge =>
      obtain rfl : pos = span := by
        rw [testLt_natCast, decide_eq_true_eq] at hge
        omega
      have hsame : overwrite disk pos (pos - pos) (s₀.disk .sd) = disk := by
        funext i
        exact overwrite_outside (by omega)
      rw [copyChunks, if_neg hge, hsame]
      exact ⟨[], by rwa [List.append_nil], ChunkRun.done pos⟩

/-! ## Where it is exact -/

/-- `s'` is `s` with the sectors copied. -/
structure Copied (src dst : MmcDevice) (count seek skip : Nat) (s s' : System) : Prop where
  copied : ∀ i, i < count → s'.disk dst (seek + i) = s.disk src (skip + i)
  rest : ∀ i, i < seek ∨ seek + count ≤ i → s'.disk dst i = s.disk dst i
  other : ∀ dev, dev ≠ dst → s'.disk dev = s.disk dev

theorem Reached.copied {src dst : MmcDevice} {count seek skip : Nat} {s s' : System}
    {actions : List Action} (h : Reached dst s
      (overwrite (s.disk dst) seek count fun i => s.disk src (i - seek + skip)) actions s') :
    Copied src dst count seek skip s s' where
  copied i hi := by
    rw [h.target, overwrite_inside (by omega) (by omega), Nat.add_sub_cancel_left, Nat.add_comm]
  rest i hi := by
    rw [h.target, overwrite_outside hi]
  other := h.other

/-- `dd_span` returns with the sectors copied, unless a `dd` rejects its numbers. -/
def SpanCopied (src dst : MmcDevice) (count seek skip : Nat) (s : System) : Prop :=
  AllAccepted count seek skip → wp (ddSpan src dst count seek skip)
    (fun _ s' => Copied src dst count seek skip s s') (fun _ _ => False) s

/-- The shell can count the sectors, or does not have to, or there is nothing to copy. -/
def SpanCounted (src dst : MmcDevice) (count seek skip : Nat) (s : System) : Prop :=
  skip ≠ 0 ∨ seek ≠ 0 ∨ count < 2 ^ 31 ∨ (count < 2 ^ 32 ∧ count % 8192 = 0) ∨
    ∀ i, i < count → s.disk dst i = s.disk src i

theorem spanCopied_iff {src dst : MmcDevice} {count seek skip : Nat} {s : System}
    (hserved : Served s) (hapart : src = dst → seek + count ≤ skip ∨ skip + count ≤ seek) :
    SpanCopied src dst count seek skip s ↔ SpanCounted src dst count seek skip s := by
  by_cases hcounts : skip ≠ 0 ∨ seek ≠ 0 ∨ count < 2 ^ 31
  · have hcounted : SpanCounted src dst count seek skip s :=
      hcounts.imp_right fun h => h.imp_right Or.inl
    refine iff_of_true (fun _ => ?_) hcounted
    exact wp_mono (ddSpan_copies src hcounts hapart (.refl hserved))
      (fun _ _ ⟨_, h, _⟩ => h.copied) fun _ _ h => h
  · obtain ⟨rfl, rfl, hlarge⟩ : skip = 0 ∧ seek = 0 ∧ 2 ^ 31 ≤ count := by omega
    by_cases hwhole : count < 2 ^ 32 ∧ count % 8192 = 0
    · refine iff_of_true (fun haccepted => ?_) (Or.inr (Or.inr (Or.inr (Or.inl hwhole))))
      exact absurd hwhole ((allAccepted_large hlarge).mp haccepted)
    · -- No `dd` is called.
      have hcalls : ddCalls count 0 0 = [] := by
        rw [ddCalls_large hlarge, if_neg hwhole]
      constructor
      · intro h
        have hrun := h ((allAccepted_large hlarge).mpr hwhole)
        unfold ddSpan at hrun
        rw [hcalls] at hrun
        refine Or.inr (Or.inr (Or.inr (Or.inr fun i hi => ?_)))
        have hcopied := hrun.copied i hi
        rwa [Nat.zero_add] at hcopied
      · intro hsame _
        have hequal : ∀ i, i < count → s.disk dst i = s.disk src i := by
          rcases hsame with h | h | h | h | h
          · exact absurd rfl h
          · exact absurd rfl h
          · omega
          · exact absurd h hwhole
          · exact h
        unfold ddSpan
        rw [hcalls]
        refine ⟨fun i hi => ?_, fun _ _ => rfl, fun _ _ => rfl⟩
        rw [Nat.zero_add]
        exact hequal i hi

/-- Where the copy begins: where it was left, or at 0. -/
def startOf (span pos : Nat) : Nat := if span ≤ pos then 0 else pos

/-- The rest of the span is copied, each sector once, with checkpoints up to `span`. -/
structure Resumed (span start : Nat) (s s' : System) : Prop where
  copied : Copied .sd .emmc (span - start) start start s s'
  chunks : ∃ actions, s'.trace.map Prod.fst = actions.reverse ++ s.trace.map Prod.fst ∧
    ChunkRun span start actions

/-- `dd_span_resumable` returns with the rest of the span copied. -/
def SpanResumed (span pos : Nat) (s : System) : Prop :=
  wp (ddSpanResumable service span pos) (fun _ s' => Resumed span (startOf span pos) s s')
    (fun _ _ => False) s

theorem startOf_le (span pos : Nat) : startOf span pos ≤ span := by
  unfold startOf
  split <;> omega

theorem Reached.resumed {span start : Nat} {s s' : System} {actions : List Action}
    (h : Reached .emmc s (overwrite (s.disk .emmc) start (span - start) (s.disk .sd)) actions s')
    (hrun : ChunkRun span start actions) : Resumed span start s s' := by
  have hsource : overwrite (s.disk .emmc) start (span - start) (s.disk .sd) =
      overwrite (s.disk .emmc) start (span - start) fun i => s.disk .sd (i - start + start) := by
    refine overwrite_congr fun i hlow _ => ?_
    rw [Nat.sub_add_cancel hlow]
  refine ⟨?_, actions, h.trace, hrun⟩
  rw [hsource] at h
  exact h.copied

/-- Below 2^31 the rest of a span is copied. -/
theorem ddSpanResumable_copies {span pos : Nat} {s : System} {R : Stop → System → Prop}
    (hserved : Served s) (hspan : span < 2 ^ 31) (hpos : pos < 2 ^ 31) :
    wp (ddSpanResumable service span pos)
      (fun _ s' => Resumed span (startOf span pos) s s') R s := by
  have hinit : Reached .emmc s (s.disk .emmc) [] s := .refl hserved
  have hle := startOf_le span pos
  have hstart : (if testGe pos span then 0 else pos) = startOf span pos := by
    have hrestart : testGe pos span = decide (span ≤ pos) := by
      rw [testGe_natCast, decide_eq_decide]
      omega
    rw [hrestart, startOf]
    simp only [decide_eq_true_eq]
  unfold ddSpanResumable
  rw [hstart]
  dsimp only
  generalize startOf span pos = start at hle ⊢
  have hfirst : testGt start 0 = decide (0 < start) := by
    rw [testGt_zero, decide_eq_decide]
    omega
  rw [hfirst]
  by_cases hzero : 0 < start
  · rw [decide_eq_true hzero]
    refine wp_mono (copyChunks_copies service hspan hle hinit) ?_ fun _ _ h => h
    rintro _ s' ⟨rest, h', hrest⟩
    exact h'.resumed hrest
  · rw [decide_eq_false hzero]
    refine wp_seq (framSet_reached service _ hinit) ?_
    rintro _ s₁ ⟨store, h₁, hstore⟩
    refine wp_mono (copyChunks_copies service hspan hle h₁) ?_ fun _ _ h => h
    rintro _ s' ⟨rest, h', hrest⟩
    exact h'.resumed (ChunkRun.after hstore hrest)

/-- Where a number is too large for `[`, or the span is empty, the loop does not run. -/
theorem ddSpanResumable_idle {span pos : Nat} {s : System} {R : Stop → System → Prop}
    (hserved : Served s) (hidle : span = 0 ∨ 2 ^ 31 ≤ span ∨ 2 ^ 31 ≤ pos) :
    wp (ddSpanResumable service span pos) (fun _ s' => ∃ actions,
      Reached .emmc s (s.disk .emmc) actions s' ∧ WritesOnce .emmc 0 0 actions) R s := by
  have hinit : Reached .emmc s (s.disk .emmc) [] s := .refl hserved
  have hloop : copyChunks service span (if testGe pos span then 0 else pos) = pure () := by
    have htest : ¬ testLt (if testGe pos span then 0 else pos : Nat) span = true := by
      rw [testLt_natCast, testGe_natCast]
      intro h
      have hlt := of_decide_eq_true h
      by_cases hrestart : pos < 2 ^ 31 ∧ span < 2 ^ 31 ∧ span ≤ pos
      · omega
      · rw [decide_eq_false hrestart, if_neg Bool.false_ne_true] at hlt
        omega
    rw [copyChunks.eq_def, if_neg htest]
  unfold ddSpanResumable
  dsimp only
  generalize (if testGe pos span then 0 else pos) = start at hloop ⊢
  rw [hloop]
  cases testGt start 0 with
  | true => exact ⟨[], hinit, fun i => by simp [timesWritten], rfl⟩
  | false =>
      refine wp_seq (framSet_reached service _ hinit) ?_
      rintro _ s' ⟨store, h', hstore⟩
      exact ⟨store, h', hstore⟩

/-- The rest of a span is copied exactly when both numbers are below 2^31: `[` returns an error
for others, and the loop ends before it begins. -/
theorem spanResumed_iff {span pos : Nat} {s : System} (hserved : Served s) :
    SpanResumed service span pos s ↔ span = 0 ∨ span < 2 ^ 31 ∧ pos < 2 ^ 31 := by
  by_cases hsmall : span < 2 ^ 31 ∧ pos < 2 ^ 31
  · refine iff_of_true ?_ (Or.inr hsmall)
    exact ddSpanResumable_copies service hserved hsmall.1 hsmall.2
  · have hidle : span = 0 ∨ 2 ^ 31 ≤ span ∨ 2 ^ 31 ≤ pos := by omega
    have hnothing := ddSpanResumable_idle service (R := fun _ _ => False) hserved hidle
    constructor
    · intro h
      -- The run has no checkpoint, so the copy must have begun at its end.
      refine Or.inl (wp_const (wp_mono (wp_and h hnothing) ?_ fun _ _ h => h.1.elim))
      rintro _ s' ⟨⟨-, actions, htrace, hchunks⟩, more, hreached, hsilent⟩
      have hactions : actions = more :=
        List.reverse_injective (List.append_cancel_right (htrace.symm.trans hreached.trace))
      have hlast := hchunks.last
      rw [hactions, hsilent.noCheckpoint, List.getLast?_singleton, Option.some.injEq] at hlast
      unfold startOf at hlast
      split at hlast <;> omega
    · rintro (rfl | h)
      · refine wp_mono hnothing ?_ fun _ _ h => h
        rintro _ s' ⟨actions, h', hsilent⟩
        have hstart : startOf 0 pos = 0 := if_pos (Nat.zero_le pos)
        have hsame : overwrite (s.disk .emmc) 0 (0 - 0) (s.disk .sd) = s.disk .emmc := by
          funext i
          exact overwrite_outside (by omega)
        rw [hstart]
        rw [← hsame] at h'
        refine h'.resumed ?_
        have hrun := ChunkRun.after hsilent (ChunkRun.done 0)
        rwa [List.append_nil] at hrun
      · exact absurd h hsmall

/-- Both copies are exact where the shell can count, and not where it would have to count
further. -/
theorem spanCopy_exact {s : System} (hserved : Served s) :
    (∀ (src dst : MmcDevice) (count seek skip : Nat),
      (src = dst → seek + count ≤ skip ∨ skip + count ≤ seek) →
      (SpanCopied src dst count seek skip s ↔ SpanCounted src dst count seek skip s)) ∧
    ∀ span pos : Nat,
      SpanResumed service span pos s ↔ span = 0 ∨ span < 2 ^ 31 ∧ pos < 2 ^ 31 :=
  ⟨fun _ _ _ _ _ hapart => spanCopied_iff hserved hapart,
    fun _ _ => spanResumed_iff service hserved⟩

theorem served_twoChunks : Served (twoChunkSystem []) :=
  ⟨fun _ h => absurd h List.not_mem_nil, fun _ => List.not_mem_nil⟩

/-- Two blocks of 4 MiB and a rest, and the second of two chunks. -/
theorem spanCopy_exact_twoChunks :
    SpanCopied .emmc .sd 20000 0 0 (twoChunkSystem []) ∧
    SpanResumed recordService 16384 8192 (twoChunkSystem []) := by
  obtain ⟨hspan, hresume⟩ := spanCopy_exact recordService served_twoChunks
  have hdevices : MmcDevice.emmc = MmcDevice.sd → 0 + 20000 ≤ 0 ∨ 0 + 20000 ≤ 0 :=
    fun h => MmcDevice.noConfusion h
  refine ⟨(hspan .emmc .sd 20000 0 0 hdevices).mpr (Or.inr (Or.inr (Or.inl ?_))),
    (hresume 16384 8192).mpr (Or.inr ⟨?_, ?_⟩)⟩ <;> omega

/-- With the offset 2^31 stored the loop ends before it begins and the eMMC stays blank; of
2^31 + 1 sectors no `dd` copies one. -/
theorem not_spanCopy_large :
    wp (ddSpanResumable recordService 16384 (2 ^ 31))
      (fun _ s' => s'.disk .emmc = (twoChunkSystem []).disk .emmc) (fun _ _ => False)
      (twoChunkSystem []) ∧
    ¬ SpanResumed recordService 16384 (2 ^ 31) (twoChunkSystem []) ∧
    ddCalls (2 ^ 31 + 1) 0 0 = [] ∧
    ¬ SpanCopied .emmc .sd (2 ^ 31 + 1) 0 0 (twoChunkSystem []) := by
  have hcalls : ddCalls (2 ^ 31 + 1) 0 0 = [] := by
    rw [ddCalls_large (by omega), if_neg (by omega)]
  have hsectors : (twoChunkSystem []).disk .sd 0 ≠ (twoChunkSystem []).disk .emmc 0 := by
    intro h
    have hbyte := congrFun h 0
    revert hbyte
    decide
  refine ⟨?_, ?_, hcalls, ?_⟩
  · exact wp_mono (ddSpanResumable_idle recordService served_twoChunks
      (Or.inr (Or.inr (Nat.le_refl _)))) (fun _ _ ⟨_, h, _⟩ => h.target) fun _ _ h => h
  · rw [spanResumed_iff recordService served_twoChunks]
    omega
  · have hdevices : MmcDevice.emmc = MmcDevice.sd →
        0 + (2 ^ 31 + 1) ≤ 0 ∨ 0 + (2 ^ 31 + 1) ≤ 0 := fun h => MmcDevice.noConfusion h
    rw [spanCopied_iff served_twoChunks hdevices]
    rintro (h | h | h | h | h)
    · exact h rfl
    · exact h rfl
    · omega
    · omega
    · exact hsectors (h 0 (by omega))

end RadsatLinux.InstallOs.SpanCopy
