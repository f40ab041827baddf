import RadsatLinux.Env.History

/-!
# Chunked access to the MRAM

Patch 0014 made the one transfer of `mram_read` and the two of `mram_write` into loops over
chunks.  Where no transfer fails nothing else has changed.  A write that fails has rewritten
the chunks before the one it failed in, and the bytes that the failing WRITE has carried.
-/

namespace RadsatLinux.Env.Chunks

open RadsatLinux.Fram.Record RadsatLinux.Library.BlockDevice
open RadsatLinux.Env.Mram RadsatLinux.Env.Relocate RadsatLinux.Env.History

/-! ## Before patch 0014 -/

def enomem : Int := 12

/-- `mram_read` of patch 0006, with or without memory for the frame. -/
def mramReadPlain (allocated : Bool) (offset : U32) (len : Nat) :
    StateM Spi (Int × List U8) := do
  if !allocated then return (-enomem, [])
  let (ret, frame) ← mramXfer (frameHeader mramCmdRead offset ++ List.replicate len 0)
  if ret ≠ 0 then return (ret, [])
  return (0, frame.drop 4)

/-- `mram_write` of patch 0006. -/
def mramWritePlain (allocated : Bool) (offset : U32) (src : List U8) : StateM Spi Int := do
  let (ret, _) ← mramXfer [mramCmdWren]
  if ret ≠ 0 then return ret
  if !allocated then return -enomem
  let (ret, _) ← mramXfer (frameHeader mramCmdWrite offset ++ src)
  return ret

/-! ## What an access does -/

/-- Just the bytes of `data` are stored, from `offset` on. -/
structure Stored (mram mram' : Nat → U8) (offset : Nat) (data : List U8) : Prop where
  inside : bytesAt mram' offset data.length = data
  outside : ∀ i, i < offset ∨ offset + data.length ≤ i → mram' i = mram i

/-- Transfer `n` is the first that fails, with this code and so much of its frame sent. -/
def FirstFailure (n : Nat) (ret : Int) (sent : Nat) (s : Spi) : Prop :=
  Made n s ∧ ∃ hret, s.xfers[n]? = some (.fail ret hret sent)

/-- What a write has stored of its chunk when transfer `n` fails: nothing when that is a WREN. -/
def carried (chunk : ℕ+) (n sent : Nat) : Nat :=
  if n % 2 = 0 then 0 else min (sent - 4) chunk

/-- The transfers `2 * j` and `2 * j + 1` are those of chunk `j`. -/
def StopsWith (left : Nat → Nat → Nat) (chunk : ℕ+) (offset : U32) (src : List U8) (s : Spi) :
    Prop :=
  ∀ n ret sent, n < 2 * xfersFor chunk src.length → FirstFailure n ret sent s →
    (mramWrite chunk offset src s).1 = ret ∧
      Stored s.mram (mramWrite chunk offset src s).2.mram offset.toNat
        (src.take (n / 2 * chunk + left n sent))

/-- Chunked access as against plain access to the range of a buffer. -/
structure AsPlain (chunk : ℕ+) (offset : U32) (src : List U8) (s : Spi) : Prop where
  stores : Made (2 * xfersFor chunk src.length) s → (mramWrite chunk offset src s).1 = 0 ∧
    Stored s.mram (mramWrite chunk offset src s).2.mram offset.toNat src
  readsBack : Made (2 * xfersFor chunk src.length) s →
    Made (xfersFor chunk src.length) (mramWrite chunk offset src s).2 →
      (mramRead chunk offset src.length (mramWrite chunk offset src s).2).1 = (0, src)
  reads : Made (xfersFor chunk src.length) s → ∀ s' : Spi, s'.mram = s.mram → Made 1 s' →
    (mramRead chunk offset src.length s).1 = (mramReadPlain true offset src.length s').1 ∧
      (mramRead chunk offset src.length s).2.mram =
        (mramReadPlain true offset src.length s').2.mram
  writes : Made (2 * xfersFor chunk src.length) s → ∀ s' : Spi, s'.mram = s.mram → Made 2 s' →
    (mramWrite chunk offset src s).1 = (mramWritePlain true offset src s').1 ∧
      (mramWrite chunk offset src s).2.mram = (mramWritePlain true offset src s').2.mram

/-- The payload region, below the environment, is as before. -/
def PayloadKept {Env : Type} (format : VarFormat Env) (u : Uboot Env) : Prop :=
  ∀ i, i < configEnvMramOffset.toNat → (saveenv format u).2.spi.mram i = u.spi.mram i

theorem stored_storeAt (mram : Nat → U8) (offset : Nat) (data : List U8) :
    Stored mram (storeAt mram offset data) offset data where
  inside := by
    rw [bytesAt_storeAt mram offset (Nat.le_refl _),
      List.drop_of_length_le (Nat.le_of_eq (length_bytesAt _ _ _)), List.append_nil]
  outside _ hout := overwrite_outside hout

/-! ## Where no transfer fails -/

section Made

variable {chunk : ℕ+} {offset : U32} {src : List U8} {len : Nat} {s : Spi}

theorem mramWrite_made (hfit : offset.toNat + src.length ≤ 2 ^ 24)
    (hmade : Made (2 * xfersFor chunk src.length) s) :
    (mramWrite chunk offset src s).1 = 0 ∧
      (mramWrite chunk offset src s).2.mram = storeAt s.mram offset.toNat src := by
  obtain ⟨hret, k, hmram, hall⟩ := mramWrite_spec chunk s hfit
  have hzero := hret.mpr hmade
  refine ⟨hzero, ?_⟩
  rw [hmram, List.take_of_length_le (hall hzero)]

theorem mramRead_made (hfit : offset.toNat + len ≤ 2 ^ 24) (hmade : Made (xfersFor chunk len) s) :
    (mramRead chunk offset len s).1 = (0, bytesAt s.mram offset.toNat len) := by
  obtain ⟨-, hret, hbytes⟩ := mramRead_spec chunk s hfit
  have hzero := hret.mpr hmade
  exact Prod.ext hzero (hbytes hzero)

/-- A frame without data reads and stores nothing, whatever its address. -/
theorem exchange_header (cmd : U8) (address : U32) (s : Spi) :
    (exchange (frameHeader cmd address) s).1.drop 4 = [] ∧
      (exchange (frameHeader cmd address) s).2.mram = s.mram := by
  unfold frameHeader exchange
  dsimp only
  split
  · exact ⟨rfl, rfl⟩
  split
  · exact ⟨rfl, storeAt_nil _ _⟩
  · exact ⟨rfl, rfl⟩

theorem mramXfer_made (frame : List U8) (hok : s.xfers.headD .ok = .ok) :
    mramXfer frame s =
      ((0, (exchange frame { s with xfers := s.xfers.tail }).1),
        (exchange frame { s with xfers := s.xfers.tail }).2) := by
  unfold mramXfer
  rw [hok]

theorem mramReadPlain_made (hfit : offset.toNat + len ≤ 2 ^ 24) (hmade : Made 1 s) :
    (mramReadPlain true offset len s).1 = (0, bytesAt s.mram offset.toNat len) ∧
      (mramReadPlain true offset len s).2.mram = s.mram := by
  have hok := (made_succ.mp hmade).1
  have hrun : mramReadPlain true offset len s =
      let r := exchange (frameHeader mramCmdRead offset ++ List.replicate len 0)
        { s with xfers := s.xfers.tail }
      ((0, r.1.drop 4), r.2) := by
    have hxfer := mramXfer_made (frameHeader mramCmdRead offset ++ List.replicate len 0) hok
    rw [mramReadPlain, if_neg (by decide)]
    simp only [bind, StateT.bind]
    rw [hxfer]
    rfl
  rw [hrun]
  dsimp only
  cases len with
  | zero =>
      rw [List.replicate_zero, List.append_nil]
      obtain ⟨hbytes, hmram⟩ :=
        exchange_header mramCmdRead offset { s with xfers := s.xfers.tail }
      rw [hbytes]
      exact ⟨rfl, hmram⟩
  | succ len =>
      have hreply := exchange_read offset (List.replicate (len + 1) 0)
        { s with xfers := s.xfers.tail } (by omega)
      have hstate := exchange_take_read offset (List.replicate (len + 1) 0)
        (frameHeader mramCmdRead offset ++ List.replicate (len + 1) 0).length
        { s with xfers := s.xfers.tail }
      rw [List.take_length] at hstate
      rw [List.length_replicate] at hreply
      rw [hreply, hstate]
      exact ⟨rfl, rfl⟩

theorem mramWritePlain_made (hfit : offset.toNat + src.length ≤ 2 ^ 24) (hmade : Made 2 s) :
    (mramWritePlain true offset src s).1 = 0 ∧
      (mramWritePlain true offset src s).2.mram = storeAt s.mram offset.toNat src := by
  obtain ⟨hwren, hrest⟩ := made_succ.mp hmade
  have hwrite := (made_succ.mp hrest).1
  have hrun : mramWritePlain true offset src s =
      let r := exchange (frameHeader mramCmdWrite offset ++ src)
        ⟨s.mram, true, s.xfers.tail.tail⟩
      (0, r.2) := by
    have henabled : mramXfer [mramCmdWren] s =
        ((0, [mramCmdWren]), ⟨s.mram, true, s.xfers.tail⟩) := mramXfer_made _ hwren
    have hxfer := @mramXfer_made ⟨s.mram, true, s.xfers.tail⟩
      (frameHeader mramCmdWrite offset ++ src) hwrite
    rw [mramWritePlain]
    simp only [bind, StateT.bind]
    rw [henabled]
    simp only [ne_eq, not_true_eq_false, if_false, Bool.not_true, Bool.false_eq_true]
    rw [StateT.bind, hxfer]
    rfl
  rw [hrun]
  refine ⟨rfl, ?_⟩
  cases src with
  | nil =>
      rw [List.append_nil, storeAt_nil]
      exact (exchange_header mramCmdWrite offset _).2
  | cons byte rest =>
      rw [List.length_cons] at hfit
      dsimp only
      rw [exchange_write offset (byte :: rest) (by omega) rfl]

end Made

/-! ## Where one fails -/

section Failure

variable {chunk : ℕ+} {offset : U32} {src : List U8} {n sent : Nat} {ret : Int} {s s' : Spi}

theorem FirstFailure.congr (h : FirstFailure n ret sent s) (hxfers : s'.xfers = s.xfers) :
    FirstFailure n ret sent s' := by
  obtain ⟨hmade, hret, hfail⟩ := h
  exact ⟨(made_congr hxfers.symm).mp hmade, hret, hxfers ▸ hfail⟩

theorem FirstFailure.tail (h : FirstFailure (n + 1) ret sent s) :
    s.xfers.headD .ok = .ok ∧ FirstFailure n ret sent { s with xfers := s.xfers.tail } := by
  obtain ⟨hmade, hret, hfail⟩ := h
  obtain ⟨hok, hrest⟩ := made_succ.mp hmade
  refine ⟨hok, hrest, hret, ?_⟩
  rw [← hfail]
  exact List.getElem?_tail

theorem mramXfer_fails (frame : List U8) (h : FirstFailure 0 ret sent s) :
    mramXfer frame s =
      ((ret, frame), (exchange (frame.take sent) { s with xfers := s.xfers.tail }).2) := by
  obtain ⟨-, hret, hfail⟩ := h
  have hhead : s.xfers.headD .ok = .fail ret hret sent := by
    rw [List.headD_eq_head?_getD, List.head?_eq_getElem?, hfail]
    rfl
  unfold mramXfer
  rw [hhead]

/-- The WREN and the WRITE of one chunk, when one of them is the first transfer to fail. -/
theorem mramXfer_wren_write_fails (address : U32) (data : List U8)
    (hfit : address.toNat < 2 ^ 24) (h : FirstFailure n ret sent s) (hn : n < 2) :
    let r₁ := mramXfer [mramCmdWren] s
    let r₂ := mramXfer (frameHeader mramCmdWrite address ++ data) r₁.2
    (n = 0 → r₁.1.1 = ret) ∧ (n = 1 → r₁.1.1 = 0 ∧ r₂.1.1 = ret ∧
      r₂.2.mram = storeAt s.mram address.toNat (data.take (sent - 4))) := by
  dsimp only
  constructor
  · rintro rfl
    rw [mramXfer_fails _ h]
  · rintro rfl
    obtain ⟨hok, hfails⟩ := h.tail
    have hwren : mramXfer [mramCmdWren] s =
        ((0, [mramCmdWren]), ⟨s.mram, true, s.xfers.tail⟩) := mramXfer_made _ hok
    have hfails' : FirstFailure 0 ret sent ⟨s.mram, true, s.xfers.tail⟩ := hfails.congr rfl
    rw [hwren, mramXfer_fails _ hfails']
    exact ⟨rfl, rfl, exchange_take_write address data sent hfit rfl⟩

theorem chunkLen_of_more {len done : Nat} (hmore : done + chunkLen chunk len done < len) :
    chunkLen chunk len done = chunk := by
  unfold chunkLen at hmore ⊢
  split at hmore
  · rename_i hlt
    rw [if_pos hlt]
  · omega

/-- The chunk at `done` of a buffer. -/
def chunkAt (chunk : ℕ+) (src : List U8) (done : Nat) : List U8 :=
  (src.drop done).take (chunkLen chunk src.length done)

theorem length_chunkAt {done : Nat} (hlt : done < src.length) :
    (chunkAt chunk src done).length = chunkLen chunk src.length done := by
  have hle : done + chunkLen chunk src.length done ≤ src.length := add_chunkLen_le hlt
  rw [chunkAt, List.length_take, List.length_drop]
  omega

theorem take_chunkAt (done k : Nat) :
    (chunkAt chunk src done).take k = (src.drop done).take (min k chunk) := by
  rw [chunkAt, List.take_take, List.take_eq_take_iff, List.length_drop, chunkLen]
  split <;> omega

theorem chunkAt_append {done : Nat} (hmore : done + chunkLen chunk src.length done < src.length)
    (k : Nat) :
    chunkAt chunk src done ++ (src.drop (done + chunkLen chunk src.length done)).take k =
      (src.drop done).take (chunk + k) := by
  rw [chunkAt, chunkLen_of_more hmore, ← List.drop_drop, ← List.take_add]

theorem carried_step (n : Nat) :
    (n + 2) / 2 * chunk + carried chunk (n + 2) sent =
      chunk + (n / 2 * chunk + carried chunk n sent) := by
  unfold carried
  rw [Nat.add_div_right n (by decide), Nat.add_mod_right, Nat.succ_mul]
  omega

/-- The loop of `mram_write`, by induction on its position, when one of its transfers fails. -/
theorem mramWriteFrom_fails {done : Nat} (hfit : offset.toNat + src.length ≤ 2 ^ 24)
    (hn : n < 2 * xfersFor chunk (src.length - done)) (h : FirstFailure n ret sent s) :
    (mramWriteFrom chunk offset src done s).1 = ret ∧
      (mramWriteFrom chunk offset src done s).2.mram =
        storeAt s.mram (offset.toNat + done)
          ((src.drop done).take (n / 2 * chunk + carried chunk n sent)) := by
  induction done using mramWriteFrom.induct chunk src generalizing s n with
  | case1 done hlt ih =>
      have haddress : (offset + BitVec.ofNat 32 done).toNat = offset.toNat + done :=
        toNat_add_ofNat (by omega)
      have hret : ret ≠ 0 := h.2.1
      obtain ⟨hmade, -, hwrite⟩ := mramXfer_wren_write (offset + BitVec.ofNat 32 done)
        (chunkAt chunk src done) s (by omega)
      have hfails := mramXfer_wren_write_fails (offset + BitVec.ofNat 32 done)
        (chunkAt chunk src done) (by omega) h
      have hkept := (mramXfer_wren s).1
      have hxfers := (mramXfer_xfers (frameHeader mramCmdWrite (offset + BitVec.ofNat 32 done) ++
        chunkAt chunk src done) (mramXfer [mramCmdWren] s).2).trans
        (congrArg List.tail (mramXfer_xfers [mramCmdWren] s))
      have hloop : mramWriteFrom chunk offset src done s =
        let r := mramXfer [mramCmdWren] s
        if r.1.1 = 0 then
          let r := mramXfer (frameHeader mramCmdWrite (offset + BitVec.ofNat 32 done) ++
            chunkAt chunk src done) r.2
          if r.1.1 = 0 then
            mramWriteFrom chunk offset src (done + chunkLen chunk src.length done) r.2
          else (r.1.1, r.2)
        else (r.1.1, r.2) := mramWriteFrom_lt hlt s
      rw [hloop]
      dsimp only at hmade hwrite hfails ⊢
      generalize mramXfer [mramCmdWren] s = r₁ at hmade hwrite hfails hkept hxfers ⊢
      generalize mramXfer (frameHeader mramCmdWrite (offset + BitVec.ofNat 32 done) ++
        chunkAt chunk src done) r₁.2 = r₂ at hmade hwrite hfails hxfers ⊢
      rcases n with _ | _ | n
      · -- The WREN fails.
        have hcode : r₁.1.1 = ret := (hfails (by decide)).1 rfl
        rw [if_neg (hcode ▸ hret)]
        refine ⟨hcode, hkept.trans ?_⟩
        rw [Nat.zero_div, Nat.zero_mul, carried, if_pos rfl, List.take_zero, storeAt_nil]
      · -- The WRITE fails.
        obtain ⟨hzero, hcode, hmram⟩ := (hfails (by decide)).2 rfl
        rw [if_pos hzero, if_neg (hcode ▸ hret)]
        refine ⟨hcode, hmram.trans ?_⟩
        have hhalf : 1 / 2 * (chunk : Nat) + carried chunk 1 sent = min (sent - 4) chunk := by
          rw [carried, if_neg (by decide), Nat.div_eq_of_lt (by decide), Nat.zero_mul,
            Nat.zero_add]
        rw [haddress, take_chunkAt, hhalf]
      · -- Both transfers of this chunk are made.
        obtain ⟨hzero₁, hzero₂, -⟩ := (hmade n).mp h.1
        obtain ⟨k, hmram, hall⟩ := hwrite hzero₁
        rw [if_pos hzero₁, if_pos hzero₂]
        rw [xfersFor_chunk hlt] at hn
        have hmore : done + chunkLen chunk src.length done < src.length := by
          by_contra hlast
          have hrest : src.length - (done + chunkLen chunk src.length done) = 0 := by omega
          rw [hrest, xfersFor_zero] at hn
          omega
        have hlater : FirstFailure n ret sent r₂.2 := h.tail.2.tail.2.congr hxfers
        obtain ⟨hcode, hstored⟩ := ih (by omega) hlater
        refine ⟨hcode, hstored.trans ?_⟩
        rw [hmram, List.take_of_length_le (hall hzero₂), haddress, carried_step,
          ← chunkAt_append hmore, ← storeAt_append, length_chunkAt hlt, Nat.add_assoc]
  | case2 done hge =>
      have hrest : src.length - done = 0 := by omega
      rw [hrest, xfersFor_zero] at hn
      cases hn

theorem mramWrite_stopsWith (hfit : offset.toNat + src.length ≤ 2 ^ 24) :
    StopsWith (carried chunk) chunk offset src s := by
  intro n ret sent hn hfirst
  obtain ⟨hcode, hmram⟩ := mramWriteFrom_fails hfit (by rwa [Nat.sub_zero]) hfirst
  rw [List.drop_zero, Nat.add_zero] at hmram
  refine ⟨hcode, ?_⟩
  change Stored s.mram (mramWriteFrom chunk offset src 0 s).2.mram offset.toNat _
  rw [hmram]
  exact stored_storeAt _ _ _

end Failure

/-! ## Chunked and plain access -/

section Access

variable {Env : Type}

theorem saveenv_payload (format : VarFormat Env) (u : Uboot Env) : PayloadKept format u := by
  intro i hi
  cases hexport : format.exportEnv u.env with
  | none =>
      unfold saveenv
      simp only [bind, StateT.bind, get, getThe, MonadStateOf.get, StateT.get, pure]
      rw [hexport]
      rfl
  | some blob =>
      rw [saveenv_run hexport]
      split
      · have hfit : configEnvMramOffset.toNat + blob.length ≤ 2 ^ 24 := by
          rw [format.export_length hexport]
          decide
        obtain ⟨-, k, hmram, -⟩ := mramWrite_spec configEnvMramChunk u.spi hfit
        dsimp only
        rw [hmram]
        exact overwrite_outside (Or.inl hi)
      · rfl

theorem mram_asPlain (chunk : ℕ+) {offset : U32} {src : List U8} (s : Spi)
    (hfit : offset.toNat + src.length ≤ 2 ^ 24) : AsPlain chunk offset src s where
  stores hmade := by
    obtain ⟨hcode, hmram⟩ := mramWrite_made hfit hmade
    rw [hmram]
    exact ⟨hcode, stored_storeAt _ _ _⟩
  readsBack hmade hread := by
    obtain ⟨-, hmram⟩ := mramWrite_made hfit hmade
    rw [mramRead_made hfit hread, hmram, (stored_storeAt _ _ _).inside]
  reads hmade s' hsame hplain := by
    obtain ⟨hcode, hmram⟩ := mramReadPlain_made hfit hplain
    rw [mramRead_made hfit hmade, hcode, hmram, hsame]
    exact ⟨rfl, (mramRead_spec chunk s hfit).1⟩
  writes hmade s' hsame hplain := by
    obtain ⟨hcode, hmram⟩ := mramWrite_made hfit hmade
    obtain ⟨hcode', hmram'⟩ := mramWritePlain_made hfit hplain
    rw [hcode, hcode', hmram, hmram', hsame]
    exact ⟨rfl, rfl⟩

/-- Within the 24 address bits, chunked access is plain access where no transfer fails.  A
write that fails returns the code of its transfer, and has stored the chunks before it and
what the failing WRITE has carried; and no `saveenv` touches the payload region. -/
theorem chunked_asPlain (format : VarFormat Env) (chunk : ℕ+) (offset : U32) (src : List U8)
    (s : Spi) (u : Uboot Env) (hfit : offset.toNat + src.length ≤ 2 ^ 24) :
    AsPlain chunk offset src s ∧ StopsWith (carried chunk) chunk offset src s ∧
      PayloadKept format u :=
  ⟨mram_asPlain chunk s hfit, mramWrite_stopsWith hfit, saveenv_payload format u⟩

/-- A chip whose second transfer, the WRITE of the first chunk, breaks off after one byte. -/
def breaksOff : Spi where
  mram _ := 0xff
  wel := false
  xfers := [.ok, .fail (-1) (by decide) 5]

theorem firstFailure_breaksOff : FirstFailure 1 (-1) 5 breaksOff :=
  ⟨by decide, by decide, rfl⟩

/-- The write returns -1, with the first byte of the first chunk stored. -/
theorem chunked_asPlain_breaksOff :
    Stored breaksOff.mram (mramWrite 2 0x100 [1, 2, 3] breaksOff).2.mram 0x100 [1] := by
  have hfit : (0x100 : U32).toNat + [1, 2, 3].length ≤ 2 ^ 24 := by decide
  have hstops := (chunked_asPlain triedVars 2 0x100 [1, 2, 3] breaksOff
    ((bootFrom "1:3").uboot saved) hfit).2.1
  exact (hstops 1 (-1) 5 (by decide) firstFailure_breaksOff).2

/-- Not only the chunks before the failing one are rewritten. -/
theorem not_stopsWith_chunks : ¬ ∀ (chunk : ℕ+) (offset : U32) (src : List U8) (s : Spi),
    offset.toNat + src.length ≤ 2 ^ 24 → StopsWith (fun _ _ => 0) chunk offset src s := by
  intro hall
  have hfit : (0x100 : U32).toNat + [1, 2, 3].length ≤ 2 ^ 24 := by decide
  have hclaimed := hall 2 0x100 [1, 2, 3] breaksOff hfit 1 (-1) 5 (by decide) firstFailure_breaksOff
  have hstored := @mramWrite_stopsWith 2 0x100 [1, 2, 3] breaksOff hfit 1 (-1) 5 (by decide)
    firstFailure_breaksOff
  have hold : (mramWrite 2 0x100 [1, 2, 3] breaksOff).2.mram 0x100 = 0xff :=
    hclaimed.2.outside 0x100 (Or.inr (by decide))
  have hnew := hstored.2.inside
  have hbyte : bytesAt (mramWrite 2 0x100 [1, 2, 3] breaksOff).2.mram 0x100 1 = [1] := hnew
  have hread : bytesAt (mramWrite 2 0x100 [1, 2, 3] breaksOff).2.mram 0x100 1 =
      [(mramWrite 2 0x100 [1, 2, 3] breaksOff).2.mram 0x100] := rfl
  rw [hread, hold] at hbyte
  exact absurd hbyte (by decide)

end Access

end RadsatLinux.Env.Chunks
