import RadsatLinux.Fram.Record
import RadsatLinux.Library.BlockDevice

/-!
# SPI MRAM

The chip behind `common/env_mram.c`, and the chunked `mram_read` and `mram_write` of patch
0014.  The chip takes in one frame a transfer: READ and WRITE carry a 24-bit address, and a
WRITE is only obeyed after a WREN.  What becomes of each transfer is an input.
-/

namespace RadsatLinux.Env.Mram

open RadsatLinux.Fram.Record RadsatLinux.Library.BlockDevice

/-- The course of one transfer.  A transfer that fails returns a code, and the chip has
taken in some first bytes of the frame: none when the bus could not be claimed. -/
inductive XferEvent where
  | ok
  | fail (ret : Int) (hret : ret ≠ 0) (sent : Nat)
  deriving DecidableEq

/-- The chip, with its write enable latch, and the transfers to come. -/
structure Spi where
  mram : Nat → U8
  wel : Bool
  xfers : List XferEvent

/-! ## The chip -/

def mramCmdWren : U8 := 0x06
def mramCmdRead : U8 := 0x03
def mramCmdWrite : U8 := 0x02

def bytesAt (mram : Nat → U8) (offset len : Nat) : List U8 :=
  (List.range len).map fun i => mram (offset + i)

def storeAt (mram : Nat → U8) (offset : Nat) (data : List U8) : Nat → U8 :=
  overwrite mram offset data.length fun i => data.getD (i - offset) 0

def frameAddress (high mid low : U8) : Nat :=
  high.toNat * 0x10000 + mid.toNat * 0x100 + low.toNat

/-- The bytes the chip sends back for a frame, and what it does. -/
def exchange (frame : List U8) (s : Spi) : List U8 × Spi :=
  match frame with
  | [cmd] => (frame, if cmd = mramCmdWren then { s with wel := true } else s)
  | cmd :: high :: mid :: low :: data =>
      if cmd = mramCmdRead then
        (cmd :: high :: mid :: low :: bytesAt s.mram (frameAddress high mid low) data.length, s)
      else if cmd = mramCmdWrite ∧ s.wel = true then
        (frame, { s with
          mram := storeAt s.mram (frameAddress high mid low) data, wel := false })
      else (frame, s)
  | _ => (frame, s)

/-! ## The driver -/

/-- `mram_xfer`: the code it returns, and the buffer after it. -/
def mramXfer (frame : List U8) : StateM Spi (Int × List U8) := fun s =>
  match s.xfers.headD .ok with
  | .ok =>
      ((0, (exchange frame { s with xfers := s.xfers.tail }).1),
        (exchange frame { s with xfers := s.xfers.tail }).2)
  | .fail ret _ sent =>
      ((ret, frame), (exchange (frame.take sent) { s with xfers := s.xfers.tail }).2)

/-- The first four bytes of `frame`. -/
def frameHeader (cmd : U8) (address : U32) : List U8 :=
  [cmd, (address >>> 16).setWidth 8, (address >>> 8).setWidth 8, address.setWidth 8]

/-- `n`: the bytes of the chunk at `done`. -/
def chunkLen (chunk : ℕ+) (len done : Nat) : Nat :=
  if (chunk : Nat) < len - done then chunk else len - done

theorem chunkLen_pos {chunk : ℕ+} {len done : Nat} (hlt : done < len) :
    0 < chunkLen chunk len done := by
  have hchunk := chunk.pos
  unfold chunkLen
  split <;> omega

theorem add_chunkLen_le {chunk : ℕ+} {len done : Nat} (hlt : done < len) :
    done + chunkLen chunk len done ≤ len := by
  unfold chunkLen
  split <;> omega

/-- The loop of `mram_read`: the code, and what `dst` holds so far. -/
def mramReadFrom (chunk : ℕ+) (offset : U32) (len done : Nat) (dst : List U8) :
    StateM Spi (Int × List U8) := do
  if done < len then
    let (ret, frame) ← mramXfer (frameHeader mramCmdRead (offset + BitVec.ofNat 32 done) ++
      List.replicate (chunkLen chunk len done) 0)
    if ret ≠ 0 then return (ret, dst)
    mramReadFrom chunk offset len (done + chunkLen chunk len done) (dst ++ frame.drop 4)
  else return (0, dst)
termination_by len - done
decreasing_by
  have hpos : 0 < chunkLen chunk len done := chunkLen_pos ‹_›
  omega

def mramRead (chunk : ℕ+) (offset : U32) (len : Nat) : StateM Spi (Int × List U8) :=
  mramReadFrom chunk offset len 0 []

/-- The loop of `mram_write`. -/
def mramWriteFrom (chunk : ℕ+) (offset : U32) (src : List U8) (done : Nat) :
    StateM Spi Int := do
  if done < src.length then
    let (ret, _) ← mramXfer [mramCmdWren]
    if ret ≠ 0 then return ret
    let (ret, _) ← mramXfer (frameHeader mramCmdWrite (offset + BitVec.ofNat 32 done) ++
      (src.drop done).take (chunkLen chunk src.length done))
    if ret ≠ 0 then return ret
    mramWriteFrom chunk offset src (done + chunkLen chunk src.length done)
  else return 0
termination_by src.length - done
decreasing_by
  have hpos : 0 < chunkLen chunk src.length done := chunkLen_pos ‹_›
  omega

def mramWrite (chunk : ℕ+) (offset : U32) (src : List U8) : StateM Spi Int :=
  mramWriteFrom chunk offset src 0

/-! ## Frames -/

theorem frameAddress_header {address : U32} (hfit : address.toNat < 2 ^ 24) :
    frameAddress ((address >>> 16).setWidth 8) ((address >>> 8).setWidth 8)
      (address.setWidth 8) = address.toNat := by
  unfold frameAddress
  simp only [BitVec.toNat_setWidth, BitVec.toNat_ushiftRight, Nat.shiftRight_eq_div_pow]
  omega

theorem length_bytesAt (mram : Nat → U8) (offset len : Nat) :
    (bytesAt mram offset len).length = len := by
  simp [bytesAt]

theorem bytesAt_add (mram : Nat → U8) (offset m n : Nat) :
    bytesAt mram offset (m + n) = bytesAt mram offset m ++ bytesAt mram (offset + m) n := by
  simp [bytesAt, List.range_add, Nat.add_assoc]

/-- A READ, whole or not, leaves the chip as it was. -/
theorem exchange_take_read (address : U32) (data : List U8) (sent : Nat) (s : Spi) :
    (exchange ((frameHeader mramCmdRead address ++ data).take sent) s).2 = s := by
  have hread : mramCmdRead ≠ mramCmdWren := by decide
  match sent with
  | 0 => rfl
  | 1 => simp [frameHeader, exchange, hread]
  | 2 => rfl
  | 3 => rfl
  | n + 4 => simp [frameHeader, exchange]

theorem exchange_read (address : U32) (data : List U8) (s : Spi)
    (hfit : address.toNat < 2 ^ 24) :
    (exchange (frameHeader mramCmdRead address ++ data) s).1.drop 4 =
      bytesAt s.mram address.toNat data.length := by
  simp [exchange, frameHeader, frameAddress_header hfit]

/-! ## Reading -/

/-- The next `n` transfers do not fail. -/
def Made (n : Nat) (s : Spi) : Prop := ∀ event ∈ s.xfers.take n, event = .ok

instance (n : Nat) (s : Spi) : Decidable (Made n s) :=
  inferInstanceAs (Decidable (∀ event ∈ s.xfers.take n, event = .ok))

theorem made_zero (s : Spi) : Made 0 s := by
  simp [Made]

theorem made_congr {n : Nat} {s s' : Spi} (h : s.xfers = s'.xfers) : Made n s ↔ Made n s' := by
  unfold Made
  rw [h]

theorem made_succ {n : Nat} {s : Spi} :
    Made (n + 1) s ↔
      s.xfers.headD .ok = .ok ∧ Made n { s with xfers := s.xfers.tail } := by
  unfold Made
  cases s.xfers with
  | nil => simp
  | cons event rest => simp

/-- The transfers it takes to read so many bytes. -/
def xfersFor (chunk : ℕ+) (rest : Nat) : Nat :=
  (rest + chunk - 1) / chunk

theorem xfersFor_zero (chunk : ℕ+) : xfersFor chunk 0 = 0 := by
  have hchunk := chunk.pos
  exact Nat.div_eq_of_lt (by omega)

theorem xfersFor_chunk {chunk : ℕ+} {len done : Nat} (hlt : done < len) :
    xfersFor chunk (len - done) =
      xfersFor chunk (len - (done + chunkLen chunk len done)) + 1 := by
  have hchunk := chunk.pos
  unfold chunkLen
  split
  · next hmore =>
      have hrest : len - done + chunk - 1 = len - (done + chunk) + chunk - 1 + chunk := by omega
      rw [xfersFor, hrest, Nat.add_div_right _ hchunk, xfersFor]
  · next hlast =>
      have hdone : len - (done + (len - done)) = 0 := by omega
      have hrest : len - done + chunk - 1 = len - done - 1 + chunk := by omega
      rw [hdone, xfersFor_zero, xfersFor, hrest, Nat.add_div_right _ hchunk,
        Nat.div_eq_of_lt (by omega)]

theorem mramXfer_ret (frame : List U8) (s : Spi) :
    (mramXfer frame s).1.1 = 0 ↔ s.xfers.headD .ok = .ok := by
  unfold mramXfer
  cases s.xfers.headD .ok with
  | ok => simp
  | fail ret hret sent => simp [hret]

theorem mramXfer_read (address : U32) (n : Nat) (s : Spi) (hfit : address.toNat < 2 ^ 24) :
    let r := mramXfer (frameHeader mramCmdRead address ++ List.replicate n 0) s
    r.2 = { s with xfers := s.xfers.tail } ∧
      (r.1.1 = 0 → r.1.2.drop 4 = bytesAt s.mram address.toNat n) := by
  unfold mramXfer
  dsimp only
  cases s.xfers.headD .ok with
  | ok =>
      have hreply := exchange_read address (List.replicate n 0)
        { s with xfers := s.xfers.tail } hfit
      have hstate := exchange_take_read address (List.replicate n 0)
        (frameHeader mramCmdRead address ++ List.replicate n 0).length
        { s with xfers := s.xfers.tail }
      rw [List.take_length] at hstate
      rw [List.length_replicate] at hreply
      exact ⟨hstate, fun _ => hreply⟩
  | fail ret hret sent =>
      exact ⟨exchange_take_read _ _ _ _, fun hzero => absurd hzero hret⟩

theorem toNat_add_ofNat {offset : U32} {done : Nat} (hfit : offset.toNat + done < 2 ^ 24) :
    (offset + BitVec.ofNat 32 done).toNat = offset.toNat + done := by
  rw [BitVec.toNat_add, BitVec.toNat_ofNat]
  omega

theorem mramReadFrom_lt {chunk : ℕ+} {offset : U32} {len done : Nat} (hlt : done < len)
    (dst : List U8) (s : Spi) :
    mramReadFrom chunk offset len done dst s =
      let r := mramXfer (frameHeader mramCmdRead (offset + BitVec.ofNat 32 done) ++
        List.replicate (chunkLen chunk len done) 0) s
      if r.1.1 = 0 then
        mramReadFrom chunk offset len (done + chunkLen chunk len done) (dst ++ r.1.2.drop 4) r.2
      else ((r.1.1, dst), r.2) := by
  rw [mramReadFrom, if_pos hlt]
  simp only [bind, StateT.bind]
  cases mramXfer (frameHeader mramCmdRead (offset + BitVec.ofNat 32 done) ++
    List.replicate (chunkLen chunk len done) 0) s with
  | mk r s' =>
      dsimp only
      by_cases hret : r.1 = 0
      · rw [if_neg (not_not.mpr hret), if_pos hret]
      · rw [if_pos hret, if_neg hret]
        rfl

/-- The loop of `mram_read`, by induction on its position: the chip stays as it is, the code
is 0 when no transfer fails, and then the bytes are those of the chip. -/
theorem mramReadFrom_spec (chunk : ℕ+) {offset : U32} {len done : Nat} (dst : List U8) (s : Spi)
    (hfit : offset.toNat + len ≤ 2 ^ 24) (hdone : done ≤ len) :
    let r := mramReadFrom chunk offset len done dst s
    r.2.mram = s.mram ∧ (r.1.1 = 0 ↔ Made (xfersFor chunk (len - done)) s) ∧
      (r.1.1 = 0 → r.1.2 = dst ++ bytesAt s.mram (offset.toNat + done) (len - done)) := by
  induction done, dst using mramReadFrom.induct chunk len generalizing s with
  | case1 done dst hlt ih =>
      have haddress : (offset + BitVec.ofNat 32 done).toNat = offset.toNat + done :=
        toNat_add_ofNat (by omega)
      have hle : done + chunkLen chunk len done ≤ len := add_chunkLen_le hlt
      obtain ⟨hstate, hbytes⟩ := mramXfer_read (offset + BitVec.ofNat 32 done)
        (chunkLen chunk len done) s (by omega)
      have hmade := mramXfer_ret (frameHeader mramCmdRead (offset + BitVec.ofNat 32 done) ++
        List.replicate (chunkLen chunk len done) 0) s
      rw [mramReadFrom_lt hlt, xfersFor_chunk hlt, made_succ]
      generalize mramXfer (frameHeader mramCmdRead (offset + BitVec.ofNat 32 done) ++
        List.replicate (chunkLen chunk len done) 0) s = r at hstate hmade hbytes ⊢
      rcases r with ⟨⟨ret, frame⟩, s₁⟩
      dsimp only at hstate hmade hbytes ⊢
      subst hstate
      split
      · next hret =>
          obtain ⟨hmram, hmade', hbytes'⟩ :=
            ih frame { s with xfers := s.xfers.tail } hle
          refine ⟨hmram, ?_, fun hzero => ?_⟩
          · rw [hmade']
            exact ⟨fun h => ⟨hmade.mp hret, h⟩, And.right⟩
          · rw [hbytes' hzero, hbytes hret, haddress, List.append_assoc, ← Nat.add_assoc,
              ← bytesAt_add]
            congr 2
            omega
      · next hret =>
          refine ⟨rfl, ?_, fun hzero => absurd hzero hret⟩
          exact ⟨fun hzero => absurd hzero hret, fun h => absurd (hmade.mpr h.1) hret⟩
  | case2 done dst hge =>
      have hrest : len - done = 0 := by omega
      rw [mramReadFrom, if_neg hge, hrest, xfersFor_zero]
      refine ⟨rfl, ?_, fun _ => ?_⟩
      · exact ⟨fun _ => made_zero s, fun _ => rfl⟩
      · exact (List.append_nil dst).symm

/-- `mram_read` leaves the chip as it is, returns 0 when no transfer fails, and then the
bytes are those of the chip. -/
theorem mramRead_spec (chunk : ℕ+) {offset : U32} {len : Nat} (s : Spi)
    (hfit : offset.toNat + len ≤ 2 ^ 24) :
    let r := mramRead chunk offset len s
    r.2.mram = s.mram ∧ (r.1.1 = 0 ↔ Made (xfersFor chunk len) s) ∧
      (r.1.1 = 0 → r.1.2 = bytesAt s.mram offset.toNat len) :=
  mramReadFrom_spec chunk [] s hfit (Nat.zero_le len)

/-! ## Writing -/

theorem storeAt_apply (mram : Nat → U8) (offset : Nat) (data : List U8) (i : Nat) :
    storeAt mram offset data i =
      if offset ≤ i ∧ i < offset + data.length then data.getD (i - offset) 0 else mram i :=
  rfl

theorem storeAt_nil (mram : Nat → U8) (offset : Nat) : storeAt mram offset [] = mram := by
  funext i
  exact overwrite_outside (by rw [List.length_nil]; omega)

/-- Storing the rest after a first part stores the whole. -/
theorem storeAt_append (mram : Nat → U8) (offset : Nat) (first rest : List U8) :
    storeAt (storeAt mram offset first) (offset + first.length) rest =
      storeAt mram offset (first ++ rest) := by
  funext i
  rw [storeAt_apply, storeAt_apply, storeAt_apply, List.length_append]
  by_cases hfirst : offset ≤ i ∧ i < offset + first.length
  · rw [if_neg (by omega), if_pos hfirst, if_pos (by omega)]
    rw [List.getD_eq_getElem?_getD, List.getD_eq_getElem?_getD,
      List.getElem?_append_left (by omega)]
  · by_cases hrest : offset + first.length ≤ i ∧ i < offset + first.length + rest.length
    · have hindex : i - offset - first.length = i - (offset + first.length) := by omega
      rw [if_pos hrest, if_pos (by omega), List.getD_eq_getElem?_getD,
        List.getD_eq_getElem?_getD, List.getElem?_append_right (by omega), hindex]
    · rw [if_neg hrest, if_neg hfirst, if_neg (by omega)]

/-- What was stored, and then what was there. -/
theorem bytesAt_storeAt (mram : Nat → U8) (offset : Nat) {data : List U8} {len : Nat}
    (hfit : data.length ≤ len) :
    bytesAt (storeAt mram offset data) offset len =
      data ++ (bytesAt mram offset len).drop data.length := by
  refine List.ext_getElem ?_ fun i hi hi' => ?_
  · rw [List.length_append, List.length_drop, length_bytesAt, length_bytesAt]
    omega
  · rw [length_bytesAt] at hi
    by_cases hin : i < data.length
    · have hinside : storeAt mram offset data (offset + i) = data.getD (offset + i - offset) 0 :=
        overwrite_inside (Nat.le_add_right _ _) (by omega)
      simp [bytesAt, hinside, hin]
    · have houtside : storeAt mram offset data (offset + i) = mram (offset + i) :=
        overwrite_outside (by omega)
      have hindex : data.length + (i - data.length) = i := by omega
      rw [List.getElem_append_right (by omega)]
      simp [bytesAt, houtside, hindex]

theorem bytesAt_storeAt_take (mram : Nat → U8) (offset : Nat) (data : List U8) (k : Nat) :
    bytesAt (storeAt mram offset (data.take k)) offset data.length =
      data.take k ++ (bytesAt mram offset data.length).drop k := by
  have hold := length_bytesAt mram offset data.length
  have htake : (data.take k).length = min k data.length := List.length_take
  rw [bytesAt_storeAt _ _ (by omega), htake]
  by_cases hk : k ≤ data.length
  · rw [Nat.min_eq_left hk]
  · rw [Nat.min_eq_right (by omega), List.drop_of_length_le (by omega),
      List.drop_of_length_le (by omega)]

theorem exchange_write (address : U32) (data : List U8) {s : Spi}
    (hfit : address.toNat < 2 ^ 24) (hwel : s.wel = true) :
    (exchange (frameHeader mramCmdWrite address ++ data) s).2 =
      { s with mram := storeAt s.mram address.toNat data, wel := false } := by
  have hread : mramCmdWrite ≠ mramCmdRead := by decide
  simp [frameHeader, exchange, hread, hwel, frameAddress_header hfit]

/-- A WRITE that breaks off stores what it has carried. -/
theorem exchange_take_write (address : U32) (data : List U8) (sent : Nat) {s : Spi}
    (hfit : address.toNat < 2 ^ 24) (hwel : s.wel = true) :
    (exchange ((frameHeader mramCmdWrite address ++ data).take sent) s).2.mram =
      storeAt s.mram address.toNat (data.take (sent - 4)) := by
  have hwren : mramCmdWrite ≠ mramCmdWren := by decide
  match sent with
  | 0 => exact (storeAt_nil _ _).symm
  | 1 =>
      rw [List.take_zero, storeAt_nil]
      simp [frameHeader, exchange, hwren]
  | 2 => exact (storeAt_nil _ _).symm
  | 3 => exact (storeAt_nil _ _).symm
  | n + 4 =>
      have hframe : (frameHeader mramCmdWrite address ++ data).take (n + 4) =
          frameHeader mramCmdWrite address ++ data.take n := by
        simp [frameHeader]
      rw [hframe, exchange_write _ _ hfit hwel, Nat.add_sub_cancel]

theorem exchange_xfers (frame : List U8) (s : Spi) : (exchange frame s).2.xfers = s.xfers := by
  unfold exchange
  split
  · dsimp only
    split <;> rfl
  · split
    · rfl
    · split <;> rfl
  · rfl

theorem mramXfer_xfers (frame : List U8) (s : Spi) :
    (mramXfer frame s).2.xfers = s.xfers.tail := by
  unfold mramXfer
  cases s.xfers.headD .ok with
  | ok => exact exchange_xfers _ _
  | fail ret hret sent => exact exchange_xfers _ _

theorem mramXfer_wren (s : Spi) :
    let r := mramXfer [mramCmdWren] s
    r.2.mram = s.mram ∧ (r.1.1 = 0 → r.2.wel = true) := by
  unfold mramXfer
  dsimp only
  cases s.xfers.headD .ok with
  | ok => exact ⟨rfl, fun _ => rfl⟩
  | fail ret hret sent =>
      refine ⟨?_, fun hzero => absurd hzero hret⟩
      match sent with
      | 0 => rfl
      | n + 1 =>
          dsimp only
          rw [List.take_succ_cons, List.take_nil]
          rfl

theorem mramXfer_write (address : U32) (data : List U8) {s : Spi}
    (hfit : address.toNat < 2 ^ 24) (hwel : s.wel = true) :
    let r := mramXfer (frameHeader mramCmdWrite address ++ data) s
    ∃ k, r.2.mram = storeAt s.mram address.toNat (data.take k) ∧
      (r.1.1 = 0 → data.length ≤ k) := by
  unfold mramXfer
  dsimp only
  cases s.xfers.headD .ok with
  | ok =>
      have hwel' : ({ s with xfers := s.xfers.tail } : Spi).wel = true := hwel
      refine ⟨data.length, ?_, fun _ => Nat.le_refl _⟩
      dsimp only
      rw [exchange_write _ _ hfit hwel', List.take_length]
  | fail ret hret sent =>
      exact ⟨sent - 4, exchange_take_write _ _ _ hfit hwel, fun hzero => absurd hzero hret⟩

theorem mramWriteFrom_lt {chunk : ℕ+} {offset : U32} {src : List U8} {done : Nat}
    (hlt : done < src.length) (s : Spi) :
    mramWriteFrom chunk offset src done s =
      let r := mramXfer [mramCmdWren] s
      if r.1.1 = 0 then
        let r := mramXfer (frameHeader mramCmdWrite (offset + BitVec.ofNat 32 done) ++
          (src.drop done).take (chunkLen chunk src.length done)) r.2
        if r.1.1 = 0 then
          mramWriteFrom chunk offset src (done + chunkLen chunk src.length done) r.2
        else (r.1.1, r.2)
      else (r.1.1, r.2) := by
  rw [mramWriteFrom, if_pos hlt]
  simp only [bind, StateT.bind]
  cases mramXfer [mramCmdWren] s with
  | mk r s₁ =>
      dsimp only
      by_cases hret : r.1 = 0
      · rw [if_neg (not_not.mpr hret), if_pos hret]
        dsimp only [bind, StateT.bind]
        cases mramXfer (frameHeader mramCmdWrite (offset + BitVec.ofNat 32 done) ++
          (src.drop done).take (chunkLen chunk src.length done)) s₁ with
        | mk r s₂ =>
            dsimp only
            by_cases hret : r.1 = 0
            · rw [if_neg (not_not.mpr hret), if_pos hret]
            · rw [if_pos hret, if_neg hret]
              rfl
      · rw [if_pos hret, if_neg hret]
        rfl

/-- The WREN and the WRITE of one chunk. -/
theorem mramXfer_wren_write (address : U32) (data : List U8) (s : Spi)
    (hfit : address.toNat < 2 ^ 24) :
    let r₁ := mramXfer [mramCmdWren] s
    let r₂ := mramXfer (frameHeader mramCmdWrite address ++ data) r₁.2
    (∀ n, Made (n + 2) s ↔ r₁.1.1 = 0 ∧ r₂.1.1 = 0 ∧ Made n r₂.2) ∧ r₁.2.mram = s.mram ∧
      (r₁.1.1 = 0 → ∃ k, r₂.2.mram = storeAt s.mram address.toNat (data.take k) ∧
        (r₂.1.1 = 0 → data.length ≤ k)) := by
  dsimp only
  obtain ⟨hmram₁, hwel⟩ := mramXfer_wren s
  have hret₁ := mramXfer_ret [mramCmdWren] s
  have hxfers₁ := mramXfer_xfers [mramCmdWren] s
  generalize mramXfer [mramCmdWren] s = r₁ at hmram₁ hwel hret₁ hxfers₁ ⊢
  have hret₂ := mramXfer_ret (frameHeader mramCmdWrite address ++ data) r₁.2
  have hxfers₂ := mramXfer_xfers (frameHeader mramCmdWrite address ++ data) r₁.2
  refine ⟨fun n => ?_, hmram₁, fun hzero => ?_⟩
  · rw [made_succ, made_succ, ← hxfers₁, ← hxfers₂, ← hret₁, ← hret₂]
    rfl
  · rw [← hmram₁]
    exact mramXfer_write address data hfit (hwel hzero)

/-- The loop of `mram_write`, by induction on its position: a first part of the rest of the
buffer is stored, all of it when the code is 0, and the code is 0 when no transfer fails. -/
theorem mramWriteFrom_spec (chunk : ℕ+) {offset : U32} {src : List U8} {done : Nat} (s : Spi)
    (hfit : offset.toNat + src.length ≤ 2 ^ 24) (hdone : done ≤ src.length) :
    let r := mramWriteFrom chunk offset src done s
    (r.1 = 0 ↔ Made (2 * xfersFor chunk (src.length - done)) s) ∧
      ∃ k, r.2.mram = storeAt s.mram (offset.toNat + done) ((src.drop done).take k) ∧
        (r.1 = 0 → src.length - done ≤ k) := by
  induction done using mramWriteFrom.induct chunk src generalizing s with
  | case1 done hlt ih =>
      have haddress : (offset + BitVec.ofNat 32 done).toNat = offset.toNat + done :=
        toNat_add_ofNat (by omega)
      have hle : done + chunkLen chunk src.length done ≤ src.length := add_chunkLen_le hlt
      have hlength : ((src.drop done).take (chunkLen chunk src.length done)).length =
          chunkLen chunk src.length done := by
        rw [List.length_take, List.length_drop]
        omega
      obtain ⟨hmade, hmram₁, hwrite⟩ := mramXfer_wren_write (offset + BitVec.ofNat 32 done)
        ((src.drop done).take (chunkLen chunk src.length done)) s (by omega)
      rw [mramWriteFrom_lt hlt, xfersFor_chunk hlt, Nat.mul_add, hmade]
      dsimp only
      generalize mramXfer [mramCmdWren] s = r₁ at hmram₁ hwrite ⊢
      generalize mramXfer (frameHeader mramCmdWrite (offset + BitVec.ofNat 32 done) ++
        (src.drop done).take (chunkLen chunk src.length done)) r₁.2 = r₂ at hwrite ⊢
      by_cases hzero₁ : r₁.1.1 = 0
      · obtain ⟨k₂, hmram₂, hall₂⟩ := hwrite hzero₁
        rw [haddress] at hmram₂
        rw [if_pos hzero₁]
        by_cases hzero₂ : r₂.1.1 = 0
        · obtain ⟨hmade', k, hmram, hall⟩ := ih r₂.2 hle
          rw [if_pos hzero₂, hmade']
          refine ⟨by simp [hzero₁, hzero₂], chunkLen chunk src.length done + k, ?_, ?_⟩
          · rw [hmram, hmram₂, List.take_of_length_le (hall₂ hzero₂), List.take_add,
              ← storeAt_append, hlength, List.drop_drop, Nat.add_assoc]
          · intro hdone'
            have := hall (hmade'.mpr hdone')
            omega
        · rw [if_neg hzero₂]
          refine ⟨by simp [hzero₂], min k₂ (chunkLen chunk src.length done), ?_, ?_⟩
          · rw [hmram₂, List.take_take]
          · exact fun hzero => absurd hzero hzero₂
      · rw [if_neg hzero₁]
        refine ⟨by simp [hzero₁], 0, ?_, fun hzero => absurd hzero hzero₁⟩
        rw [List.take_zero, storeAt_nil, hmram₁]
  | case2 done hge =>
      have hrest : src.length - done = 0 := by omega
      rw [mramWriteFrom, if_neg hge, hrest, xfersFor_zero]
      refine ⟨⟨fun _ => made_zero s, fun _ => rfl⟩, 0, ?_, fun _ => Nat.le_refl _⟩
      exact (storeAt_nil _ _).symm

/-- `mram_write` stores a first part of the buffer.  It returns 0 when no transfer fails,
and then the whole buffer is stored. -/
theorem mramWrite_spec (chunk : ℕ+) {offset : U32} {src : List U8} (s : Spi)
    (hfit : offset.toNat + src.length ≤ 2 ^ 24) :
    let r := mramWrite chunk offset src s
    (r.1 = 0 ↔ Made (2 * xfersFor chunk src.length) s) ∧
      ∃ k, r.2.mram = storeAt s.mram offset.toNat (src.take k) ∧ (r.1 = 0 → src.length ≤ k) :=
  mramWriteFrom_spec chunk s hfit (Nat.zero_le _)

end RadsatLinux.Env.Mram
