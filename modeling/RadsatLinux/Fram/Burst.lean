import RadsatLinux.Fram.Memory
import RadsatLinux.Library.ShiftRegister

/-!
# The checksum and bursts of errors

`crc32_fram` as a shift register that is fed the bits of a record, least significant bit of
each byte first.  A slot passes its check exactly when all of its 256 bits, the stored
checksum included, leave the register in one fixed state; so two slots that differ within
32 consecutive bits never both pass.
-/

namespace RadsatLinux.Fram.Burst

open RadsatLinux.Library.LittleEndian RadsatLinux.Library.ShiftRegister
open RadsatLinux.Fram.Record RadsatLinux.Fram.Memory

/-- The polynomial of `crc32_fram`. -/
def polynomial : U32 := 0xedb88320

theorem polynomial_msb : polynomial.msb = true := by decide

theorem and_one_eq_one_iff (crc : U32) : crc &&& 1 = 1 ↔ crc.getLsbD 0 = true := by
  have hone : (1 : U32) = 1#32 := rfl
  rw [hone, BitVec.and_one_eq_setWidth_ofBool_getLsbD]
  cases crc.getLsbD 0 <;> simp

theorem crcBit_eq : crcBit = step polynomial := by
  funext crc
  unfold crcBit step
  by_cases hlow : crc.getLsbD 0 = true
  · rw [if_pos ((and_one_eq_one_iff crc).mpr hlow), if_pos hlow, polynomial]
  · rw [if_neg fun h => hlow ((and_one_eq_one_iff crc).mp h), if_neg hlow, BitVec.xor_zero]

/-- The bits of a list of bytes, in the order in which the register takes them. -/
def bits (bytes : List U8) (i : Nat) : Bool :=
  (bytes.getD (i / 8) 0).getLsbD (i % 8)

theorem crcByte_eq (crc : U32) (byte : U8) :
    crcByte crc byte = feed polynomial crc byte.getLsbD 8 := by
  have hword : word 32 byte.getLsbD 8 = byte.setWidth 32 := by
    apply BitVec.eq_of_getLsbD_eq
    intro i hi
    rw [getLsbD_word _ _ hi, BitVec.getLsbD_setWidth]
    by_cases hlt : i < 8
    · simp [hlt, hi]
    · simp [hlt, BitVec.getLsbD_of_ge byte i (by omega)]
  rw [feed_word polynomial crc byte.getLsbD (by decide), hword, crcByte, crcBit_eq]

/-- The loops of `crc32_fram` feed the register bit by bit. -/
theorem foldl_crcByte_eq (bytes : List U8) (crc : U32) :
    bytes.foldl crcByte crc = feed polynomial crc (bits bytes) (8 * bytes.length) := by
  induction bytes generalizing crc with
  | nil => rfl
  | cons byte rest ih =>
      have hlength : 8 * (byte :: rest).length = 8 + 8 * rest.length := by
        rw [List.length_cons]
        omega
      have hfirst : ∀ i, i < 8 → bits (byte :: rest) i = byte.getLsbD i := by
        intro i hi
        have hdiv : i / 8 = 0 := by omega
        have hmod : i % 8 = i := by omega
        simp [bits, hdiv, hmod]
      have hrest : (fun i => bits (byte :: rest) (8 + i)) = bits rest := by
        funext i
        have hdiv : (8 + i) / 8 = i / 8 + 1 := by omega
        have hmod : (8 + i) % 8 = i % 8 := by omega
        simp [bits, hdiv, hmod]
      rw [List.foldl_cons, ih, crcByte_eq, hlength, feed_add, feed_congr _ _ hfirst, hrest]

def slotBit (raw : Slot) (i : Nat) : Bool :=
  bits raw.toList i

/-- The register after a slot that passes. -/
def residue : U32 :=
  (step polynomial)^[32] 0xffffffff

theorem slotBit_eq (raw : Slot) {i : Nat} (hi : i / 8 < 32) :
    slotBit raw i = raw[i / 8].getLsbD (i % 8) := by
  have hbyte : raw.toList.getD (i / 8) 0 = raw[i / 8] := by
    simp [List.getD_eq_getElem?_getD, hi]
  rw [slotBit, bits, hbyte]

theorem eq_of_slotBit_eq {first second : Slot}
    (h : ∀ i, i < 256 → slotBit first i = slotBit second i) : first = second := by
  apply Vector.ext
  intro k hk
  apply BitVec.eq_of_getLsbD_eq
  intro j hj
  have hdiv : (8 * k + j) / 8 = k := by omega
  have hmod : (8 * k + j) % 8 = j := by omega
  have hbit := h (8 * k + j) (by omega)
  rw [slotBit_eq first (by omega), slotBit_eq second (by omega)] at hbit
  simpa only [hdiv, hmod] using hbit

theorem storedCrc_eq (raw : Slot) :
    storedCrc raw = word 32 (fun i => slotBit raw (224 + i)) 32 := by
  apply BitVec.eq_of_getLsbD_eq
  intro i hi
  have hdiv : (224 + i) / 8 = 28 + i / 8 := by omega
  have hmod : (224 + i) % 8 = i % 8 := by omega
  have hbyte : [raw[28], raw[29], raw[30], raw[31]].getD (i / 8) 0 =
      raw.toList.getD (28 + i / 8) 0 := by
    have hcases : i / 8 = 0 ∨ i / 8 = 1 ∨ i / 8 = 2 ∨ i / 8 = 3 := by omega
    rcases hcases with h | h | h | h <;> simp [h]
  rw [storedCrc, getLsbD_joinBytes _ hi, getLsbD_word _ _ hi, hbyte, decide_eq_true hi,
    Bool.true_and, slotBit, bits, hdiv, hmod]

/-- The bits before the stored checksum are those the checksum is computed over. -/
theorem foldl_body_eq (raw : Slot) :
    (raw.toList.take 28).foldl crcByte 0xffffffff =
      feed polynomial 0xffffffff (slotBit raw) 224 := by
  have hlength : (raw.toList.take 28).length = 28 := by
    rw [List.length_take, Vector.length_toList]
    rfl
  rw [foldl_crcByte_eq, hlength]
  refine feed_congr polynomial _ fun i hi => ?_
  have hlt : i / 8 < 28 := by omega
  rw [slotBit, bits, bits, List.getD_eq_getElem?_getD, List.getD_eq_getElem?_getD,
    List.getElem?_take_of_lt hlt]

theorem xor_eq_ones_iff (x y : U32) : x ^^^ y = 0xffffffff ↔ ~~~ x = y := by
  have hones : (0xffffffff : U32) = BitVec.allOnes 32 := by decide
  rw [hones]
  constructor
  · intro h
    calc ~~~ x = x ^^^ BitVec.allOnes 32 := BitVec.xor_allOnes.symm
      _ = x ^^^ (x ^^^ y) := by rw [h]
      _ = y := by rw [← BitVec.xor_assoc, BitVec.xor_self, BitVec.zero_xor]
  · rintro rfl
    rw [← BitVec.not_xor_right, BitVec.xor_self, BitVec.not_zero]

theorem crcOk_iff (raw : Slot) :
    crcOk raw = true ↔ feed polynomial 0xffffffff (slotBit raw) 256 = residue := by
  have hsplit : feed polynomial 0xffffffff (slotBit raw) 256 =
      (step polynomial)^[32]
        (feed polynomial 0xffffffff (slotBit raw) 224 ^^^ storedCrc raw) := by
    rw [feed_add polynomial _ (slotBit raw) 224 32, feed_word polynomial _ _ (Nat.le_refl 32),
      storedCrc_eq]
  rw [hsplit, residue, (iterate_injective polynomial_msb 32).eq_iff, crcOk, crc32Fram,
    foldl_body_eq, beq_iff_eq]
  exact (xor_eq_ones_iff _ _).symm

/-- Two slots that differ, but only within 32 consecutive bits, do not both pass. -/
theorem not_crcOk_of_burst {raw damaged : Slot} {k : Nat} (hok : crcOk raw = true)
    (hwindow : ∀ i, i < 256 → slotBit raw i ≠ slotBit damaged i → k ≤ i ∧ i < k + 32)
    (hne : raw ≠ damaged) : crcOk damaged = false := by
  obtain ⟨i, hi, hbit⟩ : ∃ i, i < 256 ∧ slotBit raw i ≠ slotBit damaged i := by
    by_contra hsame
    refine hne (eq_of_slotBit_eq fun i hi => ?_)
    by_contra hbit
    exact hsame ⟨i, hi, hbit⟩
  rw [← Bool.not_eq_true]
  intro hdamaged
  refine feed_ne_of_burst polynomial_msb 0xffffffff hwindow hi hbit ?_
  rw [(crcOk_iff raw).mp hok, (crcOk_iff damaged).mp hdamaged]

/-- The same for slots that differ within four consecutive bytes. -/
theorem not_crcOk_of_bytes {raw damaged : Slot} {k : Nat} (hok : crcOk raw = true)
    (hsame : ∀ i (hi : i < 32), i < k ∨ k + 4 ≤ i → raw[i] = damaged[i])
    (hne : raw ≠ damaged) : crcOk damaged = false := by
  refine not_crcOk_of_burst (k := 8 * k) hok (fun i hi hbit => ?_) hne
  have hlt : i / 8 < 32 := by omega
  rw [slotBit_eq raw hlt, slotBit_eq damaged hlt] at hbit
  by_contra hout
  exact hbit (congrArg (fun byte => byte.getLsbD (i % 8)) (hsame (i / 8) hlt (by omega)))

/-! ## Torn records -/

theorem getElem_tear (old new : Slot) (count : Nat) {i : Nat} (hi : i < 32) :
    (tear old new count)[i] = if i < count then new[i] else old[i] := by
  simp only [tear, Vector.getElem_ofFn]

/-- Of two good slots that differ in bytes 10 to 13 and in the checksum alone, a torn version
is one of the two or fails its check. -/
theorem tear_detected {old new : Slot} (hold : crcOk old = true) (hnew : crcOk new = true)
    (hsame : ∀ i (hi : i < 32), i < 10 ∨ 14 ≤ i ∧ i < 28 → old[i] = new[i]) (count : Nat) :
    tear old new count = old ∨ tear old new count = new ∨
      crcOk (tear old new count) = false := by
  by_cases hcount : count ≤ 28
  · -- The checksum is the old one.
    by_cases heq : old = tear old new count
    · exact Or.inl heq.symm
    · refine Or.inr (Or.inr (not_crcOk_of_bytes (k := 10) hold (fun i hi hout => ?_) heq))
      rw [getElem_tear old new count hi]
      split
      · exact hsame i hi (by omega)
      · rfl
  · -- Everything before the checksum is new.
    by_cases heq : new = tear old new count
    · exact Or.inr (Or.inl heq.symm)
    · refine Or.inr (Or.inr (not_crcOk_of_bytes (k := 28) hnew (fun i hi hout => ?_) heq))
      rw [getElem_tear old new count hi, if_pos (by omega)]

theorem getElem_put_u64 (value : U64) {i : Nat} (hi : i < 8) :
    (u64Kind.put value)[i] = byteOf value i := by
  interval_cases i <;> rfl

theorem getElem_put_u64_padding (value : U64) {i : Nat} (hlow : 8 ≤ i) (hi : i < 18) :
    (u64Kind.put value)[i] = 0 := by
  obtain ⟨j, rfl⟩ : ∃ j, i = 8 + j := ⟨i - 8, by omega⟩
  have hj : j < 10 := by omega
  interval_cases j <;> rfl

/-- From byte `m` on, values below 2^(8m) are alike. -/
theorem put_u64_eq {value value' : U64} {m : Nat} (hvalue : value.toNat < 2 ^ (8 * m))
    (hvalue' : value'.toNat < 2 ^ (8 * m)) {i : Nat} (hi : i < 18) (hhigh : m ≤ i) :
    (u64Kind.put value)[i] = (u64Kind.put value')[i] := by
  have hzero {v : U64} (hv : v.toNat < 2 ^ (8 * m)) : byteOf v i = 0 := by
    apply BitVec.eq_of_getLsbD_eq
    intro k hk
    have hpow : 2 ^ (8 * m) ≤ 2 ^ (8 * i + k) := Nat.pow_le_pow_right (by decide) (by omega)
    rw [getLsbD_byteOf, BitVec.getLsbD, Nat.testBit_lt_two_pow (by omega), Bool.and_false]
    simp
  by_cases hlt : i < 8
  · rw [getElem_put_u64 value hlt, getElem_put_u64 value' hlt, hzero hvalue, hzero hvalue']
  · rw [getElem_put_u64_padding value (by omega) hi, getElem_put_u64_padding value' (by omega) hi]

theorem getElem_framEncodeU64 (id : U8) (value : U64) (seq : U32) {i : Nat} (hlow : 10 ≤ i)
    (hhigh : i < 28) :
    (framEncode u64Kind id value seq)[i] = (u64Kind.put value)[i - 10] := by
  have hpayload := congrArg (fun v => v.toList[i - 10]?)
    (recordPayload_framEncode u64Kind id value seq)
  have hindex : 10 + (i - 10) = i := by omega
  have hlt : i - 10 < 18 := by omega
  simpa [recordPayload, hindex, hlt] using hpayload

/-- Before the checksum, the records of values below 2^(8m) differ in the `m` bytes from byte
10 on alone. -/
theorem framEncodeU64_agree (id : U8) (seq : U32) {value value' : U64} {m : Nat}
    (hvalue : value.toNat < 2 ^ (8 * m)) (hvalue' : value'.toNat < 2 ^ (8 * m)) {i : Nat}
    (hi : i < 28) (hout : i < 10 ∨ 10 + m ≤ i) :
    (framEncodeU64 id value seq)[i] = (framEncodeU64 id value' seq)[i] := by
  by_cases hheader : i < 10
  · exact (getElem_framEncode_header u64Kind id value seq hheader).trans
      (getElem_framEncode_header u64Kind id value' seq hheader).symm
  · rw [framEncodeU64, framEncodeU64, getElem_framEncodeU64 id value seq (by omega) hi,
      getElem_framEncodeU64 id value' seq (by omega) hi]
    exact put_u64_eq hvalue hvalue' (by omega) (by omega)

/-- A slot with the body of a record whose value fits a byte keeps it while another such record
is written, or gets the body of that one. -/
theorem tear_body_of_byte (id : U8) (seq : U32) {raw : Slot} {value value' : U64}
    (hvalue : value.toNat < 2 ^ 8) (hvalue' : value'.toNat < 2 ^ 8)
    (hbody : ∀ i (hi : i < 28), raw[i] = (framEncodeU64 id value seq)[i]) (count : Nat) :
    (∀ i (hi : i < 28), (tear raw (framEncodeU64 id value' seq) count)[i] =
        (framEncodeU64 id value seq)[i]) ∨
      ∀ i (hi : i < 28), (tear raw (framEncodeU64 id value' seq) count)[i] =
        (framEncodeU64 id value' seq)[i] := by
  have hagree {i : Nat} (hi : i < 28) (hout : i < 10 ∨ 11 ≤ i) :=
    framEncodeU64_agree (m := 1) id seq hvalue hvalue' hi hout
  by_cases hstarted : count ≤ 10
  · refine Or.inl fun i hi => ?_
    rw [getElem_tear _ _ count (by omega)]
    split
    · exact (hagree hi (by omega)).symm
    · exact hbody i hi
  · refine Or.inr fun i hi => ?_
    rw [getElem_tear _ _ count (by omega)]
    split
    · rfl
    · exact (hbody i hi).trans (hagree hi (by omega))

/-- A record of a value below 2^32, torn while it is replaced by another one of the same key
and sequence number. -/
theorem tear_u64_detected (id : U8) (seq : U32) {value value' : U64}
    (hvalue : value.toNat < 2 ^ 32) (hvalue' : value'.toNat < 2 ^ 32) (count : Nat) :
    tear (framEncodeU64 id value seq) (framEncodeU64 id value' seq) count =
        framEncodeU64 id value seq ∨
      tear (framEncodeU64 id value seq) (framEncodeU64 id value' seq) count =
        framEncodeU64 id value' seq ∨
      crcOk (tear (framEncodeU64 id value seq) (framEncodeU64 id value' seq) count) = false :=
  tear_detected (crcOk_framEncode _ _ _ _) (crcOk_framEncode _ _ _ _)
    (fun _ _ hout => framEncodeU64_agree (m := 4) id seq hvalue hvalue' (by omega) (by omega)) count

/-! ## Torn increments -/

theorem slotBit_framEncodeU64 (id : U8) (value : U64) (seq : U32) {i : Nat} (hlow : 80 ≤ i)
    (hhigh : i < 144) : slotBit (framEncodeU64 id value seq) i = value.getLsbD (i - 80) := by
  have hindex : 8 * (i / 8 - 10) + i % 8 = i - 80 := by omega
  have hlt : i - 80 < 64 := by omega
  rw [slotBit_eq _ (by omega), framEncodeU64, getElem_framEncodeU64 id value seq (by omega)
    (by omega), getElem_put_u64 value (by omega), getLsbD_byteOf, hindex]
  simp [Nat.mod_lt]

/-- Below bit `m` a value is all ones. -/
def Carries (value : U64) (m : Nat) : Prop :=
  value.toNat % 2 ^ m = 2 ^ m - 1

theorem toNat_succ_mod (value : U64) {m : Nat} (hm : m ≤ 64) :
    (value + 1).toNat % 2 ^ m = (value.toNat + 1) % 2 ^ m := by
  rw [BitVec.toNat_add, Nat.mod_mod_of_dvd _ (Nat.pow_dvd_pow 2 hm)]
  rfl

/-- The bits below a carry turn from one to zero. -/
theorem getLsbD_of_carries {value : U64} {m i : Nat} (h : Carries value m) (hm : m ≤ 64)
    (hi : i < m) : value.getLsbD i = true ∧ (value + 1).getLsbD i = false := by
  have hpos : 0 < 2 ^ m := Nat.two_pow_pos m
  have hnext : (value + 1).toNat % 2 ^ m = 0 := by
    rw [toNat_succ_mod value hm, Nat.add_mod, h]
    rcases Nat.eq_zero_or_pos m with rfl | hm
    · omega
    · rw [Nat.mod_eq_of_lt (Nat.one_lt_two_pow (Nat.ne_of_gt hm)), Nat.sub_add_cancel hpos,
        Nat.mod_self]
  have hbit (n : Nat) : n.testBit i = (n % 2 ^ m).testBit i := by
    rw [Nat.testBit_mod_two_pow, decide_eq_true hi, Bool.true_and]
  constructor
  · rw [BitVec.getLsbD, hbit, h, Nat.testBit_two_pow_sub_one, decide_eq_true hi]
  · rw [BitVec.getLsbD, hbit, hnext, Nat.zero_testBit]

/-- Without a carry into bit `m` the bits from there on stay. -/
theorem getLsbD_of_not_carries {value : U64} {m i : Nat} (h : ¬ Carries value m) (hi : m ≤ i) :
    (value + 1).getLsbD i = value.getLsbD i := by
  have hpos : 0 < 2 ^ m := Nat.two_pow_pos m
  have hlt := Nat.mod_lt value.toNat hpos
  have hne : value.toNat % 2 ^ m ≠ 2 ^ m - 1 := h
  by_cases hwide : 64 ≤ i
  · rw [BitVec.getLsbD_of_ge _ i hwide, BitVec.getLsbD_of_ge _ i hwide]
  have hdiv : (value.toNat + 1) / 2 ^ m = value.toNat / 2 ^ m := by
    have hsplit := Nat.div_add_mod value.toNat (2 ^ m)
    rw [Nat.div_eq_iff hpos]
    have hcomm : value.toNat / 2 ^ m * 2 ^ m = 2 ^ m * (value.toNat / 2 ^ m) := Nat.mul_comm _ _
    omega
  have hsum : (value + 1).toNat.testBit i = (value.toNat + 1).testBit i := by
    rw [BitVec.toNat_add, Nat.testBit_mod_two_pow, decide_eq_true (by omega), Bool.true_and]
    rfl
  have hshift (n : Nat) : n.testBit i = (n / 2 ^ m).testBit (i - m) := by
    rw [Nat.testBit_div_two_pow, Nat.sub_add_cancel hi]
  rw [BitVec.getLsbD, hsum, hshift, hdiv, ← hshift, BitVec.getLsbD]

/-- Ones in up to seven bytes do not cancel out. -/
theorem feed_ones_ne_zero {k : Nat} (hpos : 0 < k) (hk : k < 8) :
    feed polynomial 0#32 (fun _ => true) (8 * k) ≠ 0#32 := by
  have hall : ∀ k, k < 8 → 0 < k → feed polynomial 0#32 (fun _ => true) (8 * k) ≠ 0#32 := by
    decide +kernel
  exact hall k hk hpos

section Increment

variable (id : U8) (seq : U32) {value : U64} {count : Nat}

/-- The two records differ in the bytes of the value and in the checksum. -/
theorem increment_agree {i : Nat} (hi : i < 32) (hout : i < 10 ∨ 18 ≤ i ∧ i < 28) :
    (framEncodeU64 id value seq)[i] = (framEncodeU64 id (value + 1) seq)[i] :=
  framEncodeU64_agree (m := 8) id seq value.isLt (value + 1).isLt (by omega) (by omega)

/-- Nothing but the header was written. -/
theorem tear_increment_header (hcount : count ≤ 10) :
    tear (framEncodeU64 id value seq) (framEncodeU64 id (value + 1) seq) count =
      framEncodeU64 id value seq := by
  apply Vector.ext
  intro i hi
  rw [getElem_tear _ _ count hi]
  split
  · exact (increment_agree id seq (by omega) (by omega)).symm
  · rfl

/-- The bytes of the value that were written went from ones to zeros. -/
theorem not_crcOk_of_carries (hlow : 10 < count) (hhigh : count < 18)
    (hcarry : Carries value (8 * (count - 10))) :
    crcOk (tear (framEncodeU64 id value seq) (framEncodeU64 id (value + 1) seq) count) =
      false := by
  have hold : crcOk (framEncodeU64 id value seq) = true := crcOk_framEncode _ _ _ _
  have hbit := @slotBit_framEncodeU64 id value seq
  have hbit' := @slotBit_framEncodeU64 id (value + 1) seq
  have hheader {i : Nat} (hi : i < 32) (hlt : i < 10) :=
    @increment_agree id seq value i hi (Or.inl hlt)
  generalize framEncodeU64 id value seq = old at *
  generalize framEncodeU64 id (value + 1) seq = new at *
  have hdiff (j : Nat) (hj : j < 256) : (slotBit old j ^^ slotBit (tear old new count) j) =
      (decide (80 ≤ j ∧ j < 80 + 8 * (count - 10)) && true) := by
    have hbyte : j / 8 < 32 := by omega
    rw [Bool.and_true, slotBit_eq (tear old new count) hbyte, getElem_tear old new count hbyte]
    by_cases hwritten : j / 8 < count
    · rw [if_pos hwritten, ← slotBit_eq new hbyte]
      by_cases hin : 80 ≤ j
      · obtain ⟨hone, hzero⟩ := getLsbD_of_carries hcarry (by omega)
          (show j - 80 < 8 * (count - 10) by omega)
        rw [hbit hin (by omega), hbit' hin (by omega), hone, hzero, decide_eq_true (by omega)]
        rfl
      · rw [slotBit_eq old hbyte, slotBit_eq new hbyte, hheader hbyte (by omega), Bool.xor_self,
          decide_eq_false (by omega)]
    · rw [if_neg hwritten, ← slotBit_eq old hbyte, Bool.xor_self, decide_eq_false (by omega)]
  rw [← Bool.not_eq_true]
  intro htorn
  refine feed_ne_of_pattern polynomial_msb 0xffffffff (by omega) hdiff
    (feed_ones_ne_zero (by omega) (by omega)) ?_
  rw [(crcOk_iff old).mp hold, (crcOk_iff _).mp htorn]

/-- Without a carry into what was not written, the rest of the body is as in the new record. -/
theorem increment_rest (hlow : 10 < count)
    (hcarry : ¬ (count < 18 ∧ Carries value (8 * (count - 10)))) {i : Nat} (hi : i < 32)
    (hrest : count ≤ i ∧ i < 28) :
    (framEncodeU64 id value seq)[i] = (framEncodeU64 id (value + 1) seq)[i] := by
  by_cases hpadding : 18 ≤ i
  · exact increment_agree id seq hi (Or.inr ⟨hpadding, hrest.2⟩)
  · apply BitVec.eq_of_getLsbD_eq
    intro k hk
    have hdiv : (8 * i + k) / 8 = i := by omega
    have hmod : (8 * i + k) % 8 = k := by omega
    have hbits : slotBit (framEncodeU64 id value seq) (8 * i + k) =
        slotBit (framEncodeU64 id (value + 1) seq) (8 * i + k) := by
      rw [slotBit_framEncodeU64 id value seq (by omega) (by omega),
        slotBit_framEncodeU64 id (value + 1) seq (by omega) (by omega),
        getLsbD_of_not_carries (fun h => hcarry ⟨by omega, h⟩) (by omega)]
    rw [slotBit_eq _ (by omega), slotBit_eq _ (by omega)] at hbits
    simpa only [hdiv, hmod] using hbits

/-- A record of a counter, torn while it is replaced by the record of the next count. -/
theorem tear_increment_detected (value : U64) (count : Nat) :
    tear (framEncodeU64 id value seq) (framEncodeU64 id (value + 1) seq) count =
        framEncodeU64 id value seq ∨
      tear (framEncodeU64 id value seq) (framEncodeU64 id (value + 1) seq) count =
        framEncodeU64 id (value + 1) seq ∨
      crcOk (tear (framEncodeU64 id value seq) (framEncodeU64 id (value + 1) seq) count) =
        false := by
  by_cases hstarted : count ≤ 10
  · exact Or.inl (tear_increment_header id seq hstarted)
  right
  have hlow : 10 < count := by omega
  by_cases hcarry : count < 18 ∧ Carries value (8 * (count - 10))
  · exact Or.inr (not_crcOk_of_carries id seq hlow hcarry.1 hcarry.2)
  · by_cases heq : framEncodeU64 id (value + 1) seq =
        tear (framEncodeU64 id value seq) (framEncodeU64 id (value + 1) seq) count
    · exact Or.inl heq.symm
    · refine Or.inr (not_crcOk_of_bytes (k := 28) (crcOk_framEncode _ _ _ _)
        (fun i hi hout => ?_) heq)
      rw [getElem_tear _ _ count hi]
      split
      · rfl
      · exact (increment_rest id seq hlow hcarry (by omega) (by omega)).symm

end Increment

end RadsatLinux.Fram.Burst
