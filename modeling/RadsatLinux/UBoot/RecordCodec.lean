import RadsatLinux.UBoot.Overlay
import RadsatLinux.UBoot.Layout

/-!
# The record codec

One encoder and two decoders share the records of a key: `fram_read_bool` and
`fram_read_u64` look at slot A, `decode_and_set` at both slots.  `RoundTrips` says what
they make of an encoded record, and `framEncode_of_framDecode` goes the other way: a slot
that is read is an encoded record, if the bytes that the readers skip are as the encoder
leaves them.
-/

namespace RadsatLinux.UBoot.RecordCodec

open RadsatLinux.Library.Crash RadsatLinux.Library.LittleEndian
open RadsatLinux.Fram.Record RadsatLinux.Fram.Memory
open RadsatLinux.UBoot.Hardware RadsatLinux.UBoot.FramMission RadsatLinux.UBoot.Layout
open RadsatLinux.UBoot.Overlay

variable {α : Type}

/-! ## From the encoder to the readers -/

/-- What every reader makes of the record of a value. -/
structure RoundTrips (kind : ValueKind α) (render : α → String) (id : U8) (value : α)
    (seq : U32) : Prop where
  /-- The matching reader returns the value. -/
  read : ∀ d : Durable, slotA d.fram id = framEncode kind id value seq →
    ReadsBack kind id d (some value)
  /-- `fram_write_key_slots` leaves the record in both slots when it returns 0. -/
  written : ∀ b b' : Board, framWriteKeySlots id (framEncode kind id value seq) b = .ok false b' →
    slotA b'.fram id = framEncode kind id value seq ∧
      slotB b'.fram id = framEncode kind id value seq
  /-- `decode_and_set` then sets the variable to the text of the value. -/
  overlaid : ∀ (d : Durable) (name : String), slotA d.fram id = framEncode kind id value seq →
    slotB d.fram id = framEncode kind id value seq →
    Overlays ⟨id, name, kind.vtype⟩ d (some ⟨name, some (render value)⟩)
  /-- A reader of another type returns an error. -/
  otherType : ∀ (β : Type) (kind' : ValueKind β) (d : Durable), kind'.vtype ≠ kind.vtype →
    slotA d.fram id = framEncode kind id value seq → ReadsBack kind' id d none
  /-- So does a reader of another key, of whatever type. -/
  otherId : ∀ (β : Type) (kind' : ValueKind β) (id' : U8) (d : Durable), id' ≠ id →
    slotA d.fram id' = framEncode kind id value seq → ReadsBack kind' id' d none

section RoundTrip

variable (kind : ValueKind α) (id : U8) (value : α) (seq : U32)

theorem recordType_framEncode : recordType (framEncode kind id value seq) = kind.vtype :=
  getElem_framEncode_header kind id value seq (i := 4) (by decide)

theorem recordId_framEncode : recordId (framEncode kind id value seq) = id :=
  getElem_framEncode_header kind id value seq (i := 3) (by decide)

theorem slotValid_framEncode : SlotValid kind id (framEncode kind id value seq) :=
  ⟨recordCheck_framEncode kind id value seq,
    getElem_framEncode_header kind id value seq (i := 2) (by decide)⟩

theorem framDecode_otherType {β : Type} {kind' : ValueKind β} (hne : kind'.vtype ≠ kind.vtype) :
    framDecode kind' id (framEncode kind id value seq) = none := by
  have htype : (recordType (framEncode kind id value seq) == kind'.vtype) = false := by
    rw [recordType_framEncode]
    exact beq_false_of_ne hne.symm
  simp [framDecode, recordCheck, htype]

theorem framDecode_otherId {β : Type} (kind' : ValueKind β) {id' : U8} (hne : id' ≠ id) :
    framDecode kind' id' (framEncode kind id value seq) = none := by
  have hid : (recordId (framEncode kind id value seq) == id') = false := by
    rw [recordId_framEncode]
    exact beq_false_of_ne hne.symm
  simp [framDecode, recordCheck, hid]

/-- With one record in both slots it does not matter which one the overlay prefers. -/
theorem overlayValue_framEncode {render : α → String} (hrender : Renders kind render)
    (name : String) :
    overlayValue ⟨id, name, kind.vtype⟩ (framEncode kind id value seq)
      (framEncode kind id value seq) = some ⟨name, some (render value)⟩ := by
  have hvalid := slotValid_framEncode kind id value seq
  have hbest : bestSlot id (framEncode kind id value seq)
      (some (framEncode kind id value seq)) = framEncode kind id value seq := by
    rw [bestSlot, ite_self]
  have hvalue : slotValue kind (framEncode kind id value seq) = value := by
    rw [slotValue, recordPayload_framEncode, kind.get_put]
  rw [overlayValue_of_valid hvalid, hbest, hrender.set, if_pos hvalid.fields.2.2, hvalue]

end RoundTrip

/-! ## What a finished write leaves -/

/-- A write that returns 0 has stored its whole buffer: on another bus than the chip's it
returns an error. -/
theorem wp_framWrite_false {n : Nat} (offset : U16) (buf : Vector U8 n) (b : Board) :
    wp (framWrite offset buf)
      (fun r b' => r = false → b'.fram = writeAt b.fram offset.toNat buf n)
      (fun _ _ => True) b := by
  unfold framWrite
  rw [wp_bind, wp_nextI2c_iff]
  cases nextEvent b with
  | ok =>
      simp only [storeFram, wp_bind, wp_modify, wp_get, wp_pure]
      intro hfalse
      by_cases hbus : (useEvent b).bus = configFramI2cBus
      · rw [if_pos hbus]
        rfl
      · rw [if_neg hbus] at hfalse
        exact absurd (by simpa using hfalse) hbus
  | fail stored =>
      simp only [storeFram, wp_bind, wp_modify, wp_pure]
      exact fun h => Bool.noConfusion h
  | cut stored =>
      simp only [storeFram, wp_bind, wp_modify, wp_get, wp_throw]

theorem framWriteKeySlots_false {id : U8} {rec : Slot} {b b' : Board} (hid : id ≠ 0)
    (hrun : framWriteKeySlots id rec b = .ok false b') :
    slotA b'.fram id = rec ∧ slotB b'.fram id = rec := by
  have hA := keyOffset_toNat hid
  have hB := keyOffsetB_toNat hid
  have hspec : wp (framWriteKeySlots id rec)
      (fun r b' => r = false → slotA b'.fram id = rec ∧ slotB b'.fram id = rec)
      (fun _ _ => True) b := by
    unfold framWriteKeySlots
    refine wp_seq (wp_framWrite_false (keyOffsetB id) rec b) fun failed b₁ hfram₁ => ?_
    cases failed with
    | true => exact fun h => Bool.noConfusion h
    | false =>
        refine wp_seq (wp_framWrite_false (keyOffset id) rec b₁) fun failed b₂ hfram₂ => ?_
        cases failed with
        | true => exact fun h => Bool.noConfusion h
        | false =>
            intro _
            rw [hfram₂ rfl]
            refine ⟨readAt_writeAt_full b₁.fram _ rec, ?_⟩
            -- Slot B lies behind slot A, so the second write leaves it alone.
            rw [slotB, readAt_writeAt_apart b₁.fram rec 32 (Or.inr (by omega)), hfram₁ rfl]
            exact readAt_writeAt_full b.fram _ rec
  exact wp_ok hspec hrun rfl

theorem roundTrips {kind : ValueKind α} {render : α → String} (hrender : Renders kind render)
    {id : U8} (value : α) (seq : U32) (hid : id ≠ 0) : RoundTrips kind render id value seq where
  read d hslot := by
    rw [readsBack_iff, keyValue, hslot]
    exact framDecode_framEncode kind id value seq
  written b b' hrun := framWriteKeySlots_false hid hrun
  overlaid d name hslotA hslotB := by
    rw [overlays_iff, hslotA, hslotB]
    exact overlayValue_framEncode kind id value seq hrender name
  otherType β kind' d hne hslot := by
    rw [readsBack_iff, keyValue, hslot]
    exact framDecode_otherType kind id value seq hne
  otherId β kind' id' d hne hslot := by
    rw [readsBack_iff, keyValue, hslot]
    exact framDecode_otherId kind id value seq kind' hne

/-! ## From a reader back to the encoder -/

/-- Bytes 18 to 27, between an eight-byte value and the CRC. -/
def ZeroPadding (raw : Slot) : Prop :=
  ∀ i (_ : i < 18), 8 ≤ i → (recordPayload raw)[i] = 0

section Converse

variable {kind : ValueKind α} {id : U8} {raw : Slot}

/-- The header of a valid slot is that of a record with its sequence number. -/
theorem SlotValid.header (h : SlotValid kind id raw) :
    ∀ i (_ : i < 32) (_ : i < 10),
      raw[i] = (recordHeader id kind.vtype kind.len (recordSeq raw))[i] := by
  obtain ⟨husable, hversion, htype, hlen⟩ := h.fields
  simp only [slotBUsable, Bool.and_eq_true, beq_iff_eq] at husable
  rcases husable with ⟨⟨hmagic, hid⟩, -⟩
  have hmagicByte (i : Nat) (hi : 8 * i + 8 ≤ 16) :
      [raw[0], raw[1]].getD i 0 = byteOf framRecMagic i := by
    rw [← hmagic, recordMagic, byteOf_joinBytes _ hi]
  have hseqByte (i : Nat) (hi : 8 * i + 8 ≤ 32) :
      [raw[6], raw[7], raw[8], raw[9]].getD i 0 = byteOf (recordSeq raw) i := by
    rw [recordSeq, byteOf_joinBytes _ hi]
  intro i _ hi
  interval_cases i
  · exact hmagicByte 0 (by decide)
  · exact hmagicByte 1 (by decide)
  · exact hversion
  · exact hid
  · exact htype
  · exact hlen
  · exact hseqByte 0 (by decide)
  · exact hseqByte 1 (by decide)
  · exact hseqByte 2 (by decide)
  · exact hseqByte 3 (by decide)

/-- A slot with the body of a record and a matching CRC is that record. -/
theorem eq_framEncode_of_body {value : α} {seq : U32} (hcrc : crcOk raw = true)
    (hbody : ∀ i (_ : i < 32) (_ : i < 28), raw[i] = (recordBody kind id value seq)[i]) :
    raw = framEncode kind id value seq := by
  have hprefix : raw.toList.take 28 = (recordBody kind id value seq).toList := by
    apply List.ext_getElem
    · simp
    · intro i hi hi'
      have hi28 : i < 28 := by simpa using hi'
      simpa using hbody i (by omega) hi28
  have hstored : storedCrc raw = crc32Fram (recordBody kind id value seq).toList := by
    rw [← hprefix]
    exact (beq_iff_eq.mp hcrc).symm
  have hcrcByte (i : Nat) (hi : 8 * i + 8 ≤ 32) :
      [raw[28], raw[29], raw[30], raw[31]].getD i 0 =
        byteOf (crc32Fram (recordBody kind id value seq).toList) i := by
    rw [← hstored, storedCrc, byteOf_joinBytes _ hi]
  apply Vector.ext
  intro i hi
  by_cases hi28 : i < 28
  · rw [getElem_framEncode_body kind id value seq hi28]
    exact hbody i hi hi28
  · obtain ⟨j, rfl⟩ : ∃ j, i = 28 + j := ⟨i - 28, by omega⟩
    have hj : j < 4 := by omega
    rw [getElem_framEncode_crc kind id value seq hj]
    interval_cases j
    · exact hcrcByte 0 (by decide)
    · exact hcrcByte 1 (by decide)
    · exact hcrcByte 2 (by decide)
    · exact hcrcByte 3 (by decide)

/-- A valid slot whose payload is as the encoder lays it out is the record of the value it is
read as. -/
theorem SlotValid.eq_framEncode (h : SlotValid kind id raw)
    (hpayload : recordPayload raw = kind.put (slotValue kind raw)) :
    raw = framEncode kind id (slotValue kind raw) (recordSeq raw) := by
  have hcrc : crcOk raw = true := by
    have hcheck := h.1
    simp only [recordCheck, Bool.and_eq_true] at hcheck
    exact hcheck.2
  refine eq_framEncode_of_body hcrc fun i hslot hi => ?_
  rw [recordBody, Vector.getElem_cast]
  by_cases hheader : i < 10
  · rw [Vector.getElem_append_left hheader]
    exact SlotValid.header h i hslot hheader
  · obtain ⟨j, rfl⟩ : ∃ j, i = 10 + j := ⟨i - 10, by omega⟩
    rw [Vector.getElem_append_right (by omega) (by omega), ← hpayload]
    simp only [recordPayload, Vector.getElem_ofFn, Nat.add_sub_cancel_left]

end Converse

/-- Eight bytes joined and split again are the eight bytes. -/
theorem put_get_u64Kind {payload : Vector U8 18}
    (hzero : ∀ i (_ : i < 18), 8 ≤ i → payload[i] = 0) :
    u64Kind.put (u64Kind.get payload) = payload := by
  have hbyte (i : Nat) (hi : 8 * i + 8 ≤ 64) :
      byteOf (u64Kind.get payload) i = [payload[0], payload[1], payload[2], payload[3],
        payload[4], payload[5], payload[6], payload[7]].getD i 0 :=
    byteOf_joinBytes _ hi
  apply Vector.ext
  intro i hi
  by_cases hlow : i < 8
  · interval_cases i
    · exact hbyte 0 (by decide)
    · exact hbyte 1 (by decide)
    · exact hbyte 2 (by decide)
    · exact hbyte 3 (by decide)
    · exact hbyte 4 (by decide)
    · exact hbyte 5 (by decide)
    · exact hbyte 6 (by decide)
    · exact hbyte 7 (by decide)
  · rw [hzero i hi (by omega)]
    interval_cases i <;> rfl

theorem framEncodeU64_of_framDecode {id : U8} {raw : Slot} {value : U64}
    (hread : framDecode u64Kind id raw = some value) (hversion : recordVersion raw = 1)
    (hzero : ZeroPadding raw) : raw = framEncodeU64 id value (recordSeq raw) := by
  unfold framDecode at hread
  split at hread
  · rename_i hcheck
    have hvalid : SlotValid u64Kind id raw := ⟨hcheck, hversion⟩
    have hvalue : slotValue u64Kind raw = value := Option.some.inj hread
    rw [← hvalue]
    exact SlotValid.eq_framEncode hvalid (put_get_u64Kind hzero).symm
  · cases hread

/-- Every record is read back as what was encoded, by the readers it is meant for and by no
other, and `fram_read_u64` accepts nothing but encoded records among the slots of format
version 1 whose padding is zero. -/
theorem record_codec {id : U8} (hid : id ≠ 0) (seq : U32) :
    (∀ value, RoundTrips boolKind boolText id value seq) ∧
    (∀ value, RoundTrips u64Kind decimal id value seq) ∧
    ∀ (d : Durable) (value : U64), ReadsBack u64Kind id d (some value) →
      recordVersion (slotA d.fram id) = 1 → ZeroPadding (slotA d.fram id) →
      ∃ seq', slotA d.fram id = framEncodeU64 id value seq' := by
  refine ⟨fun value => roundTrips renders_bool value seq hid,
    fun value => roundTrips renders_u64 value seq hid, fun d value hread hversion hzero => ?_⟩
  rw [readsBack_iff, keyValue] at hread
  exact ⟨_, framEncodeU64_of_framDecode hread hversion hzero⟩

/-- A board whose count of boot failures is five, with sequence number 7. -/
def fiveFails : Durable :=
  ⟨chipWith framKeyTotalBootFails (framEncodeU64 framKeyTotalBootFails 5 7),
    fun _ _ => 0, fun _ _ => 0⟩

theorem record_codec_fiveFails :
    RoundTrips boolKind boolText framKeyTotalBootFails true 7 ∧
    RoundTrips u64Kind decimal framKeyTotalBootFails 5 7 ∧
    ReadsBack u64Kind framKeyTotalBootFails fiveFails (some 5) ∧
    ∃ seq, slotA fiveFails.fram framKeyTotalBootFails =
      framEncodeU64 framKeyTotalBootFails 5 seq := by
  have hid : framKeyTotalBootFails ≠ 0 := by decide
  obtain ⟨hbool, hu64, hconverse⟩ := record_codec hid 7
  have hslot : slotA fiveFails.fram framKeyTotalBootFails =
      framEncode u64Kind framKeyTotalBootFails 5 7 :=
    readAt_writeAt_full _ _ _
  have hread : ReadsBack u64Kind framKeyTotalBootFails fiveFails (some 5) :=
    (hu64 5).read fiveFails hslot
  refine ⟨hbool true, hu64 5, hread, hconverse fiveFails 5 hread ?_ ?_⟩
  · rw [hslot]
    exact (slotValid_framEncode u64Kind framKeyTotalBootFails 5 7).2
  · rw [ZeroPadding, hslot, recordPayload_framEncode]
    decide

end RadsatLinux.UBoot.RecordCodec
