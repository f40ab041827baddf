import Mathlib
import RadsatLinux.Library.LittleEndian

/-!
# FRAM records

The 32-byte records of `common/fram_mission.c`: a header (magic, format version, key id,
value type, length, sequence number), the value, zero padding, and a CRC over the first
28 bytes.  `framEncode` builds a record and `framDecode` is the check and extraction that
`fram_read_bool` and `fram_read_u64` share; `ValueKind` holds what differs between them.
-/

namespace RadsatLinux.Fram.Record

open RadsatLinux.Library.LittleEndian

abbrev U8 := BitVec 8
abbrev U16 := BitVec 16
abbrev U32 := BitVec 32
abbrev U64 := BitVec 64

/-- `FRAM_REC_MAGIC` -/
def framRecMagic : U16 := 0x4652

/-- The `FRAM_RECORD_SIZE` bytes of one slot. -/
abbrev Slot := Vector U8 32

/-! ## Checksum -/

/-- The body of the inner loop of `crc32_fram`. -/
def crcBit (crc : U32) : U32 :=
  if crc &&& 1 = 1 then (crc >>> 1) ^^^ 0xedb88320 else crc >>> 1

def crcByte (crc : U32) (byte : U8) : U32 :=
  crcBit^[8] (crc ^^^ byte.setWidth 32)

def crc32Fram (data : List U8) : U32 :=
  ~~~ (data.foldl crcByte 0xffffffff)

/-- The CRC in the last four bytes of a record. -/
def storedCrc (raw : Slot) : U32 :=
  joinBytes 32 [raw[28], raw[29], raw[30], raw[31]]

def crcOk (raw : Slot) : Bool :=
  crc32Fram (raw.toList.take 28) == storedCrc raw

/-! ## Fields -/

def recordMagic (raw : Slot) : U16 := joinBytes 16 [raw[0], raw[1]]

def recordVersion (raw : Slot) : U8 := raw[2]

def recordId (raw : Slot) : U8 := raw[3]

def recordType (raw : Slot) : U8 := raw[4]

def recordLen (raw : Slot) : U8 := raw[5]

def recordSeq (raw : Slot) : U32 := joinBytes 32 [raw[6], raw[7], raw[8], raw[9]]

/-- Bytes 10 to 27: the value and its padding. -/
def recordPayload (raw : Slot) : Vector U8 18 :=
  Vector.ofFn fun i => raw[10 + i.val]

/-- The fields that tell one type of value from another, and how a value lies in the
payload of a record. -/
structure ValueKind (α : Type) where
  vtype : U8
  len : U8
  put : α → Vector U8 18
  get : Vector U8 18 → α
  get_put : ∀ value, get (put value) = value

/-- Type 1: one byte, 0 or 1. -/
def boolKind : ValueKind Bool where
  vtype := 1
  len := 1
  put value := #v[if value then 1 else 0, 0, 0, 0, 0, 0, 0, 0, 0, 0, 0, 0, 0, 0, 0, 0, 0, 0]
  get payload := payload[0] != 0
  get_put value := by cases value <;> decide

/-- Type 3: eight bytes, least significant first. -/
def u64Kind : ValueKind U64 where
  vtype := 3
  len := 8
  put value := #v[byteOf value 0, byteOf value 1, byteOf value 2, byteOf value 3,
    byteOf value 4, byteOf value 5, byteOf value 6, byteOf value 7,
    0, 0, 0, 0, 0, 0, 0, 0, 0, 0]
  get payload := joinBytes 64 [payload[0], payload[1], payload[2], payload[3],
    payload[4], payload[5], payload[6], payload[7]]
  get_put value := joinBytes_byteOf (n := 8) value (by decide)

variable {α : Type}

/-! ## Encoding -/

def recordHeader (id vtype len : U8) (seq : U32) : Vector U8 10 :=
  #v[byteOf framRecMagic 0, byteOf framRecMagic 1, 1, id, vtype, len,
    byteOf seq 0, byteOf seq 1, byteOf seq 2, byteOf seq 3]

def crcBytes (crc : U32) : Vector U8 4 :=
  #v[byteOf crc 0, byteOf crc 1, byteOf crc 2, byteOf crc 3]

def recordBody (kind : ValueKind α) (id : U8) (value : α) (seq : U32) : Vector U8 28 :=
  (recordHeader id kind.vtype kind.len seq ++ kind.put value : Vector U8 (10 + 18)).cast rfl

def framEncode (kind : ValueKind α) (id : U8) (value : α) (seq : U32) : Slot :=
  let body := recordBody kind id value seq
  (body ++ crcBytes (crc32Fram body.toList) : Vector U8 (28 + 4)).cast rfl

def framEncodeBool (id : U8) (value : Bool) (seq : U32) : Slot :=
  framEncode boolKind id value seq

def framEncodeU64 (id : U8) (value : U64) (seq : U32) : Slot :=
  framEncode u64Kind id value seq

/-! ## Decoding -/

/-- The test `fram_read_bool` and `fram_read_u64` make before they use a record. -/
def recordCheck (kind : ValueKind α) (id : U8) (raw : Slot) : Bool :=
  recordMagic raw == framRecMagic && recordId raw == id && recordType raw == kind.vtype &&
    recordLen raw == kind.len && crcOk raw

def framDecode (kind : ValueKind α) (id : U8) (raw : Slot) : Option α :=
  if recordCheck kind id raw then some (kind.get (recordPayload raw)) else none

theorem framDecode_of_not_crcOk (kind : ValueKind α) (id : U8) {raw : Slot}
    (hcrc : crcOk raw = false) : framDecode kind id raw = none := by
  simp [framDecode, recordCheck, hcrc]

/-! ## The decoder reads back what the encoder wrote -/

section RoundTrip

variable (kind : ValueKind α) (id : U8) (value : α) (seq : U32)

theorem getElem_framEncode_body {i : Nat} (hi : i < 28) :
    (framEncode kind id value seq)[i] = (recordBody kind id value seq)[i] := by
  rw [framEncode, Vector.getElem_cast, Vector.getElem_append_left hi]

theorem getElem_framEncode_crc {i : Nat} (hi : i < 4) :
    (framEncode kind id value seq)[28 + i] =
      (crcBytes (crc32Fram (recordBody kind id value seq).toList))[i] := by
  rw [framEncode, Vector.getElem_cast, Vector.getElem_append_right (by omega) (by omega)]
  simp only [Nat.add_sub_cancel_left]

theorem getElem_framEncode_header {i : Nat} (hi : i < 10) :
    (framEncode kind id value seq)[i] = (recordHeader id kind.vtype kind.len seq)[i] := by
  rw [getElem_framEncode_body kind id value seq (by omega), recordBody, Vector.getElem_cast,
    Vector.getElem_append_left hi]

theorem crcOk_framEncode : crcOk (framEncode kind id value seq) = true := by
  have hbody : (framEncode kind id value seq).toList.take 28 =
      (recordBody kind id value seq).toList := by
    rw [framEncode, Vector.toList_cast, Vector.toList_append]
    exact List.take_left' Vector.length_toList
  have hcrc : storedCrc (framEncode kind id value seq) =
      crc32Fram (recordBody kind id value seq).toList := by
    have h0 := getElem_framEncode_crc kind id value seq (i := 0) (by decide)
    have h1 := getElem_framEncode_crc kind id value seq (i := 1) (by decide)
    have h2 := getElem_framEncode_crc kind id value seq (i := 2) (by decide)
    have h3 := getElem_framEncode_crc kind id value seq (i := 3) (by decide)
    rw [storedCrc, h0, h1, h2, h3]
    exact joinBytes_byteOf (n := 4) _ (by decide)
  rw [crcOk, hbody, hcrc, beq_self_eq_true]

theorem recordMagic_framEncode : recordMagic (framEncode kind id value seq) = framRecMagic := by
  rw [recordMagic, getElem_framEncode_header kind id value seq (i := 0) (by decide),
    getElem_framEncode_header kind id value seq (i := 1) (by decide)]
  exact joinBytes_byteOf (n := 2) framRecMagic (by decide)

theorem recordPayload_framEncode :
    recordPayload (framEncode kind id value seq) = kind.put value := by
  apply Vector.ext
  intro i hi
  have hbody := getElem_framEncode_body kind id value seq (i := 10 + i) (by omega)
  simp only [recordPayload, Vector.getElem_ofFn]
  rw [hbody, recordBody, Vector.getElem_cast, Vector.getElem_append_right (by omega) (by omega)]
  simp only [Nat.add_sub_cancel_left]

theorem recordCheck_framEncode : recordCheck kind id (framEncode kind id value seq) = true := by
  have hid : recordId (framEncode kind id value seq) = id :=
    getElem_framEncode_header kind id value seq (i := 3) (by decide)
  have hvtype : recordType (framEncode kind id value seq) = kind.vtype :=
    getElem_framEncode_header kind id value seq (i := 4) (by decide)
  have hlen : recordLen (framEncode kind id value seq) = kind.len :=
    getElem_framEncode_header kind id value seq (i := 5) (by decide)
  rw [recordCheck, recordMagic_framEncode, crcOk_framEncode, hid, hvtype, hlen]
  simp

/-- A record decodes to the value it was encoded from, whatever its sequence number. -/
theorem framDecode_framEncode :
    framDecode kind id (framEncode kind id value seq) = some value := by
  rw [framDecode, if_pos (recordCheck_framEncode kind id value seq),
    recordPayload_framEncode, kind.get_put]

/-- A slot with the body of a record decodes to the value of that record or, when its
checksum is another one, not at all. -/
theorem eq_of_framDecode_body {raw : Slot} {value' : α}
    (hbody : ∀ i (hi : i < 28), raw[i] = (framEncode kind id value seq)[i])
    (hread : framDecode kind id raw = some value') : value' = value := by
  have hpayload : recordPayload raw = kind.put value := by
    rw [← recordPayload_framEncode kind id value seq]
    apply Vector.ext
    intro i hi
    simp only [recordPayload, Vector.getElem_ofFn]
    exact hbody (10 + i) (by omega)
  unfold framDecode at hread
  split at hread
  · rw [hpayload, kind.get_put] at hread
    exact (Option.some.inj hread).symm
  · cases hread

end RoundTrip

example : framDecode u64Kind 40 (framEncodeU64 40 0x1800 7) = some 0x1800 := by
  decide +kernel

end RadsatLinux.Fram.Record
