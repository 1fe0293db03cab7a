import OpsSysd.Library.CString

/-! The FRU EEPROM parser, over `fru_eeprom_t` as the bytes of its declaration.
A `char *` field holds the block it points to: every block is freshly allocated
and written once, so the block's contents identify the pointer. -/
namespace OpsSysd.Fru

open CLib

/-- One byte of memory, or one of the eight bytes of a pointer. -/
inductive Cell where
  | byte (value : UInt8)
  | pointer (block : List UInt8) (part : Nat)
  deriving DecidableEq

/-- Memory from the start of a `fru_eeprom_t` on, including what lies beyond it. -/
abbrev Memory := Nat → Cell

def Memory.store (memory : Memory) (offset : Nat) (cells : List Cell) : Memory := fun i =>
  if offset ≤ i then (cells[i - offset]?).getD (memory i) else memory i

/-- Cells outside the stored range stay. -/
theorem Memory.store_outside (memory : Memory) {offset i : Nat} {cells : List Cell}
    (h : i < offset ∨ offset + cells.length ≤ i) : memory.store offset cells i = memory i := by
  unfold Memory.store
  split
  · rw [List.getElem?_eq_none (by omega), Option.getD_none]
  · rfl

/-- Those inside it are the ones stored. -/
theorem Memory.store_inside (memory : Memory) {offset i : Nat} {cells : List Cell}
    (h : i < cells.length) : memory.store offset cells (offset + i) = cells[i] := by
  simp [Memory.store, h]

/-- Two stores side by side are one. -/
theorem Memory.store_append (memory : Memory) (offset : Nat) (first second : List Cell) :
    (memory.store offset first).store (offset + first.length) second =
      memory.store offset (first ++ second) := by
  funext i
  rcases Nat.lt_or_ge i offset with hBefore | hFrom
  · rw [Memory.store_outside _ (.inl (by omega)), Memory.store_outside _ (.inl hBefore),
      Memory.store_outside _ (.inl hBefore)]
  obtain ⟨j, rfl⟩ := Nat.exists_eq_add_of_le hFrom
  rcases Nat.lt_or_ge j first.length with hFirst | hSecond
  · rw [Memory.store_outside _ (.inl (by omega)), Memory.store_inside _ hFirst,
      Memory.store_inside _ (by simp; omega), List.getElem_append_left hFirst]
  · simp [Memory.store, Nat.add_sub_add_left, hSecond, List.getElem?_append_right]

/-- A store over the same cells is the one that counts. -/
theorem Memory.store_store (memory : Memory) (offset : Nat) {first second : List Cell}
    (h : first.length = second.length) :
    (memory.store offset first).store offset second = memory.store offset second := by
  funext i
  rcases Nat.lt_or_ge i offset with hBefore | hFrom
  · simp only [Memory.store_outside _ (.inl hBefore)]
  obtain ⟨j, rfl⟩ := Nat.exists_eq_add_of_le hFrom
  rcases Nat.lt_or_ge j second.length with hInside | hAfter
  · rw [Memory.store_inside _ hInside, Memory.store_inside _ hInside]
  · have hBehind : offset + second.length ≤ offset + j := Nat.add_le_add_left hAfter offset
    rw [Memory.store_outside _ (.inr hBehind), Memory.store_outside _ (.inr hBehind),
      Memory.store_outside _ (.inr (h ▸ hBehind))]

/-- The members of `fru_eeprom_t`, in declaration order. -/
inductive Field where
  | countryCode | deviceVersion | diagVersion | labelRevision | baseMacAddress
  | manufactureDate | manufacturer | numMacs | onieVersion | partNumber
  | platformName | productName | serialNumber | serviceTag | vendor
  deriving DecidableEq

/-- `FRU_COUNTRY_CODE_LEN` and the other fixed lengths of the header file. -/
def countryCodeLen : Nat := 2
def deviceVersionLen : Nat := 1
def baseMacAddressLen : Nat := 6
def manufactureDateLen : Nat := 19
def numMacsLen : Nat := 2
def pointerSize : Nat := 8

/-- Offsets of the declaration on a machine with eight-byte aligned pointers. -/
def Field.offset : Field → Nat
  | .countryCode => 0
  | .deviceVersion => 3
  | .diagVersion => 8
  | .labelRevision => 16
  | .baseMacAddress => 24
  | .manufactureDate => 30
  | .manufacturer => 56
  | .numMacs => 64
  | .onieVersion => 72
  | .partNumber => 80
  | .platformName => 88
  | .productName => 96
  | .serialNumber => 104
  | .serviceTag => 112
  | .vendor => 120

def Field.size : Field → Nat
  | .countryCode => countryCodeLen + 1
  | .deviceVersion => deviceVersionLen
  | .baseMacAddress => baseMacAddressLen
  | .manufactureDate => manufactureDateLen + 1
  | .numMacs => numMacsLen
  | _ => pointerSize

/-- What the switch on a TLV's code distinguishes. -/
inductive TlvType where
  | field (target : Field)
  | vendorExtension
  | crc
  deriving DecidableEq

theorem TlvType.field_ne_crc (target : Field) : TlvType.field target ≠ .crc := by simp

def TlvType.code : TlvType → UInt8
  | .field .productName => 0x21
  | .field .partNumber => 0x22
  | .field .serialNumber => 0x23
  | .field .baseMacAddress => 0x24
  | .field .manufactureDate => 0x25
  | .field .deviceVersion => 0x26
  | .field .labelRevision => 0x27
  | .field .platformName => 0x28
  | .field .onieVersion => 0x29
  | .field .numMacs => 0x2a
  | .field .manufacturer => 0x2b
  | .field .countryCode => 0x2c
  | .field .vendor => 0x2d
  | .field .diagVersion => 0x2e
  | .field .serviceTag => 0x2f
  | .vendorExtension => 0xfd
  | .crc => 0xfe

/-- The case labels of the switch; `none` is its `default`. -/
def TlvType.ofCode (code : UInt8) : Option TlvType :=
  [.field .productName, .field .partNumber, .field .serialNumber, .field .numMacs,
    .field .baseMacAddress, .field .manufactureDate, .field .deviceVersion,
    .field .labelRevision, .field .platformName, .field .onieVersion, .field .manufacturer,
    .field .countryCode, .field .vendor, .field .diagVersion, .field .serviceTag,
    .vendorExtension, .crc].find? fun kind => kind.code = code

/-- The code of a type stands for it. -/
@[simp] theorem TlvType.ofCode_code (kind : TlvType) : TlvType.ofCode kind.code = some kind := by
  cases kind with
  | field target => cases target <;> rfl
  | vendorExtension => rfl
  | crc => rfl

/-- `SYSD_MALLOC` of one byte more than the length, `strncpy`, terminator. -/
def mallocBlock (value : Nat → UInt8) (length : Nat) : List UInt8 :=
  strncpy value length ++ [0]

def pointerCells (block : List UInt8) : List Cell :=
  (List.range pointerSize).map (Cell.pointer block)

/-- `(high << 8) | low`. -/
def beWord (high low : UInt8) : Nat := high.toNat <<< 8 ||| low.toNat

theorem beWord_eq (high low : UInt8) : beWord high low = high.toNat * 256 + low.toNat := by
  have hLow : low.toNat < 2 ^ 8 := low.toNat_lt
  rw [beWord, ← Nat.shiftLeft_add_eq_or_of_lt hLow, Nat.shiftLeft_eq]

/-- The assignment made for each code. `value` is the memory the value is read
from, and `length` the length byte of the TLV. -/
def storeField (target : Field) (value : Nat → UInt8) (length : Nat) (fru : Memory) : Memory :=
  match target with
  | .numMacs =>
      let number := beWord (value 0) (value 1)
      fru.store target.offset [.byte (UInt8.ofNat (number % 256)), .byte (UInt8.ofNat (number / 256))]
  | .baseMacAddress =>
      fru.store target.offset ((List.range baseMacAddressLen).map fun i => .byte (value i))
  | .deviceVersion => fru.store target.offset [.byte (value 0)]
  -- The two arrays are copied with one byte more than the TLV holds, and the
  -- terminator then goes to the declared length.
  | .manufactureDate | .countryCode =>
      (fru.store target.offset ((strncpy value (length + 1)).map .byte)).store
        (target.offset + length) [.byte 0]
  | _ => fru.store target.offset (pointerCells (mallocBlock value length))

/-- On a little-endian machine the two bytes end up swapped. -/
theorem storeField_numMacs (value : Nat → UInt8) (length : Nat) (fru : Memory) :
    storeField .numMacs value length fru =
      fru.store (Field.offset .numMacs) [.byte (value 1), .byte (value 0)] := by
  have h0 := (value 0).toNat_lt
  have h1 := (value 1).toNat_lt
  have hLow : ((value 0).toNat * 256 + (value 1).toNat) % 256 = (value 1).toNat := by omega
  have hHigh : ((value 0).toNat * 256 + (value 1).toNat) / 256 = (value 0).toNat := by omega
  simp only [storeField, beWord_eq, hLow, hHigh, UInt8.ofNat_toNat]

/-- The checksum a CRC TLV carries, most significant byte first. -/
def foundCrc (value : Nat → UInt8) : UInt32 :=
  UInt32.ofNat ((value 0).toNat <<< 24 ||| (value 1).toNat <<< 16 ||| (value 2).toNat <<< 8 |||
    (value 3).toNat)

/-- The checksum is big-endian. -/
theorem foundCrc_eq (value : Nat → UInt8) :
    foundCrc value = UInt32.ofNat (((((value 0).toNat * 256 + (value 1).toNat) * 256 +
      (value 2).toNat) * 256) + (value 3).toNat) := by
  have h1 := (value 1).toNat_lt
  have h2 := (value 2).toNat_lt
  have h3 := (value 3).toNat_lt
  have hLow : (value 2).toNat <<< 8 + (value 3).toNat < 2 ^ 16 := by
    rw [Nat.shiftLeft_eq]
    omega
  have hMiddle : (value 1).toNat <<< 16 + ((value 2).toNat <<< 8 + (value 3).toNat) < 2 ^ 24 := by
    rw [Nat.shiftLeft_eq]
    omega
  refine congrArg UInt32.ofNat ?_
  rw [Nat.or_assoc, Nat.or_assoc, ← Nat.shiftLeft_add_eq_or_of_lt h3,
    ← Nat.shiftLeft_add_eq_or_of_lt hLow, ← Nat.shiftLeft_add_eq_or_of_lt hMiddle]
  simp only [Nat.shiftLeft_eq]
  omega

/-- `sizeof(fru_header_t)`. -/
def headerSize : Nat := 11

/-- `header.total_length[0] << 8 | header.total_length[1]`. -/
def totalLength (header : Nat → UInt8) : Nat := beWord (header 9) (header 10)

/-- The header has 16 bits for the length. -/
theorem totalLength_lt (header : Nat → UInt8) : totalLength header < 2 ^ 16 := by
  have hHigh := (header 9).toNat_lt
  have hLow := (header 10).toNat_lt
  rw [totalLength, beWord_eq]
  omega

/-- The terminator overwrites the one byte copied beyond the TLV's length. -/
theorem store_terminated (fru : Memory) (offset : Nat) (value : Nat → UInt8) (length : Nat) :
    (fru.store offset ((strncpy value (length + 1)).map .byte)).store (offset + length) [.byte 0] =
      fru.store offset ((strncpy value length ++ [0]).map .byte) := by
  have hNe : strncpy value (length + 1) ≠ [] := by
    rw [← List.length_pos_iff, strncpy_length]
    exact Nat.succ_pos length
  have hLast := List.dropLast_concat_getLast hNe
  rw [List.dropLast_eq_take, strncpy_length, Nat.add_sub_cancel, strncpy_succ_take] at hLast
  have hLength : ((strncpy value length).map Cell.byte).length = length := by
    rw [List.length_map, strncpy_length]
  rw [← hLast, List.map_append, List.map_append, ← Memory.store_append, ← Memory.store_append,
    hLength]
  exact Memory.store_store _ _ rfl

/-- How `sysd_process_eeprom` ends: it returns true or false, or `crc32` reads
from behind the block that holds the image. -/
inductive Verdict where
  | accepted
  | rejected
  | overread
  deriving DecidableEq

section Parser

variable (crc32 : List UInt8 → UInt32) (buf : Nat → UInt8) (len : Nat)

/-- The bytes that `crc32` is asked for: `calc_crc` passes its length on as an
unsigned number, so a negative one becomes very large. -/
def crcExtent (crcLen : Int) : Nat := (crcLen % 2 ^ 32).toNat

/-- `calc_crc(buf, crc_len)`, unless that is more than the block holds, which is
one byte longer than the header and the TLV area. -/
def calcCrc (crcLen : Int) : Option UInt32 :=
  if crcExtent crcLen ≤ len + headerSize + 1 then
    some (crc32 ((List.range (crcExtent crcLen)).map buf))
  else none

/-- Code, length and value of the TLV at an index into the TLV area. -/
def tlvCode (idx : Nat) : UInt8 := buf (headerSize + idx)
def tlvLength (idx : Nat) : Nat := (buf (headerSize + idx + 1)).toNat
def tlvValue (idx : Nat) : Nat → UInt8 := fun i => buf (headerSize + idx + 2 + i)

/-- The extent `len + sizeof(fru_header_t) - tlv_len` of the checksum. -/
def crcLen (idx : Nat) : Int := (len : Int) + headerSize - tlvLength buf idx

def crcMatches (idx : Nat) : Bool :=
  calcCrc crc32 buf len (crcLen buf len idx) = some (foundCrc (tlvValue buf idx))

/-- The switch of `sysd_process_eeprom`. -/
def switchTlv (idx : Nat) (fru : Memory) : Except Verdict Memory :=
  match TlvType.ofCode (tlvCode buf idx) with
  | none => .error .rejected
  | some (.field target) => .ok (storeField target (tlvValue buf idx) (tlvLength buf idx) fru)
  | some .vendorExtension => .ok fru
  | some .crc =>
      match calcCrc crc32 buf len (crcLen buf len idx) with
      | none => .error .overread
      | some chksum => if chksum ≠ foundCrc (tlvValue buf idx) then .error .rejected else .ok fru

/-- `fru_tlv->length + sizeof(fru_tlv->length) + sizeof(fru_tlv->code)`. -/
def skip (idx : Nat) : Nat := tlvLength buf idx + 2

/-- The loop over the TLV area: its verdict, the index it stopped at, and the
record it leaves. -/
def processTlvs (idx : Nat) (fru : Memory) : Verdict × Nat × Memory :=
  if idx < len then
    match switchTlv crc32 buf len idx fru with
    | .error verdict => (verdict, idx, fru)
    | .ok fru' => processTlvs (idx + skip buf idx) fru'
  else (.accepted, idx, fru)
termination_by len - idx
decreasing_by simp [skip]; omega

def sysdProcessEeprom (fru : Memory) : Verdict × Memory :=
  let outcome := processTlvs crc32 buf len 0 fru
  (outcome.1, outcome.2.2)

end Parser
end OpsSysd.Fru
