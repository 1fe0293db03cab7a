import OpsSysd.Fru.Record

/-! The other source of the FRU record, the hardware description's `fru.yaml`, and
the function that chooses between the two. -/
namespace OpsSysd.Fru

open CLib

/-- `YamlFruInfo`. -/
structure YamlFruInfo where
  countryCode : CString
  deviceVersion : UInt8
  diagVersion : CString
  labelRevision : CString
  baseMacAddress : CString
  manufactureDate : CString
  manufacturer : CString
  numMacs : Int
  onieVersion : CString
  partNumber : CString
  platformName : CString
  productName : CString
  serialNumber : CString
  serviceTag : CString
  vendor : CString

section Scan

def isSpace (byte : UInt8) : Bool := byte = 32 || (9 ≤ byte && byte ≤ 13)

/-- The value of a hexadecimal digit. -/
def hexValue (byte : UInt8) : Option Nat :=
  if 48 ≤ byte ∧ byte ≤ 57 then some (byte.toNat - 48)
  else if 97 ≤ byte ∧ byte ≤ 102 then some (byte.toNat - 87)
  else if 65 ≤ byte ∧ byte ≤ 70 then some (byte.toNat - 55)
  else none

def scanSign : List UInt8 → Bool × List UInt8
  | 43 :: text => (false, text)
  | 45 :: text => (true, text)
  | text => (false, text)

def scanPrefix : List UInt8 → List UInt8
  | 48 :: 120 :: text => text
  | 48 :: 88 :: text => text
  | text => text

/-- The digits at the start of a text. -/
def scanDigits : List UInt8 → List Nat × List UInt8
  | [] => ([], [])
  | byte :: text => match hexValue byte with
      | none => ([], byte :: text)
      | some digit => (digit :: (scanDigits text).1, (scanDigits text).2)

/-- The `unsigned int` that `%x` stores, and the text after it. -/
def scanHex (text : List UInt8) : Option (Nat × List UInt8) :=
  let signed := scanSign (text.dropWhile isSpace)
  let scanned := scanDigits (scanPrefix signed.2)
  if scanned.1 = [] then none
  else
    let value := scanned.1.foldl (fun value digit => value * 16 + digit) 0
    let word := if 2 ^ 64 ≤ value then 2 ^ 32 - 1
      else if signed.1 then (2 ^ 64 - value) % 2 ^ 32 else value % 2 ^ 32
    some (word, scanned.2)

/-- The conversions of `sscanf` with `%x`, a colon between any two of them. -/
def sscanfHex : Nat → List UInt8 → List Nat
  | 0, _ => []
  | count + 1, text => match scanHex text with
      | none => []
      | some (word, 58 :: rest) => word :: sscanfHex count rest
      | some (word, _) => [word]

end Scan

/-- A pointer to a string of the description. -/
def assignString (target : Field) (text : CString) (fru : Memory) : Memory :=
  fru.store target.offset (pointerCells (text.bytes ++ [0]))

/-- `strncpy` into an array, and the terminator after the declared length. -/
def copyString (target : Field) (length : Nat) (text : CString) (fru : Memory) : Memory :=
  (fru.store target.offset ((strncpy (fun i => text.bytes.getD i 0) length).map .byte)).store
    (target.offset + length) [.byte 0]

/-- An `unsigned int`, little-endian. -/
def wordCells (word : Nat) : List Cell :=
  [.byte (UInt8.ofNat word), .byte (UInt8.ofNat (word / 2 ^ 8)), .byte (UInt8.ofNat (word / 2 ^ 16)),
    .byte (UInt8.ofNat (word / 2 ^ 24))]

/-- Each conversion stores four bytes, and the next one starts at the second. -/
def storeWords (offset : Nat) : List Nat → Memory → Memory
  | [], fru => fru
  | word :: words, fru => storeWords (offset + 1) words (fru.store offset (wordCells word))

def assignByte (offset : Nat) (value : Nat) (fru : Memory) : Memory :=
  fru.store offset [.byte (UInt8.ofNat value)]

/-- An assignment to a `uint16_t`. -/
def assignNumber (target : Field) (number : Int) (fru : Memory) : Memory :=
  let word := (number % 2 ^ 16).toNat
  fru.store target.offset [.byte (UInt8.ofNat (word % 256)), .byte (UInt8.ofNat (word / 256))]

section Assignments

variable {target other : Field} {fru : Memory}

/-- Storing inside one field leaves another as it was. -/
theorem read_store_ne (h : target ≠ other) {offset : Nat} {cells : List Cell}
    (hFrom : other.offset ≤ offset) (hTo : offset + cells.length ≤ other.offset + other.size) :
    target.read (fru.store offset cells) = target.read fru := by
  refine Field.read_congr fun i owns => Memory.store_outside fru ?_
  have hNot : ¬ other.Owns i := Field.not_owns_of_ne h.symm owns
  rw [Field.Owns] at hNot
  omega

/-- A string that is assigned reads back. -/
theorem read_assignString (h : target.size = pointerSize) (text : CString) :
    target.read (assignString target text fru) = some (.text text) := by
  have hBlock := Memory.blockAt_store fru target.offset (text.bytes ++ [0])
  have hCut : CString.cut (text.bytes ++ [0]) = text := by
    rw [CString.cut_append_nul, CString.cut_bytes_self]
  cases target with
  | countryCode | deviceVersion | baseMacAddress | manufactureDate | numMacs => exact nomatch h
  | _ =>
      simp only [Field.read, assignString, hBlock, Option.map_some, hCut]

theorem read_assignString_ne (h : target ≠ other) (hSize : other.size = pointerSize) (text : CString) :
    target.read (assignString other text fru) = target.read fru :=
  read_store_ne h (Nat.le_refl _) (by simp [pointerCells, hSize])

theorem copyString_eq (target : Field) (length : Nat) (text : CString) (fru : Memory) :
    copyString target length text fru = fru.store target.offset
      ((strncpy (fun i => text.bytes.getD i 0) length ++ [0]).map .byte) := by
  have hStores := Memory.store_append fru target.offset
    ((strncpy (fun i => text.bytes.getD i 0) length).map .byte) [.byte 0]
  rw [List.length_map, strncpy_length] at hStores
  rw [copyString, hStores, List.map_append]
  rfl

/-- A string that fits is copied whole. -/
theorem read_copyString (h : target = .countryCode ∨ target = .manufactureDate) {length : Nat}
    (hSize : target.size = length + 1) {text : CString} (hFits : text.length ≤ length) :
    target.read (copyString target length text fru) = some (.text text) := by
  have hCells : strncpy (fun i => text.bytes.getD i 0) length ++ [0] =
      text.bytes ++ 0 :: List.replicate (length - text.length) 0 := by
    rw [strncpy_cstring text hFits, List.append_assoc]
    exact congrArg _ (List.replicate_succ' ..).symm
  have hStored : ∀ i (hi : i < (text.bytes ++ 0 :: List.replicate (length - text.length) 0).length),
      copyString target length text fru (target.offset + i) = .byte
        (text.bytes ++ 0 :: List.replicate (length - text.length) 0)[i] := fun i hi => by
    rw [copyString_eq, hCells, Memory.store_inside _ (by rwa [List.length_map]), List.getElem_map]
  obtain ⟨found, hFound, hCut⟩ := @Memory.textAt_of_bytes (copyString target length text fru)
    text.bytes target.size target.offset
    (fun i hi => by rw [hStored i (by simp; omega), List.getElem_append_left hi])
    (by rw [hStored text.bytes.length (by simp)]; simp)
    (by rw [hSize]; exact Nat.lt_succ_of_le hFits)
  rw [CString.cut_bytes_self] at hCut
  rcases h with rfl | rfl <;>
    rw [Field.read, hFound, Option.map_some, hCut]

/-- A longer text is cut to the declared length. -/
theorem copyString_take (target : Field) (length : Nat) (text : CString) (fru : Memory) :
    copyString target length text fru = copyString target length (text.take length) fru := by
  have hBytes : strncpy (fun i => text.bytes.getD i 0) length =
      strncpy (fun i => (text.take length).bytes.getD i 0) length := by
    apply strncpy_congr
    intro i hi
    simp [List.getD_eq_getElem?_getD, hi]
  rw [copyString_eq, copyString_eq, hBytes]

/-- One that does not is cut. -/
theorem read_copyString_take (h : target = .countryCode ∨ target = .manufactureDate) {length : Nat}
    (hSize : target.size = length + 1) (text : CString) :
    target.read (copyString target length text fru) = some (.text (text.take length)) := by
  rw [copyString_take]
  apply read_copyString h hSize
  rw [CString.length_take]
  exact Nat.min_le_left _ _

theorem read_copyString_ne (h : target ≠ other) {length : Nat} (hSize : other.size = length + 1)
    (text : CString) : target.read (copyString other length text fru) = target.read fru := by
  rw [copyString_eq]
  exact read_store_ne h (Nat.le_refl _) (by simp [hSize])

/-- A number that is assigned reads back. -/
theorem read_assignNumber (number : UInt16) :
    Field.read .numMacs (assignNumber .numMacs number.toNat fru) = some (.number number.toNat) := by
  have hNumber := number.toNat_lt
  have hWord : ((number.toNat : Int) % 2 ^ 16).toNat = number.toNat := by omega
  have hBytes := Memory.bytesAt_store fru (Field.offset .numMacs)
    [UInt8.ofNat (number.toNat % 256), UInt8.ofNat (number.toNat / 256)]
  have hStored : assignNumber .numMacs number.toNat fru = fru.store (Field.offset .numMacs)
      ([UInt8.ofNat (number.toNat % 256), UInt8.ofNat (number.toNat / 256)].map .byte) := by
    simp only [assignNumber, hWord, List.map_cons, List.map_nil]
  have hRead : (assignNumber .numMacs number.toNat fru).bytesAt (Field.size .numMacs)
      (Field.offset .numMacs) = some [UInt8.ofNat (number.toNat % 256),
        UInt8.ofNat (number.toNat / 256)] := by
    rw [hStored]
    exact hBytes
  have hHalf : number.toNat % 256 < 2 ^ 8 ∧ number.toNat / 256 < 2 ^ 8 := by omega
  have hLow : (UInt8.ofNat (number.toNat % 256)).toNat = number.toNat % 256 :=
    UInt8.toNat_ofNat_of_lt' hHalf.1
  have hHigh : (UInt8.ofNat (number.toNat / 256)).toNat = number.toNat / 256 :=
    UInt8.toNat_ofNat_of_lt' hHalf.2
  rw [Field.read, hRead, Option.map_some]
  simp only [List.getD_cons_zero, List.getD_cons_succ, hLow, hHigh, Nat.div_add_mod']

theorem read_assignNumber_ne (h : target ≠ .numMacs) (number : Int) :
    target.read (assignNumber .numMacs number fru) = target.read fru :=
  read_store_ne h (Nat.le_refl _) (by simp [Field.size, numMacsLen])

theorem read_assignByte_ne (h : target ≠ .baseMacAddress) {index : Nat} (hIndex : index < 6)
    (value : Nat) :
    target.read (assignByte (Field.offset .baseMacAddress + index) value fru) = target.read fru :=
  read_store_ne h (Nat.le_add_right _ _) (by simp [Field.size, baseMacAddressLen]; omega)

/-- Six words reach three bytes past the last address byte. -/
theorem storeWords_outside {offset i : Nat} (words : List Nat)
    (h : i < offset ∨ offset + words.length + 3 ≤ i) : storeWords offset words fru i = fru i := by
  induction words generalizing offset fru with
  | nil => rfl
  | cons word words ih =>
      rw [List.length_cons] at h
      rw [storeWords, ih (by omega), Memory.store_outside fru (by simp [wordCells]; omega)]

/-- A later conversion overwrites all but the first byte of an earlier one. -/
theorem storeWords_get {offset i : Nat} {words : List Nat} (h : i < words.length) :
    storeWords offset words fru (offset + i) = .byte (UInt8.ofNat words[i]) := by
  induction words generalizing offset fru i with
  | nil => exact nomatch h
  | cons word words ih =>
      cases i with
      | zero =>
          rw [storeWords, storeWords_outside words (.inl (by omega)),
            Memory.store_inside fru (by simp [wordCells])]
          rfl
      | succ i =>
          rw [storeWords, show offset + (i + 1) = offset + 1 + i by omega]
          exact ih (Nat.lt_of_succ_lt_succ h)

/-- Six conversions and then three bytes over the last three of them. -/
theorem bytesAt_storeWords {words : List Nat} (hLength : words.length = 6) (offset : Nat)
    (fourth fifth sixth : Nat) (fru : Memory) :
    (assignByte (offset + 5) sixth (assignByte (offset + 4) fifth (assignByte (offset + 3) fourth
      (storeWords offset words fru)))).bytesAt 6 offset =
      some ((words.take 3).map UInt8.ofNat ++
        [UInt8.ofNat fourth, UInt8.ofNat fifth, UInt8.ofNat sixth]) := by
  have hThree : ((words.take 3).map UInt8.ofNat).length = 3 := by simp [hLength]
  have hSix : 6 = ((words.take 3).map UInt8.ofNat ++
      [UInt8.ofNat fourth, UInt8.ofNat fifth, UInt8.ofNat sixth]).length := by
    rw [List.length_append, hThree]
    rfl
  conv_lhs => rw [hSix]
  apply Memory.bytesAt_of_bytes
  intro i hi
  rw [← hSix] at hi
  rcases Nat.lt_or_ge i 3 with hFirst | hLast
  · have hGet := @storeWords_get fru offset i words (by omega)
    rw [List.getElem_append_left (by omega), List.getElem_map, List.getElem_take, ← hGet]
    simp only [assignByte]
    rw [Memory.store_outside _ (.inl (by omega)), Memory.store_outside _ (.inl (by omega)),
      Memory.store_outside _ (.inl (by omega))]
  · obtain rfl | rfl | rfl : i = 3 ∨ i = 4 ∨ i = 5 := by omega
    all_goals
      rw [List.getElem_append_right (by omega)]
      simp only [hThree]
      simp [assignByte, Memory.store]

end Assignments

/-- `sysd_cfg_yaml_get_fru_info`, with the results of `rand` in order. -/
def sysdCfgYamlGetFruInfo (fruInfo : Option YamlFruInfo) (rand : Nat → Nat) (fru : Memory) :
    Int × Memory :=
  match fruInfo with
  | none => (-1, fru)
  | some info =>
      let fru := copyString .countryCode countryCodeLen info.countryCode fru
      let fru := assignString .diagVersion info.diagVersion fru
      let fru := assignString .labelRevision info.labelRevision fru
      let fru := storeWords (Field.offset .baseMacAddress) (sscanfHex 6 info.baseMacAddress.bytes) fru
      let fru := assignByte (Field.offset .baseMacAddress + 3) (rand 0 % 256) fru
      let fru := assignByte (Field.offset .baseMacAddress + 4) (rand 1 % 256) fru
      let fru := assignByte (Field.offset .baseMacAddress + 5) (rand 2 % 256) fru
      let fru := copyString .manufactureDate manufactureDateLen info.manufactureDate fru
      let fru := assignString .manufacturer info.manufacturer fru
      let fru := assignNumber .numMacs info.numMacs fru
      let fru := assignString .onieVersion info.onieVersion fru
      let fru := assignString .partNumber info.partNumber fru
      let fru := assignString .platformName info.platformName fru
      let fru := assignString .productName info.productName fru
      let fru := assignString .serialNumber info.serialNumber fru
      let fru := assignString .serviceTag info.serviceTag fru
      let fru := assignString .vendor info.vendor fru
      (0, fru)

/-- What `sysd_read_fru_eeprom` reads: the flag, the description, and the device. -/
structure FruSource where
  fruYaml : Bool
  fruInfo : Option YamlFruInfo
  rand : Nat → Nat
  /-- `i2c_data_read` of so many bytes. -/
  fruRead : Nat → Option (List UInt8)
  calloc : Bool

/-- `SUPPORTED_OCP_FRU_EEPROM_VERSION`. -/
def supportedOcpFruEepromVersion : UInt8 := 1

/-- `sysd_read_fru_eeprom`. No value is returned where processing the image
crashes. -/
def sysdReadFruEeprom (crc32 : List UInt8 → UInt32) (source : FruSource) (fru : Memory) :
    Option Int × Memory :=
  if source.fruYaml then
    -- the answer is kept in a `bool`, which is never negative
    (some 0, (sysdCfgYamlGetFruInfo source.fruInfo source.rand fru).2)
  else
    match source.fruRead headerSize with
    | none => (some (-1), fru)
    | some header =>
        let headerByte := fun i => header.getD i 0
        if supportedOcpFruEepromVersion < headerByte 8 then (some (-1), fru)
        else if !source.calloc then (some (-1), fru)
        else
          match source.fruRead (totalLength headerByte + headerSize + 1) with
          | none => (some (-1), fru)
          | some buf =>
              let outcome := sysdProcessEeprom crc32 (fun i => buf.getD i 0) (totalLength headerByte) fru
              match outcome.1 with
              | .accepted => (some 0, outcome.2)
              | .rejected => (some (-1), outcome.2)
              | .overread => (none, outcome.2)

end OpsSysd.Fru
