import OpsSysd.Fru.Encoding
import OpsSysd.Fru.Yaml

/-! One FRU record given by the hardware description and by an EEPROM image. The
transfer from the description has no assignment to the device version. -/
namespace OpsSysd.Fru

open CLib

/-- The items of a record. -/
structure FruItems where
  countryCode : CString
  deviceVersion : UInt8
  diagVersion : CString
  labelRevision : CString
  baseMacAddress : List UInt8
  manufactureDate : CString
  manufacturer : CString
  numMacs : UInt16
  onieVersion : CString
  partNumber : CString
  platformName : CString
  productName : CString
  serialNumber : CString
  serviceTag : CString
  vendor : CString

/-- The value of the TLV for a field. -/
def FruItems.value (items : FruItems) : Field → List UInt8
  | .countryCode => items.countryCode.bytes
  | .deviceVersion => [items.deviceVersion]
  | .diagVersion => items.diagVersion.bytes
  | .labelRevision => items.labelRevision.bytes
  | .baseMacAddress => items.baseMacAddress
  | .manufactureDate => items.manufactureDate.bytes
  | .manufacturer => items.manufacturer.bytes
  | .numMacs => [UInt8.ofNat (items.numMacs.toNat / 256), UInt8.ofNat (items.numMacs.toNat % 256)]
  | .onieVersion => items.onieVersion.bytes
  | .partNumber => items.partNumber.bytes
  | .platformName => items.platformName.bytes
  | .productName => items.productName.bytes
  | .serialNumber => items.serialNumber.bytes
  | .serviceTag => items.serviceTag.bytes
  | .vendor => items.vendor.bytes

/-- A record whose items fit the EEPROM's fields. -/
structure FruRecord extends FruItems where
  fits : ∀ target, ValueFits (.field target) (toFruItems.value target).length

/-- A byte as two digits, as `%02x` writes it. -/
def hexDigit (digit : Nat) : UInt8 := UInt8.ofNat (if digit < 10 then 48 + digit else 87 + digit)

def hexByte (byte : UInt8) : List UInt8 := [hexDigit (byte.toNat / 16), hexDigit (byte.toNat % 16)]

/-- A MAC address as the description writes it. -/
def macText : List UInt8 → List UInt8
  | [] => []
  | [byte] => hexByte byte
  | byte :: next :: bytes => hexByte byte ++ 58 :: macText (next :: bytes)

/-- The description's items. -/
def FruItems.yaml (items : FruItems) : YamlFruInfo where
  countryCode := items.countryCode
  deviceVersion := items.deviceVersion
  diagVersion := items.diagVersion
  labelRevision := items.labelRevision
  baseMacAddress := CString.cut (macText items.baseMacAddress)
  manufactureDate := items.manufactureDate
  manufacturer := items.manufacturer
  numMacs := items.numMacs.toNat
  onieVersion := items.onieVersion
  partNumber := items.partNumber
  platformName := items.platformName
  productName := items.productName
  serialNumber := items.serialNumber
  serviceTag := items.serviceTag
  vendor := items.vendor

section Scan

/-- A digit that has been printed is scanned as a digit, and as nothing else. -/
theorem hexDigit_scans : ∀ digit : Fin 16, hexValue (hexDigit digit) = some digit.val ∧
    isSpace (hexDigit digit) = false ∧ hexDigit digit ≠ 0 ∧ hexDigit digit ≠ 43 ∧
    hexDigit digit ≠ 45 ∧ hexDigit digit ≠ 120 ∧ hexDigit digit ≠ 88 := by decide

/-- Scanning stops at what is no digit. -/
theorem scanDigits_stop {text : List UInt8} (h : ∀ byte ∈ text.head?, hexValue byte = none) :
    scanDigits text = ([], text) := by
  cases text with
  | nil => rfl
  | cons byte text => rw [scanDigits, h byte rfl]

theorem scanSign_none {byte : UInt8} {text : List UInt8} (hPlus : byte ≠ 43) (hMinus : byte ≠ 45) :
    scanSign (byte :: text) = (false, byte :: text) := by
  rw [scanSign]
  · exact fun _ h => hPlus (List.cons.inj h).1
  · exact fun _ h => hMinus (List.cons.inj h).1

theorem scanPrefix_none {first second : UInt8} {text : List UInt8} (hX : second ≠ 120)
    (hBigX : second ≠ 88) : scanPrefix (first :: second :: text) = first :: second :: text := by
  rw [scanPrefix]
  · exact fun _ h => hX (List.cons.inj (List.cons.inj h).2).1
  · exact fun _ h => hBigX (List.cons.inj (List.cons.inj h).2).1

/-- Printed digits are scanned whole. -/
theorem scanDigits_hexDigits (digits : List (Fin 16)) {rest : List UInt8}
    (hRest : ∀ byte ∈ rest.head?, hexValue byte = none) :
    scanDigits (digits.map (fun digit : Fin 16 => hexDigit digit) ++ rest) =
      (digits.map Fin.val, rest) := by
  induction digits with
  | nil => exact scanDigits_stop hRest
  | cons digit digits ih =>
      rw [List.map_cons, List.cons_append, scanDigits, (hexDigit_scans digit).1]
      simp only [ih, List.map_cons]

/-- Two digits or more are read back as one number. -/
theorem scanHex_hexDigits (first second : Fin 16) (digits : List (Fin 16)) {rest : List UInt8}
    (hRest : ∀ byte ∈ rest.head?, hexValue byte = none) {value : Nat}
    (hValue : ((first :: second :: digits).map Fin.val).foldl
      (fun value digit => value * 16 + digit) 0 = value) (hSmall : value < 2 ^ 32) :
    scanHex ((first :: second :: digits).map (fun digit : Fin 16 => hexDigit digit) ++ rest) =
      some (value, rest) := by
  obtain ⟨-, hSpace, -, hPlus, hMinus, -, -⟩ := hexDigit_scans first
  obtain ⟨-, -, -, -, -, hX, hBigX⟩ := hexDigit_scans second
  have hDigits := scanDigits_hexDigits (first :: second :: digits) hRest
  simp only [List.map_cons, List.cons_append] at hDigits hValue ⊢
  have hLong : ¬ 2 ^ 64 ≤ value := by omega
  have hWord : value % 2 ^ 32 = value := Nat.mod_eq_of_lt hSmall
  rw [scanHex, List.dropWhile_cons_of_neg (by simp [hSpace]), scanSign_none hPlus hMinus]
  simp only [scanPrefix_none hX hBigX, hDigits, hValue, if_neg hLong, hWord, reduceCtorEq,
    Bool.false_eq_true, if_false]

/-- A byte written as two digits is read back. -/
theorem scanHex_hexByte (byte : UInt8) {rest : List UInt8}
    (hRest : ∀ byte ∈ rest.head?, hexValue byte = none) :
    scanHex (hexByte byte ++ rest) = some (byte.toNat, rest) := by
  have hByte := byte.toNat_lt
  have hValue : (0 * 16 + byte.toNat / 16) * 16 + byte.toNat % 16 = byte.toNat := by omega
  exact scanHex_hexDigits ⟨byte.toNat / 16, by omega⟩ ⟨byte.toNat % 16, by omega⟩ [] hRest hValue
    (by omega)

theorem hexByte_noNul (byte : UInt8) : 0 ∉ hexByte byte := by
  have hByte := byte.toNat_lt
  have hHigh := (hexDigit_scans ⟨byte.toNat / 16, by omega⟩).2.2.1
  have hLow := (hexDigit_scans ⟨byte.toNat % 16, by omega⟩).2.2.1
  simp [hexByte, hHigh.symm, hLow.symm]

/-- A printed address has no NUL. -/
theorem macText_noNul (mac : List UInt8) : 0 ∉ macText mac := by
  induction mac using macText.induct with
  | case1 => exact List.not_mem_nil
  | case2 byte => exact hexByte_noNul byte
  | case3 byte next bytes ih =>
      rw [macText, List.mem_append, List.mem_cons]
      rintro (hHere | hColon | hRest)
      · exact hexByte_noNul byte hHere
      · exact absurd hColon (by decide)
      · exact ih hRest

/-- An address that has been printed is scanned back. -/
theorem sscanfHex_macText (mac : List UInt8) :
    sscanfHex mac.length (macText mac) = mac.map UInt8.toNat := by
  induction mac using macText.induct with
  | case1 => rfl
  | case2 byte =>
      have read_scanned_ne := @scanHex_hexByte byte [] nofun
      rw [List.append_nil] at read_scanned_ne
      rw [macText, List.length_singleton, sscanfHex, read_scanned_ne]
      rfl
  | case3 byte next bytes ih =>
      have read_scanned_ne := @scanHex_hexByte byte (58 :: macText (next :: bytes)) (by
        rintro _ ⟨⟩
        rfl)
      rw [macText, List.length_cons, sscanfHex, read_scanned_ne]
      exact congrArg _ ih

end Scan

section Description

variable (record : FruRecord) (rand : Nat → Nat) (before : Memory)

/-- The record that the description's items leave. -/
abbrev fromYaml : Memory := (sysdCfgYamlGetFruInfo (some record.yaml) rand before).2

/-- The words of the address may run over into the date, and no further. -/
theorem read_storeWords_ne {target : Field} (hMac : target ≠ .baseMacAddress)
    (hDate : target ≠ .manufactureDate) {words : List Nat} (hLength : words.length ≤ 6) (fru : Memory) :
    target.read (storeWords (Field.offset .baseMacAddress) words fru) = target.read fru := by
  refine Field.read_congr fun i owns => storeWords_outside words ?_
  have hNotMac : ¬ Field.Owns .baseMacAddress i := Field.not_owns_of_ne hMac.symm owns
  have hNotDate : ¬ Field.Owns .manufactureDate i := Field.not_owns_of_ne hDate.symm owns
  simp only [Field.Owns, Field.offset, Field.size, baseMacAddressLen, manufactureDateLen] at *
  omega

/-- So the address of the yaml record is the record's. -/
theorem sscanfHex_yaml : sscanfHex 6 record.yaml.baseMacAddress.bytes =
    record.baseMacAddress.map UInt8.toNat := by
  have hLength : record.baseMacAddress.length = 6 := record.fits .baseMacAddress
  have hText : (CString.cut (macText record.baseMacAddress)).bytes = macText record.baseMacAddress :=
    congrArg CString.bytes (CString.cut_bytes_self ⟨_, macText_noNul record.baseMacAddress⟩)
  rw [FruItems.yaml, hText, ← hLength, sscanfHex_macText]

/-- The big-endian value gives the number back. -/
theorem decode_numMacs (items : FruItems) :
    some (Field.decode .numMacs (items.value .numMacs)) = some (.number items.numMacs.toNat) := by
  have hNumber := items.numMacs.toNat_lt
  have hHalf : items.numMacs.toNat / 256 < 2 ^ 8 ∧ items.numMacs.toNat % 256 < 2 ^ 8 := by omega
  simp only [Field.decode, FruItems.value, List.getD_cons_zero, List.getD_cons_succ,
    UInt8.toNat_ofNat_of_lt' hHalf.1, UInt8.toNat_ofNat_of_lt' hHalf.2, Nat.div_add_mod']

/-- The conversions touch no field but the address and the date after it. -/
theorem read_scanned_ne {target : Field} (hMac : target ≠ .baseMacAddress)
    (hDate : target ≠ .manufactureDate) (fru : Memory) :
    target.read (storeWords (Field.offset .baseMacAddress)
      (sscanfHex 6 record.yaml.baseMacAddress.bytes) fru) = target.read fru := by
  refine read_storeWords_ne hMac hDate ?_ fru
  rw [sscanfHex_yaml, List.length_map]
  exact (record.fits .baseMacAddress).le

/-- Every field but the address and the device version shows the record's value. -/
theorem read_fromYaml {target : Field} (hMac : target ≠ .baseMacAddress)
    (hVersion : target ≠ .deviceVersion) :
    target.read (fromYaml record rand before) = some (target.decode (record.value target)) := by
  have hText (text : CString) : some (Content.text text) = some (.text (CString.cut text.bytes)) := by
    rw [CString.cut_bytes_self]
  simp only [fromYaml, sysdCfgYamlGetFruInfo]
  cases target with
  | baseMacAddress => exact absurd rfl hMac
  | deviceVersion => exact absurd rfl hVersion
  | countryCode =>
      simp (disch := decide) only [read_assignString_ne, read_copyString_ne, read_assignNumber_ne,
        read_assignByte_ne, read_scanned_ne]
      exact (read_copyString (.inl rfl) rfl (record.fits .countryCode)).trans (hText _)
  | manufactureDate =>
      simp (disch := decide) only [read_assignString_ne, read_assignNumber_ne]
      exact (read_copyString (.inr rfl) rfl (record.fits .manufactureDate)).trans (hText _)
  | numMacs =>
      simp (disch := decide) only [read_assignString_ne]
      exact (read_assignNumber record.numMacs).trans (decode_numMacs record.toFruItems).symm
  | _ =>
      simp (disch := decide) only [read_assignString_ne, read_copyString_ne, read_assignNumber_ne,
        read_assignByte_ne, read_scanned_ne, read_assignString]
      exact hText _

/-- The device version is as it was. -/
theorem deviceVersion_fromYaml :
    Field.read .deviceVersion (fromYaml record rand before) = Field.read .deviceVersion before := by
  simp only [fromYaml, sysdCfgYamlGetFruInfo]
  simp (disch := decide) only [read_assignString_ne, read_copyString_ne, read_assignNumber_ne,
    read_assignByte_ne, read_scanned_ne]

/-- The six bytes of the address after the last three were drawn at random. -/
theorem bytesAt_randomised {mac : List UInt8} (hLength : mac.length = 6) (offset : Nat)
    (fru : Memory) :
    (assignByte (offset + 5) (rand 2 % 256) (assignByte (offset + 4) (rand 1 % 256)
      (assignByte (offset + 3) (rand 0 % 256) (storeWords offset (mac.map UInt8.toNat) fru)))).bytesAt
        6 offset =
      some (mac.take 3 ++ [UInt8.ofNat (rand 0 % 256), UInt8.ofNat (rand 1 % 256),
        UInt8.ofNat (rand 2 % 256)]) := by
  have hBytes : ((mac.map UInt8.toNat).take 3).map UInt8.ofNat = mac.take 3 := by
    rw [← List.map_take, List.map_map]
    exact List.map_id'' (fun byte => UInt8.ofNat_toNat) _
  rw [bytesAt_storeWords (by rw [List.length_map, hLength]), hBytes]

/-- Of the address the first three bytes are the record's. -/
theorem baseMacAddress_fromYaml :
    Field.read .baseMacAddress (fromYaml record rand before) =
      some (.bytes (record.baseMacAddress.take 3 ++
        [UInt8.ofNat (rand 0 % 256), UInt8.ofNat (rand 1 % 256), UInt8.ofNat (rand 2 % 256)])) := by
  simp only [fromYaml, sysdCfgYamlGetFruInfo]
  simp (disch := decide) only [read_assignString_ne, read_copyString_ne, read_assignNumber_ne]
  rw [sscanfHex_yaml, Field.read]
  exact congrArg _ (bytesAt_randomised rand (record.fits .baseMacAddress) _ _)

end Description

section Device

/-- An image of the record: a header of the supported version, and for each field
the record's value in the last TLV that has its code. -/
structure Encodes (header : List UInt8) (tlvs : List Tlv) (record : FruRecord) : Prop where
  length : header.length = headerSize
  version : header.getD 8 0 ≤ supportedOcpFruEepromVersion
  total : totalLength (fun i => header.getD i 0) = (encodeTlvs tlvs).length + 6
  items : ∀ target, lastValue target tlvs = some (record.value target)

/-- The device delivers the image, and after it whatever it may hold. -/
structure Delivers (source : FruSource) (image : List UInt8) : Prop where
  device : source.fruYaml = false
  memory : source.calloc = true
  read : ∃ after, ∀ count, source.fruRead count = some ((image ++ after).take count)

theorem take_getD {bytes after : List UInt8} {count i : Nat} (hCount : i < count)
    (hBytes : i < bytes.length) : ((bytes ++ after).take count).getD i 0 = bytes.getD i 0 := by
  simp [List.getD_eq_getElem?_getD, hCount, List.getElem?_append_left hBytes]

variable {record : FruRecord} {crc32 : List UInt8 → UInt32} {header : List UInt8} {tlvs : List Tlv}
  {source : FruSource}

/-- An image has its header, its fields and the checksum. -/
theorem image_length (hHeader : header.length = headerSize) :
    (image crc32 header tlvs).length = headerSize + ((encodeTlvs tlvs).length + 6) := by
  simp [image, checksummedBytes, crcBytes, hHeader]

/-- The header is at its start. -/
theorem image_getD (hHeader : header.length = headerSize) {i : Nat} (hi : i < headerSize) :
    (image crc32 header tlvs).getD i 0 = header.getD i 0 := by
  rw [image, checksummedBytes, List.append_assoc, List.append_assoc]
  simp [List.getD_eq_getElem?_getD, List.getElem?_append_left (hHeader ▸ hi)]

/-- Reading the image leaves the record's value in every field. -/
theorem read_fromImage (encodes : Encodes header tlvs record)
    (delivers : Delivers source (image crc32 header tlvs)) (before : Memory) :
    (sysdReadFruEeprom crc32 source before).1 = some 0 ∧ ∀ target : Field,
      target.read (sysdReadFruEeprom crc32 source before).2 =
        some (target.decode (record.value target)) := by
  obtain ⟨after, hRead⟩ := delivers.read
  have hLength := @image_length crc32 header tlvs encodes.length
  let delivered count := fun i => ((image crc32 header tlvs ++ after).take count).getD i 0
  have hHeader (count i : Nat) (hCount : headerSize ≤ count) (hi : i < headerSize) :
      delivered count i = header.getD i 0 :=
    (take_getD (by omega) (by omega)).trans (image_getD encodes.length hi)
  have hTotal (count : Nat) (hCount : headerSize ≤ count) :
      totalLength (delivered count) = (encodeTlvs tlvs).length + 6 := by
    rw [← encodes.total, totalLength, totalLength, hHeader count 9 hCount (by decide),
      hHeader count 10 hCount (by decide)]
  have hVersion : ¬ supportedOcpFruEepromVersion < delivered headerSize 8 := by
    rw [hHeader headerSize 8 (Nat.le_refl _) (by decide)]
    exact UInt8.not_lt.mpr encodes.version
  let count := (encodeTlvs tlvs).length + 6 + headerSize + 1
  have hBuf : Holds (delivered count) 0 (image crc32 header tlvs) := by
    intro i hi
    rw [Nat.zero_add]
    exact (take_getD (by omega) hi).trans (by simp [hi])
  have hBufTotal := hTotal count (by omega)
  have hProcessed := sysdProcessEeprom_of_holds encodes.length hBuf hBufTotal before
  rw [hBufTotal] at hProcessed
  have hResult : sysdReadFruEeprom crc32 source before =
      (some 0, tlvs.foldl (fun fru tlv => tlv.apply fru) before) := by
    rw [sysdReadFruEeprom, delivers.device, if_neg (by simp), hRead]
    dsimp only
    rw [if_neg hVersion, delivers.memory, if_neg (by simp), hRead, hTotal headerSize (Nat.le_refl _)]
    dsimp only
    rw [hProcessed]
  rw [hResult]
  refine ⟨rfl, fun target => ?_⟩
  have hTarget := foldl_apply_shows target tlvs before
  rw [encodes.items target] at hTarget
  exact hTarget

end Device

/-- What of a field the two sources are to agree on: of an address the first
three bytes, and any other field whole. -/
def Field.compared (target : Field) (fru : Memory) : Option Content :=
  (target.read fru).map fun content => match target, content with
    | .baseMacAddress, .bytes value => .bytes (value.take 3)
    | _, content => content

/-- Both sources were read, and the records they left agree. -/
def SameRecord (yaml eeprom : Option Int × Memory) : Prop :=
  yaml.1 = some 0 ∧ eeprom.1 = some 0 ∧ ∀ target : Field, target.compared yaml.2 = target.compared eeprom.2

section Agreement

variable {record : FruRecord} {crc32 : List UInt8 → UInt32} {header : List UInt8} {tlvs : List Tlv}
  {yaml eeprom : FruSource}

theorem compared_deviceVersion (fru : Memory) :
    Field.compared .deviceVersion fru = Field.read .deviceVersion fru := Option.map_id'

/-- From yaml the record is read field by field. -/
theorem sysdReadFruEeprom_yaml (hYaml : yaml.fruYaml = true) (hInfo : yaml.fruInfo = some record.yaml)
    (before : Memory) :
    sysdReadFruEeprom crc32 yaml before = (some 0, fromYaml record yaml.rand before) := by
  rw [sysdReadFruEeprom, if_pos hYaml, hInfo]

/-- But for the device version the two sources agree. -/
theorem compared_eq {target : Field} (hVersion : target ≠ .deviceVersion)
    (hYaml : yaml.fruYaml = true) (hInfo : yaml.fruInfo = some record.yaml)
    (encodes : Encodes header tlvs record) (delivers : Delivers eeprom (image crc32 header tlvs))
    (yamlBefore eepromBefore : Memory) :
    target.compared (sysdReadFruEeprom crc32 yaml yamlBefore).2 =
      target.compared (sysdReadFruEeprom crc32 eeprom eepromBefore).2 := by
  have hImage := (read_fromImage encodes delivers eepromBefore).2 target
  rw [Field.compared, Field.compared, hImage, sysdReadFruEeprom_yaml hYaml hInfo]
  by_cases hMac : target = .baseMacAddress
  · subst hMac
    rw [baseMacAddress_fromYaml]
    have hLength : record.baseMacAddress.length = 6 := record.fits .baseMacAddress
    have hThree : (record.baseMacAddress.take 3).length = 3 := by rw [List.length_take, hLength]; rfl
    refine congrArg (fun value => some (Content.bytes value)) ?_
    exact (List.take_left' hThree)
  · rw [read_fromYaml record yaml.rand yamlBefore hMac hVersion]

/-- The sources agree exactly where the device version was in the record before. -/
theorem sources_agree_iff (record : FruRecord) (crc32 : List UInt8 → UInt32) (header : List UInt8)
    (tlvs : List Tlv) (encodes : Encodes header tlvs record) (yaml eeprom : FruSource)
    (hYaml : yaml.fruYaml = true) (hInfo : yaml.fruInfo = some record.yaml)
    (delivers : Delivers eeprom (image crc32 header tlvs)) (yamlBefore eepromBefore : Memory) :
    SameRecord (sysdReadFruEeprom crc32 yaml yamlBefore)
        (sysdReadFruEeprom crc32 eeprom eepromBefore) ↔
      Field.read .deviceVersion yamlBefore = some (.bytes [record.deviceVersion]) := by
  have hImage := read_fromImage encodes delivers eepromBefore
  have hYamlVersion : Field.compared .deviceVersion (sysdReadFruEeprom crc32 yaml yamlBefore).2 =
      Field.read .deviceVersion yamlBefore := by
    rw [compared_deviceVersion, sysdReadFruEeprom_yaml hYaml hInfo, deviceVersion_fromYaml]
  have hImageVersion : Field.compared .deviceVersion
      (sysdReadFruEeprom crc32 eeprom eepromBefore).2 = some (.bytes [record.deviceVersion]) :=
    (compared_deviceVersion _).trans (hImage.2 .deviceVersion)
  constructor
  · intro hSame
    rw [← hYamlVersion, ← hImageVersion]
    exact hSame.2.2 .deviceVersion
  · intro hBefore
    refine ⟨congrArg Prod.fst (sysdReadFruEeprom_yaml hYaml hInfo yamlBefore), hImage.1,
      fun target => ?_⟩
    by_cases hVersion : target = .deviceVersion
    · rw [hVersion, hYamlVersion, hImageVersion, hBefore]
    · exact compared_eq hVersion hYaml hInfo encodes delivers yamlBefore eepromBefore

end Agreement

section Sample

/-- The TLVs of a record, one for each field. -/
def FruRecord.tlvs (record : FruRecord) : List Tlv :=
  [.countryCode, .deviceVersion, .diagVersion, .labelRevision, .baseMacAddress, .manufactureDate,
    .manufacturer, .numMacs, .onieVersion, .partNumber, .platformName, .productName, .serialNumber,
    .serviceTag, .vendor].map fun target =>
      ⟨.field target, record.value target, TlvType.field_ne_crc target, record.fits target⟩

/-- An image of the record has each of its values. -/
theorem FruRecord.lastValue_tlvs (record : FruRecord) (target : Field) :
    lastValue target record.tlvs = some (record.value target) := by
  cases target <;> rfl

/-- The record of the description for tests, under another device version. -/
def testRecord (deviceVersion : UInt8) : FruRecord where
  countryCode := .lit "US"
  deviceVersion := deviceVersion
  diagVersion := .lit "1.0.0.0"
  labelRevision := .lit "L01"
  baseMacAddress := [0x70, 0x72, 0xcf, 0, 0, 0]
  manufactureDate := .lit "09/01/2015 00:00:01"
  manufacturer := .lit "OpenSwitch"
  numMacs := 74
  onieVersion := .lit "2014.08.00.05"
  partNumber := .lit "OPSX8664"
  platformName := .lit "Generic-x86-64"
  productName := .lit "OpenSwitch"
  serialNumber := .lit "X8664001"
  serviceTag := .lit "0"
  vendor := .lit "OpenSwitch"
  fits target := by
    cases target with
    | deviceVersion => rfl
    | _ => simp only [ValueFits, FruItems.value]; decide

def testHeader : List UInt8 := [0x54, 0x6c, 0x76, 0x49, 0x6e, 0x66, 0x6f, 0, 1, 0, 150]

theorem testHeader_encodes (deviceVersion : UInt8) :
    Encodes testHeader (testRecord deviceVersion).tlvs (testRecord deviceVersion) where
  length := rfl
  version := by decide
  total := by
    have hZero : (encodeTlvs (testRecord 0).tlvs).length = 144 := by decide +kernel
    have hSame : (encodeTlvs (testRecord deviceVersion).tlvs).length =
        (encodeTlvs (testRecord 0).tlvs).length := by
      simp [encodeTlvs, FruRecord.tlvs, Tlv.encode, FruItems.value, testRecord]
    rw [hSame, hZero]
    rfl
  items := (testRecord deviceVersion).lastValue_tlvs

/-- A checksum for the sample. -/
def testCrc32 (bytes : List UInt8) : UInt32 := UInt32.ofNat bytes.length

def testYaml (record : FruRecord) : FruSource where
  fruYaml := true
  fruInfo := some record.yaml
  rand index := index
  fruRead _ := none
  calloc := true

def testEeprom (record : FruRecord) : FruSource where
  fruYaml := false
  fruInfo := none
  rand _ := 0
  fruRead count := some ((image testCrc32 testHeader record.tlvs).take count)
  calloc := true

theorem testEeprom_delivers (record : FruRecord) :
    Delivers (testEeprom record) (image testCrc32 testHeader record.tlvs) :=
  ⟨rfl, rfl, [], fun count => by rw [List.append_nil]; rfl⟩

/-- The record as allocated. -/
def zeroed : Memory := fun _ => .byte 0

/-- A device version other than zero is lost. -/
theorem deviceVersion_lost :
    ¬ SameRecord (sysdReadFruEeprom testCrc32 (testYaml (testRecord 1)) zeroed)
      (sysdReadFruEeprom testCrc32 (testEeprom (testRecord 1)) zeroed) := by
  intro hSame
  have hVersion := hSame.2.2 .deviceVersion
  have hImage := (read_fromImage (testHeader_encodes 1) (testEeprom_delivers (testRecord 1))
    zeroed).2 .deviceVersion
  rw [compared_deviceVersion, compared_deviceVersion, hImage,
    @sysdReadFruEeprom_yaml (testRecord 1) testCrc32 (testYaml (testRecord 1)) rfl rfl,
    deviceVersion_fromYaml] at hVersion
  exact absurd hVersion (by decide)

/-- Version zero is what the allocated record holds anyway. -/
theorem testRecord_agrees :
    SameRecord (sysdReadFruEeprom testCrc32 (testYaml (testRecord 0)) zeroed)
      (sysdReadFruEeprom testCrc32 (testEeprom (testRecord 0)) zeroed) :=
  (sources_agree_iff (testRecord 0) testCrc32 testHeader (testRecord 0).tlvs (testHeader_encodes 0)
    (testYaml (testRecord 0)) (testEeprom (testRecord 0)) rfl rfl (testEeprom_delivers (testRecord 0))
    zeroed zeroed).mpr (by decide)

end Sample
end OpsSysd.Fru
