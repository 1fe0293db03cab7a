import OpsSysd.Fru.Extent
import OpsSysd.Fru.Record

/-! Images built from a list of TLVs, and what the parser makes of them. The
parser leaves in each field the value of the last TLV with its code. -/
namespace OpsSysd.Fru

open CLib

/-- A TLV other than the checksum, with a value its field can take. -/
structure Tlv where
  kind : TlvType
  value : List UInt8
  notCrc : kind ≠ .crc
  fits : ValueFits kind value.length

namespace Tlv

/-- A value's length fits in one byte. -/
theorem length_le (tlv : Tlv) : tlv.value.length ≤ 255 := by
  have hFits := tlv.fits
  revert hFits
  cases tlv.kind with
  | field target =>
      cases target <;> simp only [ValueFits, countryCodeLen, manufactureDateLen,
        baseMacAddressLen, numMacsLen, deviceVersionLen] <;> omega
  | vendorExtension => exact id
  | crc => exact id

/-- A value has at least the bytes that are read of it in any case. -/
theorem fixedLength_le (tlv : Tlv) : fixedLength tlv.kind ≤ tlv.value.length := by
  have hFits := tlv.fits
  have hCrc := tlv.notCrc
  revert hFits hCrc
  cases tlv.kind with
  | field target => cases target <;> simp only [fixedLength, ValueFits] <;> omega
  | vendorExtension => simp [fixedLength]
  | crc => simp

def encode (tlv : Tlv) : List UInt8 :=
  tlv.kind.code :: UInt8.ofNat tlv.value.length :: tlv.value

@[simp] theorem encode_length (tlv : Tlv) : tlv.encode.length = tlv.value.length + 2 := rfl

/-- The assignment of the switch, on the value itself. -/
def apply (tlv : Tlv) (fru : Memory) : Memory :=
  match tlv.kind with
  | .field target => storeField target (fun i => tlv.value.getD i 0) tlv.value.length fru
  | _ => fru

end Tlv

def encodeTlvs (tlvs : List Tlv) : List UInt8 := tlvs.flatMap Tlv.encode

/-- A checksum, most significant byte first. -/
def crcBytes (crc : UInt32) : List UInt8 :=
  [UInt8.ofNat (crc.toNat / 2 ^ 24), UInt8.ofNat (crc.toNat / 2 ^ 16),
    UInt8.ofNat (crc.toNat / 2 ^ 8), UInt8.ofNat crc.toNat]

/-- Header, TLVs, and the code and length of the closing CRC TLV. -/
def checksummedBytes (header : List UInt8) (tlvs : List Tlv) : List UInt8 :=
  header ++ (encodeTlvs tlvs ++ [TlvType.crc.code, 4])

def image (crc32 : List UInt8 → UInt32) (header : List UInt8) (tlvs : List Tlv) : List UInt8 :=
  checksummedBytes header tlvs ++ crcBytes (crc32 (checksummedBytes header tlvs))

/-- A checksum that has been encoded is found. -/
theorem foundCrc_crcBytes {value : Nat → UInt8} {offset : Nat} {crc : UInt32}
    (h : Holds value offset (crcBytes crc)) : foundCrc (fun i => value (offset + i)) = crc := by
  have hCrc := crc.toNat_lt
  have h0 := h 0 (by simp [crcBytes])
  have h1 := h 1 (by simp [crcBytes])
  have h2 := h 2 (by simp [crcBytes])
  have h3 := h 3 (by simp [crcBytes])
  simp only [crcBytes, List.getElem_cons_zero, List.getElem_cons_succ] at h0 h1 h2 h3
  apply UInt32.toNat_inj.mp
  rw [foundCrc_eq, h0, h1, h2, h3, UInt32.toNat_ofNat']
  simp only [UInt8.toNat_ofNat']
  omega

section Decode

variable {crc32 : List UInt8 → UInt32} {buf : Nat → UInt8} {len : Nat}

/-- One TLV of an image is read back as written. -/
theorem switchTlv_encode (crc32 : List UInt8 → UInt32) (len : Nat) {tlv : Tlv} {idx : Nat}
    (h : Holds buf (headerSize + idx) tlv.encode) (fru : Memory) :
    switchTlv crc32 buf len idx fru = .ok (tlv.apply fru) ∧
      skip buf idx = tlv.encode.length := by
  have hCode : tlvCode buf idx = tlv.kind.code := h 0 (by simp)
  have hLength : tlvLength buf idx = tlv.value.length := by
    have hByte : buf (headerSize + idx + 1) = UInt8.ofNat tlv.value.length := h 1 (by simp)
    have hShort := tlv.length_le
    rw [tlvLength, hByte, UInt8.toNat_ofNat', Nat.mod_eq_of_lt (by omega)]
  have hValue : ∀ i, i < tlv.value.length → tlvValue buf idx i = tlv.value.getD i 0 := by
    intro i hi
    have hAt := h (i + 2) (by simpa using hi)
    simp only [Tlv.encode, List.getElem_cons_succ] at hAt
    rw [tlvValue, show headerSize + idx + 2 + i = headerSize + idx + (i + 2) by omega, hAt]
    simp [hi]
  refine ⟨?_, by simp [skip, hLength]⟩
  have hFixed := tlv.fixedLength_le
  have hCrc := tlv.notCrc
  rw [switchTlv, hCode, TlvType.ofCode_code, hLength, Tlv.apply]
  revert hFixed hCrc
  cases tlv.kind with
  | field target =>
      intro hFixed _
      exact congrArg Except.ok (storeField_congr (fun i hi => hValue i (by omega)) fru)
  | vendorExtension => exact fun _ _ => rfl
  | crc => exact fun _ hCrc => absurd rfl hCrc

/-- The walk over a whole image applies its TLVs in order and ends exactly at
the total length, provided the closing checksum matches. -/
theorem processTlvs_encode (tlvs : List Tlv) (crcValue : List UInt8) (idx : Nat) (fru : Memory)
    (hBuf : Holds buf (headerSize + idx) (encodeTlvs tlvs ++ ([TlvType.crc.code, 4] ++ crcValue)))
    (hLen : len = idx + (encodeTlvs tlvs).length + 6)
    (hCrc : crcMatches crc32 buf len (len - 6) = true) :
    processTlvs crc32 buf len idx fru =
      (.accepted, len, tlvs.foldl (fun fru tlv => tlv.apply fru) fru) := by
  induction tlvs generalizing idx fru with
  | nil =>
      obtain ⟨hHead, -⟩ := hBuf.append.2.append
      have hIdx : idx = len - 6 := by simp [encodeTlvs] at hLen; omega
      have hCode : tlvCode buf idx = TlvType.crc.code := hHead 0 (by simp)
      have hLength : buf (headerSize + idx + 1) = 4 := hHead 1 (by simp)
      have hSkip : skip buf idx = 6 := by simp [skip, tlvLength, hLength]
      have hMatch := of_decide_eq_true hCrc
      have hSwitch : switchTlv crc32 buf len idx fru = .ok fru := by
        rw [switchTlv, hCode, TlvType.ofCode_code, hIdx]
        simp [hMatch]
      rw [processTlvs, if_pos (by omega), hSwitch]
      simp only [hSkip]
      rw [processTlvs, if_neg (by omega), show idx + 6 = len by omega]
      rfl
  | cons tlv tlvs ih =>
      have hSplit : encodeTlvs (tlv :: tlvs) = tlv.encode ++ encodeTlvs tlvs := rfl
      rw [hSplit, List.append_assoc] at hBuf
      rw [hSplit, List.length_append] at hLen
      obtain ⟨hTlv, hRest⟩ := hBuf.append
      obtain ⟨hSwitch, hSkip⟩ := switchTlv_encode crc32 len hTlv fru
      rw [processTlvs, if_pos (by omega), hSwitch]
      simp only [hSkip]
      rw [Nat.add_assoc] at hRest
      exact ih (idx + tlv.encode.length) (tlv.apply fru) hRest (by omega)

/-- The closing CRC TLV of an image carries what the parser computes. -/
theorem image_crcMatches {header : List UInt8} {tlvs : List Tlv} (hHeader : header.length = headerSize)
    (hBuf : Holds buf 0 (image crc32 header tlvs)) (hLen : len = (encodeTlvs tlvs).length + 6)
    (hShort : len < 2 ^ 16) : crcMatches crc32 buf len (len - 6) = true := by
  obtain ⟨hBody, hValue⟩ := hBuf.append
  have hBodyLength : (checksummedBytes header tlvs).length = headerSize + (len - 6) + 2 := by
    simp [checksummedBytes, hHeader, hLen]
    omega
  have hFour : tlvLength buf (len - 6) = 4 := by
    obtain ⟨-, hTlvs⟩ := hBody.append
    have hByte := hTlvs.append.2 1 (by simp)
    rw [hHeader, Nat.zero_add, show (encodeTlvs tlvs).length = len - 6 by omega] at hByte
    rw [tlvLength, hByte]
    rfl
  have hExtent : crcExtent (crcLen buf len (len - 6)) = (checksummedBytes header tlvs).length := by
    rw [crcExtent, crcLen, hFour, hBodyLength]
    unfold headerSize
    omega
  have hFound : foundCrc (tlvValue buf (len - 6)) = crc32 (checksummedBytes header tlvs) := by
    rw [hBodyLength, Nat.zero_add] at hValue
    exact foundCrc_crcBytes hValue
  have hBlock : (checksummedBytes header tlvs).length ≤ len + headerSize + 1 := by omega
  rw [crcMatches, calcCrc, hExtent, if_pos hBlock, hBody.map_range, hFound]
  exact decide_eq_true rfl

end Decode

/-- The value of the last TLV for a field. -/
def lastValue (target : Field) (tlvs : List Tlv) : Option (List UInt8) :=
  (tlvs.reverse.find? fun tlv => tlv.kind = .field target).map Tlv.value

/-- The last value for a field counts. -/
theorem lastValue_append (target : Field) (tlvs : List Tlv) (tlv : Tlv) :
    lastValue target (tlvs ++ [tlv]) =
      if tlv.kind = .field target then some tlv.value else lastValue target tlvs := by
  rw [lastValue, List.reverse_append, List.reverse_singleton, List.singleton_append, List.find?_cons]
  by_cases hKind : tlv.kind = .field target <;> simp [hKind, lastValue]

/-- The record shows a field's latest value, or its old bytes if it has none. -/
def Shows (target : Field) (latest : Option (List UInt8)) (before after : Memory) : Prop :=
  match latest with
  | some value => target.read after = some (target.decode value)
  | none => ∀ i, target.Owns i → after i = before i

/-- A TLV shows in its own field only. -/
theorem Shows.apply {target : Field} {latest : Option (List UInt8)} {before after : Memory}
    (shows : Shows target latest before after) (tlv : Tlv) :
    Shows target (if tlv.kind = .field target then some tlv.value else latest) before
      (tlv.apply after) := by
  have hFits := tlv.fits
  unfold Tlv.apply
  cases hKind : tlv.kind with
  | vendorExtension => simpa using shows
  | crc => exact absurd hKind tlv.notCrc
  | field other =>
      rw [hKind] at hFits
      by_cases hSame : other = target
      · subst hSame
        rw [if_pos rfl]
        exact read_storeField hFits after
      · have hKeep : ∀ i, target.Owns i →
            storeField other (fun i => tlv.value.getD i 0) tlv.value.length after i = after i :=
          fun i owns => storeField_outside hFits.fitsArray after (Field.not_owns_of_ne hSame owns)
        rw [if_neg (by simpa using hSame)]
        cases latest with
        | none => exact fun i owns => (hKeep i owns).trans (shows i owns)
        | some value => exact (Field.read_congr hKeep).trans shows

/-- After all of them each field shows the last value for it. -/
theorem foldl_apply_shows (target : Field) (tlvs : List Tlv) (before : Memory) :
    Shows target (lastValue target tlvs) before
      (tlvs.foldl (fun fru tlv => tlv.apply fru) before) := by
  induction tlvs using List.reverseRecOn with
  | nil => exact fun i _ => rfl
  | append_singleton tlvs tlv ih =>
      rw [List.foldl_append, lastValue_append]
      exact ih.apply tlv

/-- The walk over a buffer that holds an image applies the image's TLVs in order. -/
theorem sysdProcessEeprom_of_holds {crc32 : List UInt8 → UInt32} {header : List UInt8}
    {tlvs : List Tlv} {buf : Nat → UInt8} (hHeader : header.length = headerSize)
    (hBuf : Holds buf 0 (image crc32 header tlvs))
    (hTotal : totalLength buf = (encodeTlvs tlvs).length + 6) (fru : Memory) :
    sysdProcessEeprom crc32 buf (totalLength buf) fru =
      (.accepted, tlvs.foldl (fun fru tlv => tlv.apply fru) fru) := by
  have hTlvs : Holds buf (headerSize + 0)
      (encodeTlvs tlvs ++ ([TlvType.crc.code, 4] ++
        crcBytes (crc32 (checksummedBytes header tlvs)))) := by
    have hImage := hBuf
    rw [image, checksummedBytes, List.append_assoc, List.append_assoc] at hImage
    have hRest := hImage.append.2
    rwa [hHeader, Nat.zero_add] at hRest
  have hRun := processTlvs_encode tlvs _ 0 fru hTlvs (by omega)
    (image_crcMatches hHeader hBuf hTotal (totalLength_lt buf))
  simp only [sysdProcessEeprom, hRun]

/-- Decoding undoes encoding. -/
theorem sysdProcessEeprom_image (crc32 : List UInt8 → UInt32) (header : List UInt8)
    (tlvs : List Tlv) (buf : Nat → UInt8) (fru : Memory) (hHeader : header.length = headerSize)
    (hBuf : Holds buf 0 (image crc32 header tlvs))
    (hTotal : totalLength buf = (encodeTlvs tlvs).length + 6) :
    (sysdProcessEeprom crc32 buf (totalLength buf) fru).1 = .accepted ∧
      ∀ target, Shows target (lastValue target tlvs) fru
        (sysdProcessEeprom crc32 buf (totalLength buf) fru).2 := by
  rw [sysdProcessEeprom_of_holds hHeader hBuf hTotal fru]
  exact ⟨rfl, fun target => foldl_apply_shows target tlvs fru⟩

/-- The image of a switch with two product names, of which the second counts,
and 0x0102 MAC addresses. -/
def sampleHeader : List UInt8 := [0x54, 0x6c, 0x76, 0x49, 0x6e, 0x66, 0x6f, 0, 1, 0, 18]

def sampleTlvs : List Tlv :=
  [⟨.field .productName, [0x41], by decide, by simp [ValueFits]⟩,
    ⟨.field .numMacs, [1, 2], by decide, rfl⟩,
    ⟨.field .productName, [0x42, 0, 0x43], by decide, by simp [ValueFits]⟩]

theorem sysdProcessEeprom_image_sample :
    (sysdProcessEeprom (fun bytes => UInt32.ofNat bytes.length)
      (fun i => (image (fun bytes => UInt32.ofNat bytes.length) sampleHeader sampleTlvs).getD i 0)
      (totalLength fun i =>
        (image (fun bytes => UInt32.ofNat bytes.length) sampleHeader sampleTlvs).getD i 0)
      (fun _ => .byte 0)).1 = .accepted :=
  (sysdProcessEeprom_image (fun bytes => UInt32.ofNat bytes.length) sampleHeader sampleTlvs _
    (fun _ => .byte 0) (by decide) (holds_getD _) (by decide)).1

end OpsSysd.Fru
