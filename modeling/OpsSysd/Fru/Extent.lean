import OpsSysd.Fru.Walk

/-! Does the parser stay inside what an image declares? A value byte is used
when changing it can change what the switch does with the TLV. -/
namespace OpsSysd.Fru

open CLib

/-- What one TLV contributes: the record after it, and for a CRC TLV the
checksum it carries. -/
def tlvEffect (kind : TlvType) (value : Nat → UInt8) (length : Nat) (fru : Memory) :
    Memory × Option UInt32 :=
  match kind with
  | .field target => (storeField target value length fru, none)
  | .vendorExtension => (fru, none)
  | .crc => (fru, some (foundCrc value))

/-- The switch applies exactly this effect, unless the checksum differs or
cannot be had. -/
theorem switchTlv_effect (crc32 : List UInt8 → UInt32) (buf : Nat → UInt8) (len idx : Nat)
    (fru fru' : Memory) :
    switchTlv crc32 buf len idx fru = .ok fru' ↔
      ∃ kind, TlvType.ofCode (tlvCode buf idx) = some kind ∧
        let effect := tlvEffect kind (tlvValue buf idx) (tlvLength buf idx) fru
        effect.1 = fru' ∧
          ∀ found, effect.2 = some found → calcCrc crc32 buf len (crcLen buf len idx) = some found := by
  unfold switchTlv
  cases TlvType.ofCode (tlvCode buf idx) with
  | none => simp
  | some kind =>
      cases kind with
      | field target | vendorExtension => simp [tlvEffect]
      | crc =>
          cases calcCrc crc32 buf len (crcLen buf len idx) with
          | none => simp [tlvEffect]
          | some chksum => by_cases hSame : chksum = foundCrc (tlvValue buf idx) <;> simp [tlvEffect, hSame]

/-- Byte `j` of the value influences a field or the checksum comparison. -/
def Influences (kind : TlvType) (value : Nat → UInt8) (length j : Nat) : Prop :=
  ∃ byte fru, tlvEffect kind (Function.update value j byte) length fru ≠
    tlvEffect kind value length fru

/-- Bytes the switch reads whatever the length byte says. -/
def fixedLength : TlvType → Nat
  | .field .numMacs => numMacsLen
  | .field .baseMacAddress => baseMacAddressLen
  | .field .deviceVersion => deviceVersionLen
  | .crc => 4
  | _ => 0

/-- What is stored depends on the declared bytes and the ones read in any case. -/
theorem storeField_congr {target : Field} {value other : Nat → UInt8} {length : Nat}
    (h : ∀ i, i < length ∨ i < fixedLength (.field target) → value i = other i) (fru : Memory) :
    storeField target value length fru = storeField target other length fru := by
  have hCopy : strncpy value length = strncpy other length :=
    strncpy_congr fun i hi => h i (.inl hi)
  cases target with
  | numMacs => simp only [storeField, h 0 (.inr (by decide)), h 1 (.inr (by decide))]
  | deviceVersion => simp only [storeField, h 0 (.inr (by decide))]
  | baseMacAddress =>
      simp only [storeField]
      congr 1
      exact List.map_congr_left fun i hi =>
        congrArg Cell.byte (h i (.inr (by simpa [fixedLength] using hi)))
  | manufactureDate | countryCode =>
      simp only [storeField, store_terminated, hCopy]
  | _ => simp only [storeField, mallocBlock, hCopy]

/-- The checksum that is found depends on four bytes. -/
theorem foundCrc_congr {value other : Nat → UInt8} (h : ∀ i < 4, value i = other i) :
    foundCrc value = foundCrc other := by
  unfold foundCrc
  rw [h 0 (by omega), h 1 (by omega), h 2 (by omega), h 3 (by omega)]

/-- No byte beyond the declared and the fixed length has any influence. -/
theorem Influences.bound {kind : TlvType} {value : Nat → UInt8} {length j : Nat}
    (influences : Influences kind value length j) :
    j < fixedLength kind ∨ kind ≠ .crc ∧ j < length := by
  by_contra hOutside
  obtain ⟨byte, fru, hEffect⟩ := influences
  have hSame : ∀ i, i ≠ j → Function.update value j byte i = value i := fun i hi =>
    Function.update_of_ne hi _ _
  apply hEffect
  cases kind with
  | vendorExtension => rfl
  | crc =>
      have hj : 4 ≤ j := by simpa [fixedLength] using hOutside
      simp only [tlvEffect]
      rw [foundCrc_congr fun i hi => hSame i (by omega)]
  | field target =>
      have hj : ¬ j < fixedLength (.field target) ∧ ¬ j < length := by simpa using hOutside
      have hUsed : ∀ i, i < length ∨ i < fixedLength (.field target) →
          Function.update value j byte i = value i :=
        fun i hi => hSame i (by rintro rfl; exact hi.elim hj.2 hj.1)
      simp only [tlvEffect, storeField_congr hUsed]

theorem foundCrc_mod (value : Nat → UInt8) : (foundCrc value).toNat % 256 = (value 3).toNat := by
  have h3 := (value 3).toNat_lt
  rw [foundCrc_eq, UInt32.toNat_ofNat']
  omega

/-- The last byte of a fixed-length value always matters. -/
theorem influences_fixed {kind : TlvType} (value : Nat → UInt8) (length : Nat)
    (hFixed : 0 < fixedLength kind) : Influences kind value length (fixedLength kind - 1) := by
  refine ⟨value (fixedLength kind - 1) + 1, fun _ => .byte 0, fun hSame => ?_⟩
  have hNext : ∀ b : UInt8, b + 1 ≠ b := by simp
  cases kind with
  | vendorExtension => simp [fixedLength] at hFixed
  | crc =>
      have hCrc : foundCrc (Function.update value 3 (value 3 + 1)) = foundCrc value := by
        simpa [tlvEffect, fixedLength] using hSame
      have hMod := congrArg (·.toNat % 256) hCrc
      simp only [foundCrc_mod, Function.update_self] at hMod
      exact hNext _ (UInt8.toNat_inj.mp hMod)
  | field target =>
      have hStore := congrArg Prod.fst hSame
      cases target with
      | numMacs =>
          have hLow := congrFun hStore (Field.offset .numMacs)
          simp [tlvEffect, storeField_numMacs, fixedLength, numMacsLen, Memory.store] at hLow
      | baseMacAddress =>
          have hLast := congrFun hStore (Field.offset .baseMacAddress + 5)
          simp [tlvEffect, storeField, fixedLength, baseMacAddressLen, Memory.store] at hLast
      | deviceVersion =>
          have hByte := congrFun hStore (Field.offset .deviceVersion)
          simp [tlvEffect, storeField, fixedLength, deviceVersionLen, Memory.store] at hByte
      | _ => simp [fixedLength] at hFixed

section DeclaredExtents

variable (crc32 : List UInt8 → UInt32) (buf : Nat → UInt8) (len : Nat)

/-- The code, the length and every value byte in use lie in the TLV's declared
extent and before the end of the TLV area, and a checksum is over bytes before
that end. -/
structure UsesOwnExtent (idx : Nat) : Prop where
  header : idx + 1 < len
  value : ∀ kind, TlvType.ofCode (tlvCode buf idx) = some kind →
    ∀ j, Influences kind (tlvValue buf idx) (tlvLength buf idx) j →
      j < tlvLength buf idx ∧ idx + 2 + j < len
  checksum : TlvType.ofCode (tlvCode buf idx) = some .crc →
    ∀ j < crcExtent (crcLen buf len idx), j < headerSize + len

/-- Nothing outside the declared extents is used, and an accepted image is
tiled by its TLVs. -/
def StaysInside (fru : Memory) : Prop :=
  (∀ idx, Visited crc32 buf len idx → idx < len → UsesOwnExtent buf len idx) ∧
  ((processTlvs crc32 buf len 0 fru).1 = .accepted → (processTlvs crc32 buf len 0 fru).2.1 = len)

/-- The TLV is framed as its code needs: both leading bytes are there, the
length covers what the code always reads, and unless a checksum mismatch ends
the walk here, the declared extent ends inside the TLV area. A CRC TLV does not
declare more than the header and the TLV area hold. -/
structure Framed (idx : Nat) : Prop where
  header : idx + 1 < len
  value : ∀ kind, TlvType.ofCode (tlvCode buf idx) = some kind →
    fixedLength kind ≤ tlvLength buf idx ∧ idx + 2 + fixedLength kind ≤ len ∧
    ((kind = .crc → crcMatches crc32 buf len idx = true) → idx + 2 + tlvLength buf idx ≤ len)
  checksum : TlvType.ofCode (tlvCode buf idx) = some .crc → tlvLength buf idx ≤ len + headerSize

variable {crc32 buf len}

/-- What `calc_crc` covers ends with the image unless the length is negative. -/
theorem checksum_inside_iff (hLen : len < 2 ^ 16) (idx : Nat) :
    (∀ j < crcExtent (crcLen buf len idx), j < headerSize + len) ↔
      tlvLength buf idx ≤ len + headerSize := by
  have hByte : tlvLength buf idx < 2 ^ 8 := UInt8.toNat_lt _
  constructor
  · intro hInside
    by_contra hNegative
    have hBehind := hInside (headerSize + len) (by unfold crcExtent crcLen headerSize at *; omega)
    omega
  · intro hDeclared j hj
    unfold crcExtent crcLen at hj
    omega

/-- A framed TLV uses no byte outside it. -/
theorem Framed.usesOwnExtent (hLen : len < 2 ^ 16) {idx : Nat} (framed : Framed crc32 buf len idx) :
    UsesOwnExtent buf len idx where
  header := framed.header
  value kind hKind j influences := by
    obtain ⟨hFixed, hFixedEnd, hEnd⟩ := framed.value kind hKind
    rcases influences.bound with hj | ⟨hCrc, hj⟩
    · exact ⟨by omega, by omega⟩
    · have hExtent := hEnd fun h => absurd h hCrc
      exact ⟨hj, by omega⟩
  checksum hCrc := (checksum_inside_iff hLen idx).mpr (framed.checksum hCrc)

/-- A framed walk never jumps over the end. -/
theorem Visited.le_of_framed
    (framed : ∀ idx, Visited crc32 buf len idx → idx < len → Framed crc32 buf len idx)
    {idx : Nat} (visited : Visited crc32 buf len idx) : idx ≤ len := by
  cases visited with
  | first => exact Nat.zero_le len
  | @next prior hPrior hIdx accepted =>
      obtain ⟨kind, hKind, hCrc⟩ := accepted
      have hEnd := ((framed prior hPrior hIdx).value kind hKind).2.2 hCrc
      unfold skip
      omega

/-- The parser keeps inside exactly the images in which every TLV it comes to
is framed. -/
theorem staysInside_iff (crc32 : List UInt8 → UInt32) (buf : Nat → UInt8) (len : UInt16)
    (fru : Memory) :
    StaysInside crc32 buf len.toNat fru ↔
      ∀ idx, Visited crc32 buf len.toNat idx → idx < len.toNat →
        Framed crc32 buf len.toNat idx := by
  have hLen : len.toNat < 2 ^ 16 := len.toNat_lt
  constructor
  · rintro ⟨hUses, hTiles⟩ idx visited hIdx
    obtain ⟨hLengthByte, hValue, hChecksum⟩ := hUses idx visited hIdx
    refine ⟨hLengthByte, fun kind hKind => ?_, fun hCrc =>
      (checksum_inside_iff hLen idx).mp (hChecksum hCrc)⟩
    have hFixed : fixedLength kind ≤ tlvLength buf idx ∧
        idx + 2 + fixedLength kind ≤ len.toNat := by
      rcases Nat.eq_zero_or_pos (fixedLength kind) with hNone | hSome
      · omega
      · have hLast := hValue kind hKind _ (influences_fixed _ _ hSome)
        omega
    refine ⟨hFixed.1, hFixed.2, fun hCrc => ?_⟩
    -- An overshooting skip would end the loop beyond `len`.
    by_contra hOver
    have hEnd := visited.next hIdx ⟨kind, hKind, hCrc⟩
    obtain ⟨hTrue, hFinal⟩ := processTlvs_past_end hEnd (by unfold skip; omega) fru
    have hStop := hTiles hTrue
    rw [hFinal] at hStop
    unfold skip at hStop
    omega
  · intro framed
    refine ⟨fun idx visited hIdx => (framed idx visited hIdx).usesOwnExtent hLen, fun hTrue => ?_⟩
    obtain ⟨idx, visited, hStop | ⟨hIdx, rejected⟩⟩ := exists_stop crc32 buf len.toNat
    · rw [(processTlvs_past_end visited hStop fru).2]
      exact Nat.le_antisymm (visited.le_of_framed framed) hStop
    · exact absurd ((processTlvs_eq_accepted_iff fru).mp hTrue idx visited hIdx) rejected

/-- A base MAC address TLV of two bytes at the end of the area: six bytes are
copied, four of them from behind the image. -/
theorem short_mac_not_staysInside :
    ¬ StaysInside (fun _ => 0) (fun i => if i = 11 then 0x24 else if i = 12 then 2 else 0) 4
      (fun _ => .byte 0) := by
  intro hInside
  have hUses := hInside.1 0 .first (by decide)
  have hLast := hUses.value (.field .baseMacAddress) (by decide) 5 (influences_fixed _ _ (by decide))
  exact absurd hLast.1 (by decide)

end DeclaredExtents
end OpsSysd.Fru
