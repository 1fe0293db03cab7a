import OpsSysd.Fru.Walk

/-! What an accepted image says about its checksum. The loop compares a
checksum only when it meets a CRC TLV, wherever that stands and whatever length
it declares. -/
namespace OpsSysd.Fru

open CLib

section Integrity

variable (crc32 : List UInt8 → UInt32) (buf : Nat → UInt8) (len : Nat)

/-- The checksum of the first bytes of the image, header included. -/
def crcOfFirst (count : Nat) : UInt32 := crc32 ((List.range count).map buf)

/-- The walk ends with this TLV. -/
def LastTlv (idx : Nat) : Prop :=
  Visited crc32 buf len idx ∧ idx < len ∧ len ≤ idx + skip buf idx

/-- A CRC TLV of length 4. -/
def CrcTlv (idx : Nat) : Prop :=
  TlvType.ofCode (tlvCode buf idx) = some .crc ∧ tlvLength buf idx = 4

/-- The last TLV is a CRC TLV of length 4 carrying the checksum of every byte
before its value. -/
def ChecksummedLast : Prop :=
  ∃ idx, LastTlv crc32 buf len idx ∧ CrcTlv buf idx ∧
    foundCrc (tlvValue buf idx) = crcOfFirst crc32 buf (headerSize + idx + 2)

/-- The image either stops the parser at a TLV the switch rejects, or ends in a
CRC TLV of length 4. If that TLV overshoots the area, the parser's extent
differs from the bytes before the value, and the two must have one checksum. -/
def ProtectedImage : Prop :=
  (∃ idx, Visited crc32 buf len idx ∧ idx < len ∧ ¬ Accepted crc32 buf len idx) ∨
  ∃ idx, LastTlv crc32 buf len idx ∧ CrcTlv buf idx ∧
    crcOfFirst crc32 buf (len + headerSize - 4) = crcOfFirst crc32 buf (headerSize + idx + 2)

variable {crc32 buf len}

/-- For a CRC TLV of length 4, the compared extent is all but the last four
bytes of header and TLV area. -/
theorem CrcTlv.crcMatches_iff {idx : Nat} (crcTlv : CrcTlv buf idx) (hLen : len < 2 ^ 16) :
    crcMatches crc32 buf len idx = true ↔
      crcOfFirst crc32 buf (len + headerSize - 4) = foundCrc (tlvValue buf idx) := by
  have hExtent : crcExtent (crcLen buf len idx) = len + headerSize - 4 := by
    rw [crcExtent, crcLen, crcTlv.2]
    unfold headerSize
    omega
  have hBlock : len + headerSize - 4 ≤ len + headerSize + 1 := by omega
  simp only [crcMatches, calcCrc, hExtent, if_pos hBlock, crcOfFirst, decide_eq_true_eq,
    Option.some.injEq]

/-- A checksum TLV is accepted if it matches. -/
theorem CrcTlv.accepted_iff {idx : Nat} (crcTlv : CrcTlv buf idx) :
    Accepted crc32 buf len idx ↔ crcMatches crc32 buf len idx = true := by
  constructor
  · rintro ⟨kind, hKind, hCrc⟩
    rw [crcTlv.1, Option.some.injEq] at hKind
    exact hCrc hKind.symm
  · exact fun hMatch => ⟨.crc, crcTlv.1, fun _ => hMatch⟩

/-- Acceptance implies integrity for exactly these images. -/
theorem accepted_checksummed_iff (crc32 : List UInt8 → UInt32) (buf : Nat → UInt8) (len : UInt16)
    (fru : Memory) :
    ((sysdProcessEeprom crc32 buf len.toNat fru).1 = .accepted →
        ChecksummedLast crc32 buf len.toNat) ↔
      ProtectedImage crc32 buf len.toNat := by
  have hLen : len.toNat < 2 ^ 16 := len.toNat_lt
  change ((processTlvs crc32 buf len.toNat 0 fru).1 = .accepted → _) ↔ _
  rw [processTlvs_eq_accepted_iff]
  constructor
  · intro hIntegrity
    by_cases hAll : ∀ idx, Visited crc32 buf len.toNat idx → idx < len.toNat →
        Accepted crc32 buf len.toNat idx
    · obtain ⟨idx, hLast, hCrc, hFound⟩ := hIntegrity hAll
      have hMatch := hCrc.accepted_iff.mp (hAll idx hLast.1 hLast.2.1)
      exact .inr ⟨idx, hLast, hCrc, ((hCrc.crcMatches_iff hLen).mp hMatch).trans hFound⟩
    · simp only [not_forall] at hAll
      obtain ⟨idx, visited, hIdx, rejected⟩ := hAll
      exact .inl ⟨idx, visited, hIdx, rejected⟩
  · rintro (⟨idx, visited, hIdx, rejected⟩ | ⟨idx, hLast, hCrc, hSame⟩) hAll
    · exact absurd (hAll idx visited hIdx) rejected
    · have hMatch := hCrc.accepted_iff.mp (hAll idx hLast.1 hLast.2.1)
      exact ⟨idx, hLast, hCrc, ((hCrc.crcMatches_iff hLen).mp hMatch).symm.trans hSame⟩

/-- An image with an empty TLV area is accepted. -/
theorem empty_image_accepted :
    ¬ ((sysdProcessEeprom (fun _ => 0) (fun _ => 0) 0 (fun _ => .byte 0)).1 = .accepted →
      ChecksummedLast (fun _ => 0) (fun _ => 0) 0) := by
  intro hIntegrity
  have hTrue : (processTlvs (fun _ => 0) (fun _ => 0) 0 0 (fun _ => .byte 0)).1 = .accepted :=
    (processTlvs_past_end .first (Nat.le_refl 0) _).1
  obtain ⟨idx, ⟨-, hIdx, -⟩, -⟩ := hIntegrity hTrue
  exact absurd hIdx (Nat.not_lt_zero idx)

end Integrity
end OpsSysd.Fru
