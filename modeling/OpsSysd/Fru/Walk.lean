import OpsSysd.Fru.Eeprom
import Mathlib.Logic.Function.Basic

/-! Which parts of an image the parser uses. The walk over the TLV area is a
chain of indices fixed by the image alone; the loop stops at its end or at the
first TLV the switch rejects. -/
namespace OpsSysd.Fru

open CLib

section Walk

variable (crc32 : List UInt8 → UInt32) (buf : Nat → UInt8) (len : Nat)

/-- The switch falls through to the skip, rather than returning false. -/
def Accepted (idx : Nat) : Prop :=
  ∃ kind, TlvType.ofCode (tlvCode buf idx) = some kind ∧
    (kind = .crc → crcMatches crc32 buf len idx = true)

/-- A CRC TLV whose checksum would cover more than the block. -/
def Overreads (idx : Nat) : Prop :=
  TlvType.ofCode (tlvCode buf idx) = some .crc ∧
    len + headerSize + 1 < crcExtent (crcLen buf len idx)

/-- Indices at which the loop evaluates its condition. -/
inductive Visited : Nat → Prop where
  | first : Visited 0
  | next {idx : Nat} (prior : Visited idx) (hIdx : idx < len)
      (accepted : Accepted crc32 buf len idx) : Visited (idx + skip buf idx)

variable {crc32 buf len}

/-- An accepted TLV is taken into the record. -/
theorem switchTlv_some {idx : Nat} (accepted : Accepted crc32 buf len idx) (fru : Memory) :
    ∃ fru', switchTlv crc32 buf len idx fru = .ok fru' := by
  obtain ⟨kind, hKind, hCrc⟩ := accepted
  unfold switchTlv
  cases kind with
  | field target => exact ⟨_, by rw [hKind]⟩
  | vendorExtension => exact ⟨fru, by rw [hKind]⟩
  | crc =>
      have hMatch := of_decide_eq_true (hCrc rfl)
      exact ⟨fru, by rw [hKind]; simp [hMatch]⟩

/-- The loop reaches every visited index. -/
theorem processTlvs_visited {idx : Nat} (visited : Visited crc32 buf len idx) (fru : Memory) :
    ∃ fru', processTlvs crc32 buf len 0 fru = processTlvs crc32 buf len idx fru' := by
  induction visited with
  | first => exact ⟨fru, rfl⟩
  | @next idx prior hIdx accepted ih =>
      obtain ⟨middle, hMiddle⟩ := ih
      obtain ⟨fru', hSwitch⟩ := switchTlv_some accepted middle
      refine ⟨fru', hMiddle.trans ?_⟩
      rw [processTlvs, if_pos hIdx, hSwitch]

/-- The walk accepts when it has come to the end. -/
theorem processTlvs_past_end {idx : Nat} (visited : Visited crc32 buf len idx) (hIdx : len ≤ idx)
    (fru : Memory) :
    (processTlvs crc32 buf len 0 fru).1 = .accepted ∧ (processTlvs crc32 buf len 0 fru).2.1 = idx := by
  obtain ⟨fru', hRun⟩ := processTlvs_visited visited fru
  rw [hRun, processTlvs, if_neg (by omega)]
  exact ⟨rfl, rfl⟩

/-- Where the switch does not fall through, it says why. -/
theorem switchTlv_error {idx : Nat} (rejected : ¬ Accepted crc32 buf len idx) (fru : Memory) :
    ∃ verdict, switchTlv crc32 buf len idx fru = .error verdict ∧ verdict ≠ .accepted ∧
      (verdict = .overread ↔ Overreads buf len idx) := by
  unfold switchTlv
  cases hKind : TlvType.ofCode (tlvCode buf idx) with
  | none =>
      refine ⟨.rejected, rfl, by decide, ⟨fun h => absurd h (by decide), fun overreads => ?_⟩⟩
      exact absurd (hKind.symm.trans overreads.1) (by simp)
  | some kind =>
      obtain rfl : kind = .crc := by
        by_contra hOther
        exact rejected ⟨kind, hKind, fun hCrc => absurd hCrc hOther⟩
      by_cases hExtent : crcExtent (crcLen buf len idx) ≤ len + headerSize + 1
      · have hDiffers : crc32 ((List.range (crcExtent (crcLen buf len idx))).map buf) ≠
            foundCrc (tlvValue buf idx) := by
          intro hSame
          refine rejected ⟨.crc, hKind, fun _ => ?_⟩
          simp [crcMatches, calcCrc, hExtent, hSame]
        refine ⟨.rejected, by simp [calcCrc, hExtent, hDiffers], by decide,
          ⟨fun h => absurd h (by decide), ?_⟩⟩
        exact fun overreads => absurd hExtent (Nat.not_le.mpr overreads.2)
      · refine ⟨.overread, by simp [calcCrc, hExtent], by decide, ?_⟩
        exact ⟨fun _ => ⟨hKind, Nat.not_le.mp hExtent⟩, fun _ => rfl⟩

/-- It does not where a TLV on its way is not accepted. -/
theorem processTlvs_rejected {idx : Nat} (visited : Visited crc32 buf len idx) (hIdx : idx < len)
    (rejected : ¬ Accepted crc32 buf len idx) (fru : Memory) :
    (processTlvs crc32 buf len 0 fru).1 ≠ .accepted ∧
      ((processTlvs crc32 buf len 0 fru).1 = .overread ↔ Overreads buf len idx) := by
  obtain ⟨fru', hRun⟩ := processTlvs_visited visited fru
  obtain ⟨verdict, hSwitch, hVerdict⟩ := switchTlv_error rejected fru'
  rw [hRun, processTlvs, if_pos hIdx, hSwitch]
  exact hVerdict

/-- The loop always comes to an end of the walk. -/
theorem exists_stop (crc32 : List UInt8 → UInt32) (buf : Nat → UInt8) (len : Nat) :
    ∃ idx, Visited crc32 buf len idx ∧ (len ≤ idx ∨ idx < len ∧ ¬ Accepted crc32 buf len idx) := by
  suffices h : ∀ remaining idx, len - idx ≤ remaining → Visited crc32 buf len idx →
      ∃ idx, Visited crc32 buf len idx ∧ (len ≤ idx ∨ idx < len ∧ ¬ Accepted crc32 buf len idx) from
    h len 0 (by omega) .first
  intro remaining
  induction remaining with
  | zero => exact fun idx hIdx visited => ⟨idx, visited, .inl (by omega)⟩
  | succ remaining ih =>
      intro idx hIdx visited
      by_cases hEnd : len ≤ idx
      · exact ⟨idx, visited, .inl hEnd⟩
      by_cases accepted : Accepted crc32 buf len idx
      · exact ih (idx + skip buf idx) (by unfold skip; omega) (visited.next (by omega) accepted)
      · exact ⟨idx, visited, .inr ⟨by omega, accepted⟩⟩

/-- The image is accepted exactly when no visited TLV is rejected. -/
theorem processTlvs_eq_accepted_iff (fru : Memory) :
    (processTlvs crc32 buf len 0 fru).1 = .accepted ↔
      ∀ idx, Visited crc32 buf len idx → idx < len → Accepted crc32 buf len idx := by
  constructor
  · intro hAccepted idx visited hIdx
    by_contra rejected
    exact (processTlvs_rejected visited hIdx rejected fru).1 hAccepted
  · intro hAll
    obtain ⟨idx, visited, hStop | ⟨hIdx, rejected⟩⟩ := exists_stop crc32 buf len
    · exact (processTlvs_past_end visited hStop fru).1
    · exact absurd (hAll idx visited hIdx) rejected

/-- A checksum over bytes that are not there accepts nothing. -/
theorem Overreads.not_accepted {idx : Nat} (overreads : Overreads buf len idx) :
    ¬ Accepted crc32 buf len idx := by
  rintro ⟨kind, hKind, hCrc⟩
  obtain rfl := Option.some.inj (hKind.symm.trans overreads.1)
  have hMatch := hCrc rfl
  rw [crcMatches, calcCrc, if_neg (Nat.not_le.mpr overreads.2)] at hMatch
  exact absurd hMatch (by simp)

/-- The parser reads from behind the block exactly when it comes to such a TLV. -/
theorem processTlvs_eq_overread_iff (fru : Memory) :
    (processTlvs crc32 buf len 0 fru).1 = .overread ↔
      ∃ idx, Visited crc32 buf len idx ∧ idx < len ∧ Overreads buf len idx := by
  constructor
  · intro hOverread
    obtain ⟨idx, visited, hStop | ⟨hIdx, rejected⟩⟩ := exists_stop crc32 buf len
    · rw [(processTlvs_past_end visited hStop fru).1] at hOverread
      cases hOverread
    · exact ⟨idx, visited, hIdx, (processTlvs_rejected visited hIdx rejected fru).2.mp hOverread⟩
  · rintro ⟨idx, visited, hIdx, overreads⟩
    exact (processTlvs_rejected visited hIdx overreads.not_accepted fru).2.mpr overreads

/-- With a length of two bytes that is a TLV that declares more than the header
and the TLV area hold. -/
theorem overreads_iff (hLen : len < 2 ^ 16) {idx : Nat} : Overreads buf len idx ↔
    TlvType.ofCode (tlvCode buf idx) = some .crc ∧ len + headerSize < tlvLength buf idx := by
  have hByte : tlvLength buf idx < 2 ^ 8 := UInt8.toNat_lt _
  refine and_congr_right fun _ => ?_
  unfold crcExtent crcLen headerSize
  omega

end Walk

end OpsSysd.Fru
