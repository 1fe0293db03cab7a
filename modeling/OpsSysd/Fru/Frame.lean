import OpsSysd.Fru.Extent
import OpsSysd.Fru.Record

/-! What a TLV changes in the record. The bytes that the switch writes for it
are those that come out different for some earlier content of the record. -/
namespace OpsSysd.Fru

open CLib

/-- Byte `i` of the record is written for this TLV. -/
def Writes (kind : TlvType) (value : Nat → UInt8) (length i : Nat) : Prop :=
  ∃ fru, (tlvEffect kind value length fru).1 i ≠ fru i

/-- The TLV has this field. -/
def TlvType.Assigned (kind : TlvType) (target : Field) : Prop := kind = .field target

/-- Everything written lies in the TLV's own field, and every other field keeps
its content. -/
def KeepsToField (kind : TlvType) (value : Nat → UInt8) (length : Nat) : Prop :=
  (∀ i, Writes kind value length i → ∃ target, kind.Assigned target ∧ target.Owns i) ∧
    ∀ other, ¬ kind.Assigned other → ∀ fru,
      other.read (tlvEffect kind value length fru).1 = other.read fru

section Switch

variable {target : Field} {kind : TlvType} {value : Nat → UInt8} {length : Nat} {fru : Memory} {i : Nat}

/-- The terminator of an array is always written, right after the declared
length. -/
theorem writes_terminator (h : target = .countryCode ∨ target = .manufactureDate) :
    Writes (.field target) value length (target.offset + length) := by
  refine ⟨fun _ => .byte 1, ?_⟩
  have hNul : storeField target value length (fun _ => .byte 1) (target.offset + length) = .byte 0 := by
    have hStored : ∀ earlier : Memory,
        earlier.store (target.offset + length) [.byte 0] (target.offset + length) = .byte 0 :=
      fun earlier => by simp [Memory.store]
    rcases h with rfl | rfl <;> exact hStored _
  change storeField target value length (fun _ => .byte 1) (target.offset + length) ≠ .byte 1
  rw [hNul]
  decide

/-- A TLV keeps to its field exactly when an array has room for its value and
the terminator. -/
theorem keepsToField_iff (kind : TlvType) (value : Nat → UInt8) (length : Nat) :
    KeepsToField kind value length ↔ FitsArray kind length := by
  constructor
  · rintro ⟨hWrites, -⟩
    have hArray : ∀ target, target = .countryCode ∨ target = .manufactureDate →
        kind = .field target → length < target.size := by
      rintro target hTarget rfl
      obtain ⟨other, hOther, hOwns⟩ := hWrites _ (writes_terminator hTarget)
      obtain rfl := TlvType.field.inj hOther
      have hRoom := hOwns.2
      omega
    cases kind with
    | vendorExtension | crc => trivial
    | field target =>
        cases target with
        | countryCode => exact Nat.le_of_lt_succ (hArray .countryCode (.inl rfl) rfl)
        | manufactureDate => exact Nat.le_of_lt_succ (hArray .manufactureDate (.inr rfl) rfl)
        | _ => trivial
  · intro fits
    cases kind with
    | vendorExtension | crc =>
        refine ⟨fun i hWrites => ?_, fun other _ fru => rfl⟩
        obtain ⟨fru, hChanged⟩ := hWrites
        exact absurd rfl hChanged
    | field target =>
        refine ⟨fun i hWrites => ⟨target, rfl, ?_⟩, fun other hOther fru => ?_⟩
        · obtain ⟨fru, hChanged⟩ := hWrites
          by_contra hOutside
          exact hChanged (storeField_outside fits fru hOutside)
        · have hNe : target ≠ other := fun hSame => hOther (congrArg TlvType.field hSame)
          exact Field.read_congr fun i hOwns =>
            storeField_outside fits fru (Field.not_owns_of_ne hNe hOwns)

end Switch

section Image

variable (crc32 : List UInt8 → UInt32) (buf : Nat → UInt8) (len : Nat)

/-- Every TLV that the parser comes to keeps to its field. -/
def TlvsKeepToFields : Prop :=
  ∀ idx, Visited crc32 buf len idx → idx < len →
    ∀ kind, TlvType.ofCode (tlvCode buf idx) = some kind →
      KeepsToField kind (tlvValue buf idx) (tlvLength buf idx)

variable {crc32 buf len}

/-- The parser keeps every TLV to its field exactly in the images without a
country code of more than two bytes or a date of more than nineteen. -/
theorem tlvsKeepToFields_iff (crc32 : List UInt8 → UInt32) (buf : Nat → UInt8) (len : Nat) :
    TlvsKeepToFields crc32 buf len ↔
      ∀ idx, Visited crc32 buf len idx → idx < len →
        (TlvType.ofCode (tlvCode buf idx) = some (.field .countryCode) → tlvLength buf idx ≤ 2) ∧
        (TlvType.ofCode (tlvCode buf idx) = some (.field .manufactureDate) →
          tlvLength buf idx ≤ 19) := by
  constructor
  · intro hKeeps idx visited hIdx
    refine ⟨fun hKind => ?_, fun hKind => ?_⟩
    · exact (keepsToField_iff _ _ _).mp (hKeeps idx visited hIdx _ hKind)
    · exact (keepsToField_iff _ _ _).mp (hKeeps idx visited hIdx _ hKind)
  · intro hFits idx visited hIdx kind hKind
    rw [keepsToField_iff]
    unfold FitsArray
    split
    · exact (hFits idx visited hIdx).1 hKind
    · exact (hFits idx visited hIdx).2 hKind
    · trivial

/-- A country code of three bytes: its terminator goes to the device version. -/
theorem long_countryCode_not_keepsToField :
    ¬ TlvsKeepToFields (fun _ => 0) (fun i => if i = 11 then 0x2c else if i = 12 then 3 else 0x41) 5 := by
  intro hKeeps
  have hCode := hKeeps 0 .first (by decide) (.field .countryCode) (by decide)
  have hFits : 3 ≤ countryCodeLen := (keepsToField_iff _ _ _).mp hCode
  exact absurd hFits (by decide)

end Image
end OpsSysd.Fru
