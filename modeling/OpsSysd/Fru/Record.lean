import OpsSysd.Fru.Eeprom
import Mathlib.Tactic.Common

/-! Reading `fru_eeprom_t` back, field by field, and what an assignment leaves
alone. A field's content depends on its own bytes only. -/
namespace OpsSysd.Fru

open CLib

/-- What a reader of the record finds in a field. -/
inductive Content where
  | text (value : CString)
  | bytes (value : List UInt8)
  | number (value : Nat)
  deriving DecidableEq

/-- A fixed number of plain bytes. -/
def Memory.bytesAt (memory : Memory) : Nat → Nat → Option (List UInt8)
  | 0, _ => some []
  | count + 1, offset => match memory offset with
      | .pointer _ _ => none
      | .byte value => (memory.bytesAt count (offset + 1)).map (value :: ·)

/-- The bytes before the NUL of a fixed array, if there is one within bounds. -/
def Memory.textAt (memory : Memory) : Nat → Nat → Option (List UInt8)
  | 0, _ => none
  | bound + 1, offset => match memory offset with
      | .pointer _ _ => none
      | .byte value =>
          if value = 0 then some [] else (memory.textAt bound (offset + 1)).map (value :: ·)

/-- The block a pointer field points to. -/
def Memory.blockAt (memory : Memory) (offset : Nat) : Option (List UInt8) :=
  match memory offset with
  | .byte _ => none
  | .pointer block _ =>
      if ∀ i < pointerSize, memory (offset + i) = .pointer block i then some block else none

def Field.read (target : Field) (fru : Memory) : Option Content :=
  match target with
  | .countryCode | .manufactureDate =>
      (fru.textAt target.size target.offset).map fun text => .text (CString.cut text)
  | .deviceVersion | .baseMacAddress => (fru.bytesAt target.size target.offset).map .bytes
  -- little-endian in memory
  | .numMacs => (fru.bytesAt target.size target.offset).map fun value =>
      .number ((value.getD 1 0).toNat * 256 + (value.getD 0 0).toNat)
  | _ => (fru.blockAt target.offset).map fun block => .text (CString.cut block)

/-- What a TLV value says about its field: strings end at the first NUL, and
the number of MACs is big-endian. -/
def Field.decode (target : Field) (value : List UInt8) : Content :=
  match target with
  | .deviceVersion | .baseMacAddress => .bytes value
  | .numMacs => .number ((value.getD 0 0).toNat * 256 + (value.getD 1 0).toNat)
  | _ => .text (CString.cut value)

/-- Byte `i` of the record belongs to this field. -/
def Field.Owns (target : Field) (i : Nat) : Prop :=
  target.offset ≤ i ∧ i < target.offset + target.size

/-- Fields do not overlap. -/
theorem Field.not_owns_of_ne {target other : Field} (h : target ≠ other) {i : Nat}
    (owns : other.Owns i) : ¬ target.Owns i := by
  unfold Field.Owns at *
  revert h owns
  cases target <;> cases other <;>
    simp only [Field.offset, Field.size, countryCodeLen, deviceVersionLen, baseMacAddressLen,
      manufactureDateLen, numMacsLen, pointerSize] <;> intro h owns <;>
    first | exact absurd rfl h | omega

section Congr

variable {memory other : Memory}

theorem Memory.textAt_congr {bound offset : Nat}
    (h : ∀ i, offset ≤ i → i < offset + bound → memory i = other i) :
    memory.textAt bound offset = other.textAt bound offset := by
  induction bound generalizing offset with
  | zero => rfl
  | succ bound ih =>
      rw [Memory.textAt, Memory.textAt, h offset (Nat.le_refl _) (by omega),
        ih fun i hFrom hTo => h i (by omega) (by omega)]

theorem Memory.bytesAt_congr {count offset : Nat}
    (h : ∀ i, offset ≤ i → i < offset + count → memory i = other i) :
    memory.bytesAt count offset = other.bytesAt count offset := by
  induction count generalizing offset with
  | zero => rfl
  | succ count ih =>
      rw [Memory.bytesAt, Memory.bytesAt, h offset (Nat.le_refl _) (by omega),
        ih fun i hFrom hTo => h i (by omega) (by omega)]

theorem Memory.blockAt_congr {offset : Nat}
    (h : ∀ i < pointerSize, memory (offset + i) = other (offset + i)) :
    memory.blockAt offset = other.blockAt offset := by
  have hFirst : memory offset = other offset := h 0 (by decide)
  unfold Memory.blockAt
  rw [hFirst]
  cases other offset with
  | byte value => rfl
  | pointer block part =>
      have hAll : (∀ i < pointerSize, memory (offset + i) = .pointer block i) ↔
          ∀ i < pointerSize, other (offset + i) = .pointer block i :=
        forall₂_congr fun i hi => by rw [h i hi]
      simp only [hAll]

/-- What is read of a field depends on its own cells. -/
theorem Field.read_congr {target : Field} (h : ∀ i, target.Owns i → memory i = other i) :
    target.read memory = target.read other := by
  have hRange : ∀ i, target.offset ≤ i → i < target.offset + target.size → memory i = other i :=
    fun i hFrom hTo => h i ⟨hFrom, hTo⟩
  cases target with
  | countryCode | manufactureDate =>
      simp only [Field.read]
      rw [Memory.textAt_congr hRange]
  | deviceVersion | baseMacAddress | numMacs =>
      simp only [Field.read]
      rw [Memory.bytesAt_congr hRange]
  | _ =>
      simp only [Field.read]
      rw [Memory.blockAt_congr fun i hi => hRange _ (Nat.le_add_right _ _) (by
        simpa [Field.size] using hi)]

end Congr

/-- Lengths for which a value fills its field and nothing else. -/
def ValueFits : TlvType → Nat → Prop
  | .field .countryCode, n => n ≤ countryCodeLen
  | .field .manufactureDate, n => n ≤ manufactureDateLen
  | .field .baseMacAddress, n => n = baseMacAddressLen
  | .field .numMacs, n => n = numMacsLen
  | .field .deviceVersion, n => n = deviceVersionLen
  | _, n => n ≤ 255

/-- Lengths that leave room for the terminator in the fields that are arrays of
characters. -/
def FitsArray : TlvType → Nat → Prop
  | .field .countryCode, length => length ≤ countryCodeLen
  | .field .manufactureDate, length => length ≤ manufactureDateLen
  | _, _ => True

/-- A value that fits its field fits the array. -/
theorem ValueFits.fitsArray {kind : TlvType} {length : Nat} (fits : ValueFits kind length) :
    FitsArray kind length := by
  cases kind with
  | field target =>
      cases target with
      | countryCode | manufactureDate => exact fits
      | _ => trivial
  | vendorExtension | crc => trivial

section Store

variable {target : Field} {source : Nat → UInt8} {length : Nat}

/-- A value that leaves room for the terminator is stored inside its field. -/
theorem storeField_outside (fits : FitsArray (.field target) length) (fru : Memory) {i : Nat}
    (h : ¬ target.Owns i) : storeField target source length fru i = fru i := by
  unfold Field.Owns at h
  cases target with
  | countryCode | manufactureDate =>
      simp only [FitsArray, countryCodeLen, manufactureDateLen] at fits
      simp only [Field.size, countryCodeLen, manufactureDateLen] at h
      rw [storeField, store_terminated]
      exact Memory.store_outside fru (by simp; omega)
  | numMacs =>
      simp only [Field.size, numMacsLen] at h
      rw [storeField_numMacs]
      exact Memory.store_outside fru (by simp; omega)
  | deviceVersion | baseMacAddress =>
      simp only [Field.size, deviceVersionLen, baseMacAddressLen] at h
      exact Memory.store_outside fru (by simp [baseMacAddressLen]; omega)
  | _ =>
      simp only [Field.size, pointerSize] at h
      exact Memory.store_outside fru (by simp [pointerCells, pointerSize]; omega)

/-- Bytes with a terminator behind them are a text. -/
theorem Memory.textAt_of_bytes {memory : Memory} {bytes : List UInt8} {bound offset : Nat}
    (hBytes : ∀ i (hi : i < bytes.length), memory (offset + i) = .byte bytes[i])
    (hNul : memory (offset + bytes.length) = .byte 0) (hBound : bytes.length < bound) :
    ∃ text, memory.textAt bound offset = some text ∧ CString.cut text = CString.cut bytes := by
  induction bytes generalizing bound offset with
  | nil =>
      obtain ⟨bound, rfl⟩ : ∃ n, bound = n + 1 := ⟨bound - 1, by simp at hBound; omega⟩
      have hHead : memory offset = .byte 0 := hNul
      exact ⟨[], by rw [Memory.textAt, hHead]; rfl, rfl⟩
  | cons b bytes ih =>
      obtain ⟨bound, rfl⟩ : ∃ n, bound = n + 1 := ⟨bound - 1, by simp at hBound; omega⟩
      have hHead : memory offset = .byte b := hBytes 0 (Nat.succ_pos _)
      by_cases hb : b = 0
      · refine ⟨[], by rw [Memory.textAt, hHead]; simp [hb], ?_⟩
        simp [CString.cut, hb]
      · obtain ⟨text, hText, hCut⟩ := @ih bound (offset + 1)
          (fun i hi => by
            have hAt := hBytes (i + 1) (Nat.succ_lt_succ hi)
            rwa [show offset + 1 + i = offset + (i + 1) by omega])
          (by rwa [show offset + 1 + bytes.length = offset + (b :: bytes).length by simp; omega])
          (by simpa using hBound)
        refine ⟨b :: text, by rw [Memory.textAt, hHead]; simp [hb, hText], ?_⟩
        apply CString.ext
        simpa [CString.cut, hb] using congrArg CString.bytes hCut

/-- A terminated copy in an array reads back as the string copied. -/
theorem Memory.textAt_store (fru : Memory) (offset : Nat) {value : List UInt8} {bound : Nat}
    (hBound : value.length < bound) :
    ∃ text, (fru.store offset ((strncpy (fun i => value.getD i 0) value.length ++ [0]).map
        .byte)).textAt bound offset = some text ∧ CString.cut text = CString.cut value := by
  have hCut := cut_strncpy value [] (fun i => value.getD i 0) fun i hi => by simp [hi]
  rw [CString.cut_append_nul] at hCut
  rw [← hCut]
  apply Memory.textAt_of_bytes
  · intro i hi
    rw [Memory.store_inside _ (by simp at hi ⊢; omega), List.getElem_map,
      List.getElem_append_left hi]
  · rw [Memory.store_inside _ (by simp)]
    simp
  · simpa using hBound

theorem Memory.bytesAt_of_bytes {memory : Memory} {bytes : List UInt8} {offset : Nat}
    (hBytes : ∀ i (hi : i < bytes.length), memory (offset + i) = .byte bytes[i]) :
    memory.bytesAt bytes.length offset = some bytes := by
  induction bytes generalizing offset with
  | nil => rfl
  | cons b bytes ih =>
      have hHead : memory offset = .byte b := hBytes 0 (Nat.succ_pos _)
      rw [List.length_cons, Memory.bytesAt, hHead]
      simp only [ih fun i hi => by
        have hAt := hBytes (i + 1) (Nat.succ_lt_succ hi)
        rwa [show offset + 1 + i = offset + (i + 1) by omega], Option.map_some]

/-- Bytes that are stored read back. -/
theorem Memory.bytesAt_store (fru : Memory) (offset : Nat) (bytes : List UInt8) :
    (fru.store offset (bytes.map .byte)).bytesAt bytes.length offset = some bytes :=
  Memory.bytesAt_of_bytes fun i hi => by
    rw [Memory.store_inside _ (by simpa using hi), List.getElem_map]

/-- So does a block that is pointed to. -/
theorem Memory.blockAt_store (fru : Memory) (offset : Nat) (block : List UInt8) :
    (fru.store offset (pointerCells block)).blockAt offset = some block := by
  have hStored : ∀ i < pointerSize,
      (fru.store offset (pointerCells block)) (offset + i) = .pointer block i := fun i hi => by
    rw [Memory.store_inside _ (by simpa [pointerCells] using hi)]
    simp [pointerCells]
  unfold Memory.blockAt
  rw [show (fru.store offset (pointerCells block)) offset = .pointer block 0 from
    hStored 0 (by decide)]
  exact if_pos hStored

/-- A field reads back the value just stored in it. -/
theorem read_storeField {value : List UInt8} (fits : ValueFits (.field target) value.length)
    (fru : Memory) :
    target.read (storeField target (fun i => value.getD i 0) value.length fru) =
      some (target.decode value) := by
  cases target with
  | countryCode | manufactureDate =>
      simp only [ValueFits, countryCodeLen, manufactureDateLen] at fits
      obtain ⟨text, hText, hCut⟩ := Memory.textAt_store fru _
        (show value.length < _ from Nat.lt_succ_of_le fits)
      simp only [Field.read, storeField, store_terminated, Field.decode]
      exact congrArg _ hText |>.trans (by rw [Option.map_some, hCut])
  | deviceVersion =>
      obtain ⟨version, rfl⟩ := List.length_eq_one_iff.mp fits
      exact congrArg (Option.map Content.bytes) (Memory.bytesAt_store fru 3 [version])
  | baseMacAddress =>
      have hBytes : (List.range baseMacAddressLen).map (fun i => value.getD i 0) = value := by
        have hHolds := (holds_getD value).map_range
        rwa [show value.length = baseMacAddressLen from fits] at hHolds
      have hStore := Memory.bytesAt_store fru (Field.offset .baseMacAddress) value
      rw [show value.length = Field.size .baseMacAddress from fits] at hStore
      have hCells : (List.range baseMacAddressLen).map (fun i => Cell.byte (value.getD i 0)) =
          value.map Cell.byte := by
        calc _ = ((List.range baseMacAddressLen).map fun i => value.getD i 0).map Cell.byte :=
              List.map_map.symm
          _ = value.map Cell.byte := by rw [hBytes]
      simp only [Field.read, storeField, Field.decode]
      rw [hCells, hStore, Option.map_some]
  | numMacs =>
      obtain ⟨high, low, rfl⟩ := List.length_eq_two.mp fits
      rw [storeField_numMacs]
      exact congrArg (Option.map fun value : List UInt8 =>
        Content.number ((value.getD 1 0).toNat * 256 + (value.getD 0 0).toNat))
        (Memory.bytesAt_store fru (Field.offset .numMacs) [low, high])
  | _ =>
      have hCut := cut_strncpy value [] (fun i => value.getD i 0) fun i hi => by simp [hi]
      simp only [Field.read, storeField, Memory.blockAt_store, Option.map_some, mallocBlock, hCut,
        Field.decode]

end Store
end OpsSysd.Fru
