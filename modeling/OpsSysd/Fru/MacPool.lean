import OpsSysd.Fru.Extent
import OpsSysd.Fru.Subsystem
import Mathlib.Data.List.Nodup
import Mathlib.Data.Nat.Digits.Defs

/-! The pool of MAC addresses that is handed out from a FRU record: which
addresses it consists of, and when they stay with the vendor. -/
namespace OpsSysd.Fru

open CLib

/-- The number that these bytes write, the most significant first. -/
def bigEndian (bytes : List UInt8) : Nat := Nat.ofDigits 256 (bytes.reverse.map UInt8.toNat)

/-- A number is below what its bytes can hold. -/
theorem bigEndian_lt (bytes : List UInt8) : bigEndian bytes < 256 ^ bytes.length := by
  have hDigits : ∀ digit ∈ bytes.reverse.map UInt8.toNat, digit < 256 := by
    intro digit hDigit
    obtain ⟨byte, -, rfl⟩ := List.mem_map.mp hDigit
    exact byte.toNat_lt
  have hLt := Nat.ofDigits_lt_base_pow_length (by decide) hDigits
  rwa [List.length_map, List.length_reverse] at hLt

section Plain

variable {fru : Memory}

/-- Only the pointer fields hold pointers. -/
def Plain (fru : Memory) : Prop :=
  ∀ i, (∀ target : Field, target.size = pointerSize → ¬ target.Owns i) → ∃ value, fru i = .byte value

/-- A cell is as it was or one of those stored. -/
theorem Memory.store_cases (fru : Memory) (offset : Nat) (cells : List Cell) (i : Nat) :
    fru.store offset cells i = fru i ∨
      offset ≤ i ∧ i < offset + cells.length ∧ fru.store offset cells i ∈ cells := by
  by_cases hOutside : i < offset ∨ offset + cells.length ≤ i
  · exact .inl (Memory.store_outside fru hOutside)
  · obtain ⟨j, rfl⟩ : ∃ j, i = offset + j := ⟨i - offset, by omega⟩
    have hInside : j < cells.length := by omega
    rw [Memory.store_inside fru hInside]
    exact .inr ⟨by omega, by omega, List.getElem_mem hInside⟩

/-- Storing bytes leaves the address plain bytes. -/
theorem Plain.store_bytes (plain : Plain fru) (offset : Nat) {cells : List Cell}
    (hBytes : ∀ cell ∈ cells, ∃ value, cell = .byte value) : Plain (fru.store offset cells) := by
  intro i hPlain
  cases Memory.store_cases fru offset cells i with
  | inl hSame => exact hSame ▸ plain i hPlain
  | inr hStored => exact hBytes _ hStored.2.2

/-- So does storing a list of them. -/
theorem Plain.store_map (plain : Plain fru) (offset : Nat) (bytes : List UInt8) :
    Plain (fru.store offset (bytes.map .byte)) := by
  apply plain.store_bytes
  intro cell hCell
  obtain ⟨value, -, rfl⟩ := List.mem_map.mp hCell
  exact ⟨value, rfl⟩

/-- And storing a pointer elsewhere. -/
theorem Plain.store_pointer (plain : Plain fru) {target : Field} (h : target.size = pointerSize)
    (block : List UInt8) : Plain (fru.store target.offset (pointerCells block)) := by
  intro i hPlain
  cases Memory.store_cases fru target.offset (pointerCells block) i with
  | inl hSame => exact hSame ▸ plain i hPlain
  | inr hStored =>
      have hOwns : target.Owns i := ⟨hStored.1, by simpa [pointerCells, h] using hStored.2.1⟩
      exact absurd hOwns (hPlain target h)

theorem storeField_plain (plain : Plain fru) (target : Field) (value : Nat → UInt8) (length : Nat) :
    Plain (storeField target value length fru) := by
  cases target with
  | numMacs => exact plain.store_map _ [_, _]
  | baseMacAddress =>
      apply plain.store_bytes
      simp
  | deviceVersion => exact plain.store_map _ [_]
  | manufactureDate | countryCode => exact (plain.store_map _ _).store_map _ [0]
  | diagVersion => exact @Plain.store_pointer fru plain .diagVersion rfl _
  | labelRevision => exact @Plain.store_pointer fru plain .labelRevision rfl _
  | manufacturer => exact @Plain.store_pointer fru plain .manufacturer rfl _
  | onieVersion => exact @Plain.store_pointer fru plain .onieVersion rfl _
  | partNumber => exact @Plain.store_pointer fru plain .partNumber rfl _
  | platformName => exact @Plain.store_pointer fru plain .platformName rfl _
  | productName => exact @Plain.store_pointer fru plain .productName rfl _
  | serialNumber => exact @Plain.store_pointer fru plain .serialNumber rfl _
  | serviceTag => exact @Plain.store_pointer fru plain .serviceTag rfl _
  | vendor => exact @Plain.store_pointer fru plain .vendor rfl _

/-- A TLV leaves the address plain bytes. -/
theorem switchTlv_plain {crc32 : List UInt8 → UInt32} {buf : Nat → UInt8} {len idx : Nat}
    {fru' : Memory} (plain : Plain fru) (h : switchTlv crc32 buf len idx fru = .ok fru') :
    Plain fru' := by
  obtain ⟨kind, -, rfl, -⟩ := (switchTlv_effect crc32 buf len idx fru fru').mp h
  cases kind with
  | field target => exact storeField_plain plain target _ _
  | vendorExtension | crc => exact plain

/-- And so does the walk over all of them. -/
theorem processTlvs_plain (crc32 : List UInt8 → UInt32) (buf : Nat → UInt8) (len idx : Nat)
    (plain : Plain fru) : Plain (processTlvs crc32 buf len idx fru).2.2 := by
  induction idx, fru using processTlvs.induct crc32 buf len with
  | case1 idx fru hIdx verdict hSwitch =>
      rw [processTlvs, if_pos hIdx, hSwitch]
      exact plain
  | case2 idx fru hIdx fru' hSwitch ih =>
      rw [processTlvs, if_pos hIdx, hSwitch]
      exact ih (switchTlv_plain plain hSwitch)
  | case3 idx fru hIdx =>
      rw [processTlvs, if_neg hIdx]
      exact plain

theorem storeWords_plain (plain : Plain fru) (offset : Nat) (words : List Nat) :
    Plain (storeWords offset words fru) := by
  induction words generalizing offset fru with
  | nil => exact plain
  | cons word words ih =>
      apply ih
      exact plain.store_map _ [_, _, _, _]

/-- From yaml the address is plain bytes as well. -/
theorem sysdCfgYamlGetFruInfo_plain (plain : Plain fru) (fruInfo : Option YamlFruInfo)
    (rand : Nat → Nat) : Plain (sysdCfgYamlGetFruInfo fruInfo rand fru).2 := by
  have hString : ∀ (target : Field) (text : CString) (fru : Memory), target.size = pointerSize →
      Plain fru → Plain (assignString target text fru) :=
    fun target text fru h plain => plain.store_pointer h _
  have hCopy : ∀ (target : Field) (length : Nat) (text : CString) (fru : Memory),
      Plain fru → Plain (copyString target length text fru) :=
    fun target length text fru plain => (plain.store_map _ _).store_map _ [0]
  have hByte : ∀ (offset value : Nat) (fru : Memory), Plain fru → Plain (assignByte offset value fru) :=
    fun offset value fru plain => plain.store_map _ [_]
  have hNumber : ∀ (number : Int) (fru : Memory), Plain fru →
      Plain (assignNumber .numMacs number fru) :=
    fun number fru plain => plain.store_map _ [_, _]
  cases fruInfo with
  | none => exact plain
  | some info =>
      simp only [sysdCfgYamlGetFruInfo]
      iterate 7 refine hString _ _ _ rfl ?_
      apply hNumber
      refine hString _ _ _ rfl ?_
      apply hCopy
      apply hByte
      apply hByte
      apply hByte
      apply storeWords_plain
      refine hString _ _ _ rfl (hString _ _ _ rfl ?_)
      exact hCopy _ _ _ _ plain

/-- Whatever the source, reading the record keeps pointers to their fields. -/
theorem sysdReadFruEeprom_plain (crc32 : List UInt8 → UInt32) (source : FruSource)
    (plain : Plain fru) : Plain (sysdReadFruEeprom crc32 source fru).2 := by
  unfold sysdReadFruEeprom
  split
  · exact sysdCfgYamlGetFruInfo_plain plain _ _
  split
  · exact plain
  dsimp only
  split_ifs
  · exact plain
  · exact plain
  split
  · exact plain
  split <;> exact processTlvs_plain crc32 _ _ 0 plain

/-- Plain cells can be read as bytes. -/
theorem Plain.bytesAt {memory : Memory} {count offset : Nat}
    (h : ∀ i, offset ≤ i → i < offset + count → ∃ value, memory i = .byte value) :
    ∃ bytes, memory.bytesAt count offset = some bytes ∧ bytes.length = count := by
  induction count generalizing offset with
  | zero => exact ⟨[], rfl, rfl⟩
  | succ count ih =>
      obtain ⟨value, hValue⟩ := h offset (Nat.le_refl _) (by omega)
      obtain ⟨bytes, hBytes, hLength⟩ := @ih (offset + 1) fun i hFrom hTo =>
        h i (by omega) (by omega)
      refine ⟨value :: bytes, ?_, by simp [hLength]⟩
      rw [Memory.bytesAt, hValue]
      simp only [hBytes, Option.map_some]

/-- The bytes of a field that is no pointer. -/
theorem Plain.field (plain : Plain fru) {target : Field} (h : target.size ≠ pointerSize) :
    ∃ bytes, fru.bytesAt target.size target.offset = some bytes ∧ bytes.length = target.size := by
  apply Plain.bytesAt
  intro i hFrom hTo
  apply plain
  intro other hOther
  have hNe : other ≠ target := fun hSame => h (hSame ▸ hOther)
  exact Field.not_owns_of_ne hNe ⟨hFrom, hTo⟩

end Plain

section Pool

variable {charArrayToUlongLong : List UInt8 → UInt64} {ptr : BaseSubsystem} {base num : Nat}

/-- The number of the first address. -/
def baseMac (fru : Memory) : Nat := bigEndian (macBytes fru)

/-- The addresses for management and for the system, and those that are left. -/
def BaseSubsystem.pool (ptr : BaseSubsystem) (num : Nat) : List Nat :=
  (if 1 ≤ num then [ptr.mgmtMacAddr.toNat] else []) ++
    (if 2 ≤ num then [ptr.systemMacAddr.toNat] else []) ++
      (List.range ptr.numFreeMacs.toNat).map (ptr.nxtMacAddr.toNat + ·)

/-- The pool is split into consecutive addresses, each of them given out once,
and all of them are the vendor's. -/
structure ValidPool (base num : Nat) (ptr : BaseSubsystem) : Prop where
  addresses : ptr.pool num = (List.range num).map (base + ·)
  distinct : (ptr.pool num).Nodup
  free : 0 ≤ ptr.numFreeMacs
  vendor : ∀ address ∈ ptr.pool num, address < 2 ^ 48 ∧ address / 2 ^ 24 = base / 2 ^ 24

/-- How the addresses are given out. -/
theorem deriveMacs_pool (hNum : numMacs ptr.fruEeprom = num)
    (hBase : (charArrayToUlongLong (macBytes ptr.fruEeprom)).toNat = base) (hSmall : base < 2 ^ 48) :
    (deriveMacs charArrayToUlongLong ptr).pool num = (List.range num).map (base + ·) ∧
      0 ≤ (deriveMacs charArrayToUlongLong ptr).numFreeMacs := by
  have hNext : (charArrayToUlongLong (macBytes ptr.fruEeprom) + 1).toNat = base + 1 := by
    rw [UInt64.toNat_add, hBase]
    simp only [UInt64.reduceToNat]
    omega
  match num, hNum with
  | 0, hNum => simp [deriveMacs, hNum, BaseSubsystem.pool]
  | 1, hNum => simp [deriveMacs, hNum, BaseSubsystem.pool, hBase]
  | num + 2, hNum =>
      have hAfter : (charArrayToUlongLong (macBytes ptr.fruEeprom) + 1 + 1).toNat = base + 2 := by
        rw [UInt64.toNat_add, hNext]
        simp only [UInt64.reduceToNat]
        omega
      have hFirst : (0 : Int) < ((num + 2 : Nat) : Int) := by omega
      have hSecond : (0 : Int) < ((num + 2 : Nat) : Int) - 1 := by omega
      have hLeft : ((num + 2 : Nat) : Int) - 1 - 1 = num := by omega
      have hRange : (List.range (num + 2)).map (base + ·) =
          base :: (base + 1) :: (List.range num).map (base + 2 + ·) := by
        rw [List.range_succ_eq_map, List.range_succ_eq_map]
        simp [Function.comp_def, Nat.add_assoc, Nat.add_comm 2]
      simp only [deriveMacs, hNum, hFirst, hSecond, if_true, BaseSubsystem.pool, hLeft, hBase, hNext,
        hAfter, hRange]
      simp

/-- The addresses stay with the vendor as long as there is no carry out of the
last three bytes. -/
theorem vendor_iff (hSmall : base < 2 ^ 48) :
    (∀ address ∈ (List.range num).map (base + ·),
      address < 2 ^ 48 ∧ address / 2 ^ 24 = base / 2 ^ 24) ↔ base % 2 ^ 24 + num ≤ 2 ^ 24 := by
  simp only [List.mem_map, List.mem_range, forall_exists_index, and_imp, forall_apply_eq_imp_iff₂]
  constructor
  · intro hVendor
    rcases Nat.eq_zero_or_pos num with hNone | hSome
    · omega
    · have hLast := hVendor (num - 1) (by omega)
      omega
  · intro hRoom i hi
    omega

/-- The pool is valid exactly if it does not carry out of the low 24 bits. -/
theorem validPool_iff (hNum : numMacs ptr.fruEeprom = num)
    (hBase : (charArrayToUlongLong (macBytes ptr.fruEeprom)).toNat = base) (hSmall : base < 2 ^ 48) :
    ValidPool base num (deriveMacs charArrayToUlongLong ptr) ↔ base % 2 ^ 24 + num ≤ 2 ^ 24 := by
  obtain ⟨hPool, hFree⟩ := deriveMacs_pool hNum hBase hSmall
  rw [← vendor_iff hSmall, ← hPool]
  constructor
  · exact ValidPool.vendor
  · intro hVendor
    have hDistinct : ((List.range num).map (base + ·)).Nodup :=
      List.Nodup.map (add_right_injective base) List.nodup_range
    exact ⟨hPool, hPool ▸ hDistinct, hFree, hVendor⟩

end Pool

section Subsystem

variable {crc32 : List UInt8 → UInt32} {charArrayToUlongLong : List UInt8 → UInt64}
  {source : FruSource} {callocList callocEntry : Bool} {ptr : BaseSubsystem}

section Allotted

variable {charArrayToUlongLong : List UInt8 → UInt64} {ptr : BaseSubsystem} {base : UInt64} {num : Nat}

/-- The addresses given out from a pool of so many from this one on: the first
two for management and for the system, as far as there are any. -/
structure Allotted (base : UInt64) (num : Nat) (ptr : BaseSubsystem) : Prop where
  mgmtMacAddr : ptr.mgmtMacAddr = if 1 ≤ num then base else 0
  systemMacAddr : ptr.systemMacAddr = if 2 ≤ num then base + 1 else 0
  nxtMacAddr : ptr.nxtMacAddr = base + UInt64.ofNat (min num 2)
  numFreeMacs : ptr.numFreeMacs = (num - 2 : Nat)

/-- The first addresses go to the management interface and the system, the rest are
free. -/
theorem deriveMacs_allotted (hNum : numMacs ptr.fruEeprom = num)
    (hBase : charArrayToUlongLong (macBytes ptr.fruEeprom) = base) (hMgmt : ptr.mgmtMacAddr = 0)
    (hSystem : ptr.systemMacAddr = 0) : Allotted base num (deriveMacs charArrayToUlongLong ptr) := by
  rcases num with _ | _ | num
  · constructor <;> simp [deriveMacs, hNum, hBase, hMgmt, hSystem]
  · constructor <;> simp [deriveMacs, hNum, hBase, hSystem]
  · have hFirst : (0 : Int) < ((num + 1 + 1 : Nat) : Int) := by omega
    have hSecond : (0 : Int) < ((num + 1 + 1 : Nat) : Int) - 1 := by omega
    have hTwo : min (num + 1 + 1) 2 = 2 := by omega
    have hSome : 1 ≤ num + 1 + 1 ∧ 2 ≤ num + 1 + 1 := by omega
    have hLeft : ((num + 1 + 1 : Nat) : Int) - 1 - 1 = (num + 1 + 1 - 2 : Nat) := by omega
    have hSum : base + 1 + 1 = base + UInt64.ofNat (min (num + 1 + 1) 2) := by
      rw [hTwo]
      exact UInt64.add_assoc base 1 1
    simp only [deriveMacs, hNum, hBase, hFirst, hSecond, if_true]
    exact ⟨(if_pos hSome.1).symm, (if_pos hSome.2).symm, hSum, hLeft⟩

end Allotted

/-- Six plain bytes are an address. -/
theorem macBytes_of_plain {fru : Memory} (plain : Plain fru) :
    Field.read .baseMacAddress fru = some (.bytes (macBytes fru)) ∧ (macBytes fru).length = 6 := by
  obtain ⟨bytes, hBytes, hLength⟩ := @Plain.field fru plain .baseMacAddress (by decide)
  rw [Field.read, macBytes, hBytes]
  exact ⟨rfl, hLength⟩

/-- The subsystem is the one of the record, with the addresses derived from it. -/
theorem base_of_sysdGetSubsystemInfo
    (h : sysdGetSubsystemInfo crc32 charArrayToUlongLong callocList callocEntry source =
      (some 0, some ptr)) :
    ptr = deriveMacs charArrayToUlongLong { BaseSubsystem.callocd with
      name := .lit "base", type := some (.lit "system"), fruEeprom := ptr.fruEeprom } := by
  have hRead := read_of_sysdGetSubsystemInfo h
  rw [sysdGetSubsystemInfo, hRead] at h
  split at h
  · cases h
  split at h
  · cases h
  exact (Option.some.inj (congrArg Prod.snd h)).symm

/-- What `sysd_get_subsystem_info` has derived, and from what. -/
theorem derived_of_sysdGetSubsystemInfo
    (h : sysdGetSubsystemInfo crc32 charArrayToUlongLong callocList callocEntry source =
      (some 0, some ptr)) :
    Plain ptr.fruEeprom ∧ ∃ before : BaseSubsystem, before.fruEeprom = ptr.fruEeprom ∧
      ptr = deriveMacs charArrayToUlongLong before := by
  have hPlain := sysdReadFruEeprom_plain crc32 source
    (fun i _ => ⟨0, rfl⟩ : Plain BaseSubsystem.callocd.fruEeprom)
  rw [read_of_sysdGetSubsystemInfo h] at hPlain
  refine ⟨hPlain, { BaseSubsystem.callocd with
    name := .lit "base", type := some (.lit "system"), fruEeprom := ptr.fruEeprom }, rfl, ?_⟩
  exact base_of_sysdGetSubsystemInfo h

end Subsystem
end OpsSysd.Fru
