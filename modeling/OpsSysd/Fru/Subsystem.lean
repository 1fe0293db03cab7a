import OpsSysd.Fru.Yaml
import OpsSysd.Fru.Walk

/-! The base subsystem: its FRU record, and the pool of MAC addresses that the
record describes. -/
namespace OpsSysd.Fru

open CLib

/-- The record and the addresses of `sysd_subsystem_t`. -/
structure BaseSubsystem where
  name : CString
  type : Option CString
  fruEeprom : Memory
  nxtMacAddr : UInt64
  numFreeMacs : Int
  mgmtMacAddr : UInt64
  systemMacAddr : UInt64

/-- As allocated. -/
def BaseSubsystem.callocd : BaseSubsystem where
  name := .lit ""
  type := none
  fruEeprom := fun _ => .byte 0
  nxtMacAddr := 0
  numFreeMacs := 0
  mgmtMacAddr := 0
  systemMacAddr := 0

/-- The bytes of `base_mac_address`. -/
def macBytes (fru : Memory) : List UInt8 :=
  (fru.bytesAt (Field.size .baseMacAddress) (Field.offset .baseMacAddress)).getD []

/-- `num_macs`, little-endian in memory. -/
def numMacs (fru : Memory) : Nat :=
  let value := (fru.bytesAt (Field.size .numMacs) (Field.offset .numMacs)).getD []
  (value.getD 1 0).toNat * 256 + (value.getD 0 0).toNat

/-- The second half of `sysd_get_subsystem_info`. -/
def deriveMacs (charArrayToUlongLong : List UInt8 → UInt64) (ptr : BaseSubsystem) : BaseSubsystem :=
  let ptr := { ptr with
    numFreeMacs := numMacs ptr.fruEeprom
    nxtMacAddr := charArrayToUlongLong (macBytes ptr.fruEeprom) }
  let ptr := if 0 < ptr.numFreeMacs then
      { ptr with
        mgmtMacAddr := ptr.nxtMacAddr
        numFreeMacs := ptr.numFreeMacs - 1
        nxtMacAddr := ptr.nxtMacAddr + 1 }
    else ptr
  if 0 < ptr.numFreeMacs then
    { ptr with
      systemMacAddr := ptr.nxtMacAddr
      numFreeMacs := ptr.numFreeMacs - 1
      nxtMacAddr := ptr.nxtMacAddr + 1 }
  else ptr

/-- `sysd_get_subsystem_info`, with the outcomes of its two allocations. It does
not return where reading the record crashes. -/
def sysdGetSubsystemInfo (crc32 : List UInt8 → UInt32) (charArrayToUlongLong : List UInt8 → UInt64)
    (callocList callocEntry : Bool) (source : FruSource) : Option Int × Option BaseSubsystem :=
  if !callocList then (some (-1), none)
  else if !callocEntry then (some (-1), none)
  else
    let outcome := sysdReadFruEeprom crc32 source BaseSubsystem.callocd.fruEeprom
    let ptr := { BaseSubsystem.callocd with fruEeprom := outcome.2 }
    match outcome.1 with
    | none => (none, some ptr)
    | some rc =>
        if rc ≠ 0 then (some (-1), some ptr)
        else
          (some 0, some (deriveMacs charArrayToUlongLong
            { ptr with name := .lit "base", type := some (.lit "system") }))

/-- Deriving the addresses leaves the record alone. -/
@[simp] theorem deriveMacs_fruEeprom (charArrayToUlongLong : List UInt8 → UInt64)
    (ptr : BaseSubsystem) : (deriveMacs charArrayToUlongLong ptr).fruEeprom = ptr.fruEeprom := by
  unfold deriveMacs
  dsimp only
  split_ifs <;> rfl

@[simp] theorem deriveMacs_name (charArrayToUlongLong : List UInt8 → UInt64) (ptr : BaseSubsystem) :
    (deriveMacs charArrayToUlongLong ptr).name = ptr.name := by
  unfold deriveMacs
  dsimp only
  split_ifs <;> rfl

section Success

variable {crc32 : List UInt8 → UInt32} {charArrayToUlongLong : List UInt8 → UInt64}
  {source : FruSource} {fru : Memory}

/-- An image has been read: a header of a version that is supported, and the
bytes that it declares. -/
structure ImageRead (source : FruSource) (header buf : List UInt8) : Prop where
  device : source.fruYaml = false
  start : source.fruRead headerSize = some header
  version : header.getD 8 0 ≤ 1
  memory : source.calloc = true
  body : source.fruRead (totalLength (fun i => header.getD i 0) + headerSize + 1) = some buf

/-- The record was filled from the description, or from an image that was read
twice and processed to its end. -/
def Populated (crc32 : List UInt8 → UInt32) (source : FruSource) (before after : Memory) : Prop :=
  (source.fruYaml = true ∧ ∃ info, source.fruInfo = some info ∧
    after = (sysdCfgYamlGetFruInfo (some info) source.rand before).2) ∨
  ∃ header buf, ImageRead source header buf ∧
    sysdProcessEeprom crc32 (fun i => buf.getD i 0) (totalLength fun i => header.getD i 0) before =
      (.accepted, after)

/-- The image has a CRC TLV that declares more than the header and the TLV area
hold, and the parser comes to it. -/
def NegativeExtent (crc32 : List UInt8 → UInt32) (source : FruSource) : Prop :=
  ∃ header buf, ImageRead source header buf ∧
    let len := totalLength fun i => header.getD i 0
    ∃ idx, Visited crc32 (fun i => buf.getD i 0) len idx ∧ idx < len ∧
      TlvType.ofCode (tlvCode (fun i => buf.getD i 0) idx) = some .crc ∧
      len + headerSize < tlvLength (fun i => buf.getD i 0) idx

/-- On an image that has been read, the answer is the verdict on it. -/
theorem ImageRead.sysdReadFruEeprom_eq {header buf : List UInt8} (image : ImageRead source header buf) :
    sysdReadFruEeprom crc32 source fru =
      let outcome := sysdProcessEeprom crc32 (fun i => buf.getD i 0)
        (totalLength fun i => header.getD i 0) fru
      match outcome.1 with
      | .accepted => (some 0, outcome.2)
      | .rejected => (some (-1), outcome.2)
      | .overread => (none, outcome.2) := by
  have hVersion : ¬ supportedOcpFruEepromVersion < header.getD 8 0 := UInt8.not_lt.mpr image.version
  simp only [sysdReadFruEeprom, image.device, image.start, image.memory, image.body, if_neg hVersion,
    Bool.false_eq_true, Bool.not_true, if_false] <;> rfl

/-- The process crashes on an image exactly at such a TLV. -/
theorem ImageRead.overread_iff {header buf : List UInt8} (image : ImageRead source header buf) :
    (sysdProcessEeprom crc32 (fun i => buf.getD i 0) (totalLength fun i => header.getD i 0) fru).1 =
      .overread ↔ NegativeExtent crc32 source := by
  have hShort := totalLength_lt fun i => header.getD i 0
  change (processTlvs crc32 _ _ 0 fru).1 = .overread ↔ _
  rw [processTlvs_eq_overread_iff]
  constructor
  · rintro ⟨idx, visited, hIdx, overreads⟩
    exact ⟨header, buf, image, idx, visited, hIdx, (overreads_iff hShort).mp overreads⟩
  · rintro ⟨header', buf', image', idx, visited, hIdx, hNegative⟩
    obtain rfl := Option.some.inj (image.start.symm.trans image'.start)
    obtain rfl := Option.some.inj (image.body.symm.trans image'.body)
    exact ⟨idx, visited, hIdx, (overreads_iff hShort).mpr hNegative⟩

/-- Where the process crashes, nothing is returned and nothing has been filled. -/
theorem NegativeExtent.crashes (negative : NegativeExtent crc32 source) (fru : Memory) :
    (sysdReadFruEeprom crc32 source fru).1 = none ∧ ∀ after, ¬ Populated crc32 source fru after := by
  obtain ⟨header, buf, image, hTlv⟩ := id negative
  have hOverread := (@ImageRead.overread_iff crc32 source fru header buf image).mpr negative
  refine ⟨by simp only [image.sysdReadFruEeprom_eq, hOverread], fun after hPopulated => ?_⟩
  rcases hPopulated with hDescribed | ⟨header', buf', image', hAccepted⟩
  · exact absurd (image.device.symm.trans hDescribed.1) nofun
  · have hAgain := (@ImageRead.overread_iff crc32 source fru header' buf' image').mpr negative
    rw [hAccepted] at hAgain
    cases hAgain

/-- The record that the addresses are derived from has been read. -/
theorem read_of_sysdGetSubsystemInfo {callocList callocEntry : Bool} {ptr : BaseSubsystem}
    (h : sysdGetSubsystemInfo crc32 charArrayToUlongLong callocList callocEntry source =
      (some 0, some ptr)) :
    sysdReadFruEeprom crc32 source BaseSubsystem.callocd.fruEeprom = (some 0, ptr.fruEeprom) := by
  unfold sysdGetSubsystemInfo at h
  split at h
  · cases h
  split at h
  · cases h
  dsimp only at h
  cases hRead : (sysdReadFruEeprom crc32 source BaseSubsystem.callocd.fruEeprom).1 with
  | none =>
      rw [hRead] at h
      cases h
  | some rc =>
      rw [hRead] at h
      dsimp only at h
      split at h
      case isTrue => cases h
      case isFalse hZero =>
        have hPtr := Option.some.inj (congrArg Prod.snd h)
        rw [← hPtr, deriveMacs_fruEeprom]
        exact Prod.ext (hRead.trans (congrArg some (not_not.mp hZero))) rfl

/-- What has been read becomes the base subsystem. -/
theorem exists_sysdGetSubsystemInfo
    (hRead : (sysdReadFruEeprom crc32 source BaseSubsystem.callocd.fruEeprom).1 = some 0) :
    ∃ ptr, sysdGetSubsystemInfo crc32 charArrayToUlongLong true true source =
      (some 0, some ptr) := by
  unfold sysdGetSubsystemInfo
  dsimp only
  rw [hRead]
  exact ⟨_, rfl⟩

end Success
end OpsSysd.Fru
