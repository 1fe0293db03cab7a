import OpsSysd.Daemon.WholeConfiguration
import OpsSysd.Fru.MacPool
import OpsSysd.Fru.Sources

/-! The MAC addresses that the initial configuration publishes, and the pool in
the FRU record that they come from. -/
namespace OpsSysd.Daemon

open CLib Interaction Interaction.Program Idl Fru

/-- Whatever is written to one of them is the subsystem's. -/
def TellsPool (config : Config) (ptr : BaseSubsystem) : Request → Prop
  | .write _ .systemManagementMac text => text = config.etherToString ptr.mgmtMacAddr
  | .write _ .systemSystemMac text => text = config.etherToString ptr.systemMacAddr
  | .write _ .subsystemNextMacAddress text => text = config.etherToString ptr.nxtMacAddr
  | .write _ .subsystemMacsRemaining number => number = ptr.numFreeMacs
  | _ => True

/-- The daemon has this base subsystem. -/
structure HasBase (config : Config) (ptr : BaseSubsystem) (subsys : Subsystem) : Prop where
  subsystems : config.subsystems = [subsys]
  nxtMacAddr : subsys.nxtMacAddr = ptr.nxtMacAddr
  numFreeMacs : subsys.numFreeMacs = ptr.numFreeMacs
  mgmtMacAddr : subsys.mgmtMacAddr = ptr.mgmtMacAddr
  systemMacAddr : subsys.systemMacAddr = ptr.systemMacAddr

/-- The System row and its one Subsystem row have the addresses of this subsystem. -/
structure PoolWritten (config : Config) (ptr : BaseSubsystem) (system row : RowId) (db : Database) :
    Prop where
  subsystems : db.get system .systemSubsystems = [row]
  managementMac : db.get system .systemManagementMac = config.etherToString ptr.mgmtMacAddr
  systemMac : db.get system .systemSystemMac = config.etherToString ptr.systemMacAddr
  nextMacAddress : db.get row .subsystemNextMacAddress = config.etherToString ptr.nxtMacAddr
  macsRemaining : db.get row .subsystemMacsRemaining = ptr.numFreeMacs

/-- Where no allocation fails, the initial configuration writes the addresses. -/
def WritesPool (config : Config) (ptr : BaseSubsystem) (txn : TxnId) : Prop :=
  ∀ (World : Type) (env : Environment World) (state after : State World), state.Opened txn →
    Exec (allocating env) (sysdInitialConfigure config txn) (state, false) () (after, false) →
      ∃ system row, after.view.ids .system = state.view.ids .system ++ [system] ∧
        PoolWritten config ptr system row after.view

section Publication

variable {config : Config} {ptr : BaseSubsystem} {subsys : Subsystem} {txn : TxnId}
  {columns : Column → Prop} {Result : Type} {program : Program Calls Result}

theorem tellsPool_write {row : RowId} {column : Column} {arg : column.Arg}
    (h : ¬ MacColumn column) : TellsPool config ptr (.write row column arg) := by
  cases column with
  | systemManagementMac | systemSystemMac | subsystemNextMacAddress | subsystemMacsRemaining =>
      exact absurd h (by decide)
  | _ => trivial

/-- The base subsystem is the only one, so every address is its own. -/
theorem tellsPool_accepts (base : HasBase config ptr subsys) :
    Accepts config txn (TellsPool config ptr) where
  supplies request h := by
    cases request with
    | write row column arg => exact tellsPool_write fun hMac => h.1 (.inr hMac)
    | _ => trivial
  tableId _ := trivial
  calloc := trivial
  openOsRelease := trivial
  managementMac row first hFirst := by
    rw [base.subsystems] at hFirst
    obtain rfl := Option.some.inj hFirst
    exact congrArg config.etherToString base.mgmtMacAddr
  systemMac row first hFirst := by
    rw [base.subsystems] at hFirst
    obtain rfl := Option.some.inj hFirst
    exact congrArg config.etherToString base.systemMacAddr
  nextMacAddress row other hOther := by
    rw [base.subsystems, List.mem_singleton] at hOther
    exact hOther ▸ congrArg config.etherToString base.nxtMacAddr
  macsRemaining row other hOther := by
    rw [base.subsystems, List.mem_singleton] at hOther
    exact hOther ▸ base.numFreeMacs

/-- The initial configuration publishes the subsystem's addresses and no
others. -/
theorem sysdInitialConfigure_tells (base : HasBase config ptr subsys) :
    (sysdInitialConfigure config txn).Issues (TellsPool config ptr) := by
  rw [sysdInitialConfigure, issues_insertRow_bind]
  exact ⟨trivial, trivial, fun system => configureSystem_accepted (tellsPool_accepts base) system⟩

/-- And all of them, where it has got its memory. -/
theorem sysdInitialConfigure_writesPool (base : HasBase config ptr subsys) :
    WritesPool config ptr txn := by
  intro World env state after hOpen hExec
  have hAssembles := @sysdInitialConfigure_assembles World env config txn state.world state.view
  obtain ⟨-, -, system, hIds, hOutcome⟩ :=
    (safe_iff.mp (hAssembles state hOpen rfl rfl)).2 _ _ hExec
  have described : DescribedSystem config system after.view := by
    rcases hOutcome with ⟨-, hWhole⟩ | ⟨hFailed, -⟩
    · exact hWhole.toDescribedSystem
    · exact absurd hFailed Bool.false_ne_true
  have hHead : config.subsystems.head? = some subsys := congrArg List.head? base.subsystems
  have hRows := described.subsystems
  rw [base.subsystems] at hRows
  obtain ⟨row, rest, hRow, hRest, hRows⟩ := List.forall₂_cons_right_iff.mp hRows
  obtain rfl := List.forall₂_nil_right_iff.mp hRest
  refine ⟨system, row, hIds, hRows, ?_, ?_, ?_, ?_⟩
  · exact (described.managementMac subsys hHead).trans (congrArg _ base.mgmtMacAddr)
  · exact (described.systemMac subsys hHead).trans (congrArg _ base.systemMacAddr)
  · exact hRow.nextMacAddress.trans (congrArg _ base.nxtMacAddr)
  · exact hRow.macsRemaining.trans base.numFreeMacs

end Publication

section Pool

variable {crc32 : List UInt8 → UInt32} {charArrayToUlongLong : List UInt8 → UInt64}
  {callocList callocEntry : Bool} {source : FruSource} {ptr : BaseSubsystem}

/-- The record that the FRU source delivers. -/
def deliveredRecord (crc32 : List UInt8 → UInt32) (source : FruSource) : Memory :=
  (sysdReadFruEeprom crc32 source BaseSubsystem.callocd.fruEeprom).2

/-- The pool is validly split, and it is what the initial configuration of a
daemon with this base subsystem publishes, and all that it publishes of it. -/
def PoolPublished (record : Memory) (ptr : BaseSubsystem) : Prop :=
  ValidPool (baseMac record) (numMacs record) ptr ∧
    ∀ config subsys txn, HasBase config ptr subsys →
      (sysdInitialConfigure config txn).Issues (TellsPool config ptr) ∧ WritesPool config ptr txn

theorem validPool_of_sysdGetSubsystemInfo (hBigEndian : ∀ bytes : List UInt8, bytes.length = 6 →
      (charArrayToUlongLong bytes).toNat = bigEndian bytes)
    (hInfo : sysdGetSubsystemInfo crc32 charArrayToUlongLong callocList callocEntry source =
      (some 0, some ptr)) :
    ValidPool (baseMac (deliveredRecord crc32 source)) (numMacs (deliveredRecord crc32 source)) ptr ↔
      baseMac (deliveredRecord crc32 source) % 2 ^ 24 + numMacs (deliveredRecord crc32 source) ≤
        2 ^ 24 := by
  obtain ⟨hPlain, before, hRecord, hDerived⟩ := derived_of_sysdGetSubsystemInfo hInfo
  have hDelivered : deliveredRecord crc32 source = ptr.fruEeprom := by
    rw [deliveredRecord, read_of_sysdGetSubsystemInfo hInfo]
  have hMac := (macBytes_of_plain hPlain).2
  have hSmall : baseMac ptr.fruEeprom < 2 ^ 48 := by
    have hLt := bigEndian_lt (macBytes ptr.fruEeprom)
    rwa [hMac] at hLt
  have hBase : (charArrayToUlongLong (macBytes before.fruEeprom)).toNat = baseMac ptr.fruEeprom := by
    rw [hRecord, baseMac]
    exact hBigEndian _ hMac
  rw [hDelivered, hDerived]
  rw [hDerived] at hBase hSmall
  exact validPool_iff (by rw [deriveMacs_fruEeprom]) hBase hSmall

/-- The pool is accounted for correctly exactly when counting from the base
address does not run out of its last three bytes. -/
theorem poolPublished_iff (crc32 : List UInt8 → UInt32)
    (charArrayToUlongLong : List UInt8 → UInt64)
    (hBigEndian : ∀ bytes : List UInt8, bytes.length = 6 →
      (charArrayToUlongLong bytes).toNat = bigEndian bytes)
    (callocList callocEntry : Bool) (source : FruSource) (ptr : BaseSubsystem)
    (hInfo : sysdGetSubsystemInfo crc32 charArrayToUlongLong callocList callocEntry source =
      (some 0, some ptr)) :
    PoolPublished (deliveredRecord crc32 source) ptr ↔
      baseMac (deliveredRecord crc32 source) % 2 ^ 24 + numMacs (deliveredRecord crc32 source) ≤
        2 ^ 24 := by
  rw [← validPool_of_sysdGetSubsystemInfo hBigEndian hInfo, PoolPublished]
  exact and_iff_left fun config subsys txn base =>
    ⟨sysdInitialConfigure_tells base, sysdInitialConfigure_writesPool base⟩

/-- Six bytes as a number. -/
def testToUlongLong (bytes : List UInt8) : UInt64 := UInt64.ofNat (bigEndian bytes)

theorem testToUlongLong_bigEndian (bytes : List UInt8) (h : bytes.length = 6) :
    (testToUlongLong bytes).toNat = bigEndian bytes := by
  have hLt := bigEndian_lt bytes
  rw [h] at hLt
  exact UInt64.toNat_ofNat_of_lt' (lt_of_lt_of_le hLt (by decide))

/-- The test record with this number as each of the three last bytes. -/
def testMacs (last : Nat) : FruSource := { testYaml (testRecord 0) with rand := fun _ => last }

/-- What is derived from it. -/
def testSubsystem (last : Nat) : BaseSubsystem :=
  deriveMacs testToUlongLong { BaseSubsystem.callocd with
    name := .lit "base", type := some (.lit "system")
    fruEeprom := deliveredRecord testCrc32 (testMacs last) }

theorem testSubsystem_info (last : Nat) :
    sysdGetSubsystemInfo testCrc32 testToUlongLong true true (testMacs last) =
      (some 0, some (testSubsystem last)) := rfl

theorem poolPublished_testMacs :
    PoolPublished (deliveredRecord testCrc32 (testMacs 0)) (testSubsystem 0) :=
  (poolPublished_iff testCrc32 testToUlongLong testToUlongLong_bigEndian true true (testMacs 0)
    (testSubsystem 0) (testSubsystem_info 0)).mpr (by decide +kernel)

/-- Three last bytes of all ones leave room for one address of the
seventy-four. -/
theorem pool_runs_out :
    sysdGetSubsystemInfo testCrc32 testToUlongLong true true (testMacs 255) =
        (some 0, some (testSubsystem 255)) ∧
      ¬ PoolPublished (deliveredRecord testCrc32 (testMacs 255)) (testSubsystem 255) := by
  refine ⟨testSubsystem_info 255, fun hPublished => ?_⟩
  have hRoom := (validPool_of_sysdGetSubsystemInfo testToUlongLong_bigEndian
    (testSubsystem_info 255)).mp hPublished.1
  exact absurd hRoom (by decide +kernel)

end Pool
end OpsSysd.Daemon
