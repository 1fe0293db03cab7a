import OpsSysd.Library.CString
import Mathlib.Logic.Function.Basic

/-! The tables and columns of the database that the daemon reads or writes, and
databases as lists of rows. A list is kept in the order in which the tables'
hash maps yield their rows. -/
namespace OpsSysd.Idl

open CLib

inductive Table where
  | system | interface | daemon | subsystem | bridge | port | vrf | packageInfo
  | qProfile | qProfileEntry | qos | queue | qosCosMapEntry | qosDscpMapEntry
  deriving DecidableEq

/-- A pointer to a row. -/
abbrev RowId := Nat

/-- A `struct smap`. -/
abbrev Smap := List (CString × CString)

namespace Smap

def add (smap : Smap) (key value : CString) : Smap := smap ++ [(key, value)]

def replace (smap : Smap) (key value : CString) : Smap :=
  smap.filter (fun pair => pair.1 ≠ key) ++ [(key, value)]

def addOnce (smap : Smap) (key value : CString) : Smap :=
  if smap.any fun pair => pair.1 = key then smap else smap.add key value

end Smap

/-- An array argument: its initialised elements, and the count passed with it. -/
structure Slice (Elem : Type) where
  array : List Elem
  count : Nat

inductive Shape where
  | text | optionalText | integer | boolean | smap | reference
  | references | integers | booleans | queueMap

/-- What a column holds. -/
abbrev Shape.Val : Shape → Type
  | .text => CString
  | .optionalText => Option CString
  | .integer => Int
  | .boolean => Bool
  | .smap => Smap
  | .reference => Option RowId
  | .references => List RowId
  | .integers => List Int
  | .booleans => List Bool
  | .queueMap => List (Int × RowId)

/-- What a setter is called with. -/
abbrev Shape.Arg : Shape → Type
  | .references => Slice RowId
  | .integers => Slice Int
  | .booleans => Slice Bool
  | .queueMap => Slice (Int × RowId)
  | shape => shape.Val

/-- A slice is stored up to its count; where that passes the initialised
elements, the rest is whatever memory holds. -/
def Slice.Stored {Elem : Type} (slice : Slice Elem) (value : List Elem) : Prop :=
  value.length = slice.count ∧ value.take slice.array.length = slice.array.take slice.count

/-- The count does not pass the initialised elements. -/
def Slice.Initialised {Elem : Type} (slice : Slice Elem) : Prop := slice.count ≤ slice.array.length

/-- A slice is initialised if it counts no more elements than there are. -/
@[simp] theorem Slice.initialised_mk {Elem : Type} (array : List Elem) (count : Nat) :
    Slice.Initialised ⟨array, count⟩ ↔ count ≤ array.length := Iff.rfl

/-- In particular if it counts all of them. -/
theorem Slice.initialised_of_eq {Elem : Type} {array : List Elem} {count : Nat}
    (h : array.length = count) : Slice.Initialised ⟨array, count⟩ :=
  Nat.le_of_eq h.symm

/-- What is stored is then nothing but the argument. -/
theorem Slice.Initialised.stored_eq {Elem : Type} {slice : Slice Elem} {value : List Elem}
    (h : slice.Initialised) (hStored : slice.Stored value) : value = slice.array.take slice.count := by
  obtain ⟨hLength, hValue⟩ := hStored
  have hCount : value.length ≤ slice.array.length := by rwa [hLength]
  rwa [List.take_of_length_le hCount] at hValue

/-- Where the count is the number of elements, the array is stored. -/
theorem Slice.Stored.eq_array {Elem : Type} {array value : List Elem} {count : Nat}
    (h : Slice.Stored ⟨array, count⟩ value) (hCount : array.length = count) : value = array := by
  rw [(Slice.initialised_of_eq hCount).stored_eq h]
  exact List.take_of_length_le (Nat.le_of_eq hCount)

def Shape.Stored : (shape : Shape) → shape.Arg → shape.Val → Prop
  | .references, slice, value => slice.Stored value
  | .integers, slice, value => slice.Stored value
  | .booleans, slice, value => slice.Stored value
  | .queueMap, slice, value => slice.Stored value
  | .text, arg, value => value = arg
  | .optionalText, arg, value => value = arg
  | .integer, arg, value => value = arg
  | .boolean, arg, value => value = arg
  | .smap, arg, value => value = arg
  | .reference, arg, value => value = arg

/-- The same of any argument; only lists come with a count. -/
def Shape.Initialised : (shape : Shape) → shape.Arg → Prop
  | .references, slice => slice.Initialised
  | .integers, slice => slice.Initialised
  | .booleans, slice => slice.Initialised
  | .queueMap, slice => slice.Initialised
  | .text, _ | .optionalText, _ | .integer, _ | .boolean, _ | .smap, _ | .reference, _ => True

@[simp] theorem Shape.initialised_references {slice : Slice RowId} :
    Shape.Initialised .references slice ↔ slice.Initialised := Iff.rfl

@[simp] theorem Shape.initialised_integers {slice : Slice Int} :
    Shape.Initialised .integers slice ↔ slice.Initialised := Iff.rfl

@[simp] theorem Shape.initialised_booleans {slice : Slice Bool} :
    Shape.Initialised .booleans slice ↔ slice.Initialised := Iff.rfl

@[simp] theorem Shape.initialised_queueMap {slice : Slice (Int × RowId)} :
    Shape.Initialised .queueMap slice ↔ slice.Initialised := Iff.rfl

@[simp] theorem Shape.initialised_text (text : CString) : Shape.Initialised .text text := trivial

@[simp] theorem Shape.initialised_optionalText (text : Option CString) :
    Shape.Initialised .optionalText text := trivial

@[simp] theorem Shape.initialised_integer (value : Int) : Shape.Initialised .integer value := trivial

@[simp] theorem Shape.initialised_boolean (value : Bool) : Shape.Initialised .boolean value := trivial

@[simp] theorem Shape.initialised_smap (smap : Smap) : Shape.Initialised .smap smap := trivial

@[simp] theorem Shape.initialised_reference (row : Option RowId) :
    Shape.Initialised .reference row := trivial

/-- What is stored of an initialised argument is decided by it alone. -/
theorem Shape.Initialised.stored_unique {shape : Shape} {arg : shape.Arg} {value other : shape.Val}
    (h : shape.Initialised arg) (hValue : shape.Stored arg value) (hOther : shape.Stored arg other) :
    value = other := by
  cases shape with
  | references | integers | booleans | queueMap =>
      exact (Slice.Initialised.stored_eq h hValue).trans (Slice.Initialised.stored_eq h hOther).symm
  | text | optionalText | integer | boolean | smap | reference =>
      exact Eq.trans hValue (Eq.symm hOther)

def Shape.default : (shape : Shape) → shape.Val
  | .text => .lit ""
  | .optionalText => none
  | .integer => 0
  | .boolean => false
  | .smap => []
  | .reference => none
  | .references => []
  | .integers => []
  | .booleans => []
  | .queueMap => []

/-- The columns used, named after their table. -/
inductive Column where
  | systemMgmtIntf | systemBridges | systemVrfs | systemManagementMac | systemSystemMac
  | systemSubsystems | systemDaemons | systemSoftwareInfo | systemSwitchVersion | systemTimezone
  | systemCurHw | systemNextHw | systemQosConfig | systemQProfile | systemQos
  | systemQosCosMapEntries | systemQosDscpMapEntries | systemOtherInfo
  | interfaceName | interfaceType | interfaceAdminState | interfaceHwIntfInfo
  | interfaceSplitParent | interfaceSplitChildren | interfaceUserConfig
  | daemonName | daemonCurHw | daemonIsHwHandler
  | subsystemName | subsystemAssetTagNumber | subsystemHwDescDir | subsystemOtherInfo
  | subsystemNextMacAddress | subsystemMacsRemaining | subsystemInterfaces
  | bridgeName | bridgePorts | portName | portInterfaces | vrfName | vrfTableId | vrfStatus
  | packageInfoName | packageInfoVersion | packageInfoSrcUrl | packageInfoSrcType
  | qProfileName | qProfileQProfileEntries | qProfileHwDefault
  | qProfileEntryLocalPriorities | qProfileEntryDescription | qProfileEntryHwDefault
  | qosName | qosQueues | qosHwDefault
  | queueAlgorithm | queueWeight | queueHwDefault
  | qosCosMapEntryCodePoint | qosCosMapEntryLocalPriority | qosCosMapEntryColor
  | qosCosMapEntryDescription | qosCosMapEntryHwDefaults
  | qosDscpMapEntryCodePoint | qosDscpMapEntryLocalPriority | qosDscpMapEntryColor
  | qosDscpMapEntryDescription | qosDscpMapEntryHwDefaults
  deriving DecidableEq

namespace Column

@[reducible] def shape : Column → Shape
  | systemMgmtIntf | systemSoftwareInfo | systemQosConfig | systemOtherInfo
  | interfaceHwIntfInfo | interfaceUserConfig | subsystemOtherInfo | vrfStatus
  | qosCosMapEntryHwDefaults | qosDscpMapEntryHwDefaults => .smap
  | systemBridges | systemVrfs | systemSubsystems | systemDaemons | systemQosCosMapEntries
  | systemQosDscpMapEntries | interfaceSplitChildren | subsystemInterfaces | bridgePorts
  | portInterfaces => .references
  | systemQProfile | systemQos | interfaceSplitParent => .reference
  | systemCurHw | systemNextHw | daemonCurHw | subsystemMacsRemaining
  | qosCosMapEntryCodePoint | qosCosMapEntryLocalPriority
  | qosDscpMapEntryCodePoint | qosDscpMapEntryLocalPriority => .integer
  | daemonIsHwHandler => .boolean
  | vrfTableId | qProfileEntryLocalPriorities | queueWeight => .integers
  | qProfileHwDefault | qProfileEntryHwDefault | qosHwDefault | queueHwDefault => .booleans
  | qProfileQProfileEntries | qosQueues => .queueMap
  | systemTimezone => .optionalText
  | _ => .text

abbrev Val (column : Column) : Type := column.shape.Val
abbrev Arg (column : Column) : Type := column.shape.Arg

end Column

/-- The column by which the rows of a table are looked for, where they are looked
for by name. -/
def Table.nameColumn : Table → Option Column
  | .qProfile => some .qProfileName
  | .qos => some .qosName
  | _ => none

/-- A column of a given shape. -/
structure ColumnOf (shape : Shape) where
  column : Column
  hasShape : column.shape = shape

namespace ColumnOf

variable {shape : Shape}

def arg (of : ColumnOf shape) (arg : shape.Arg) : of.column.Arg :=
  cast (congrArg Shape.Arg of.hasShape.symm) arg

def value (of : ColumnOf shape) (value : of.column.Val) : shape.Val :=
  cast (congrArg Shape.Val of.hasShape) value

/-- A column family stores what its shape stores. -/
theorem stored_arg (of : ColumnOf shape) (arg : shape.Arg) (value : of.column.Val) :
    of.column.shape.Stored (of.arg arg) value ↔ shape.Stored arg (of.value value) := by
  obtain ⟨column, rfl⟩ := of
  exact Iff.rfl

/-- And it asks of its argument what its shape asks. -/
theorem initialised_arg (of : ColumnOf shape) (arg : shape.Arg) :
    of.column.shape.Initialised (of.arg arg) ↔ shape.Initialised arg := by
  obtain ⟨column, rfl⟩ := of
  exact Iff.rfl

end ColumnOf

structure Row where
  id : RowId
  table : Table
  cells : (column : Column) → column.Val

/-- A row as `ovsrec_*_insert` leaves it. -/
def Row.fresh (id : RowId) (table : Table) : Row where
  id := id
  table := table
  cells := fun column => column.shape.default

def Row.set (row : Row) (column : Column) (value : column.Val) : Row :=
  { row with cells := Function.update row.cells column value }

@[simp] theorem Row.set_id (row : Row) (column : Column) (value : column.Val) :
    (row.set column value).id = row.id := rfl

@[simp] theorem Row.set_table (row : Row) (column : Column) (value : column.Val) :
    (row.set column value).table = row.table := rfl

/-- A cell that has been set has the value. -/
@[simp] theorem Row.set_same (row : Row) (column : Column) (value : column.Val) :
    (row.set column value).cells column = value := Function.update_self _ _ _

/-- The other cells stay. -/
theorem Row.set_other (row : Row) {column other : Column} (value : column.Val)
    (h : other ≠ column) : (row.set column value).cells other = row.cells other :=
  Function.update_of_ne h _ _

abbrev Database := List Row

namespace Database

/-- The rows of a table, in iteration order. -/
def rows (db : Database) (table : Table) : List Row := db.filter fun row => row.table = table

def ids (db : Database) (table : Table) : List RowId := (db.rows table).map Row.id

/-- A cell of a row that exists, or the value of an unset column. -/
def get (db : Database) (id : RowId) (column : Column) : column.Val :=
  match db.find? fun row => row.id = id with
  | some row => row.cells column
  | none => column.shape.default

theorem mem_rows {db : Database} {table : Table} {row : Row} :
    row ∈ db.rows table ↔ row ∈ db ∧ row.table = table := by
  simp [rows]

/-- With distinct ids, a row is found by its id. -/
theorem get_of_mem {db : Database} (distinct : (db.map Row.id).Nodup) {row : Row} (hRow : row ∈ db)
    (column : Column) : db.get row.id column = row.cells column := by
  have hFind : db.find? (fun other => other.id = row.id) = some row := by
    induction db with
    | nil => exact absurd hRow List.not_mem_nil
    | cons other db ih =>
        rw [List.map_cons, List.nodup_cons] at distinct
        rcases List.mem_cons.mp hRow with rfl | hTail
        · simp
        · have hOther : other.id ≠ row.id := fun hSame =>
            distinct.1 (hSame ▸ List.mem_map_of_mem hTail)
          rw [List.find?_cons_of_neg (by simpa using hOther)]
          exact ih distinct.2 hTail
  rw [get, hFind]

/-- The database has a row of this table. -/
def Has (db : Database) (table : Table) : Prop := db.rows table ≠ []

instance (db : Database) (table : Table) : Decidable (db.Has table) :=
  inferInstanceAs (Decidable (db.rows table ≠ []))

/-- A table has no rows exactly if it lists none. -/
theorem ids_eq_nil {db : Database} {table : Table} : db.ids table = [] ↔ ¬ db.Has table := by
  rw [ids, List.map_eq_nil_iff, Has, not_not]

end Database

/-- What a transaction asks for. -/
inductive Op where
  | insert (id : RowId) (table : Table)
  | write (id : RowId) (column : Column) (value : column.Val)

def Op.apply (db : Database) : Op → Database
  | .insert id table => db ++ [Row.fresh id table]
  | .write id column value => db.map fun row => if row.id = id then row.set column value else row

def applyOps (db : Database) (ops : List Op) : Database := ops.foldl Op.apply db

@[simp] theorem applyOps_nil (db : Database) : applyOps db [] = db := rfl

/-- Operations are applied in their order. -/
theorem applyOps_append (db : Database) (first second : List Op) :
    applyOps db (first ++ second) = applyOps (applyOps db first) second :=
  List.foldl_append

/-- The rows of a table that a transaction inserts. -/
def insertions (table : Table) (ops : List Op) : List RowId :=
  ops.filterMap fun op =>
    match op with
    | .insert id table' => if table' = table then some id else none
    | .write .. => none

@[simp] theorem insertions_nil (table : Table) : insertions table [] = [] := rfl

/-- The rows inserted by two runs of operations are those of the first, then those of
the second. -/
theorem insertions_append (table : Table) (first second : List Op) :
    insertions table (first ++ second) = insertions table first ++ insertions table second :=
  List.filterMap_append

/-- Columns and the values to store in them. -/
abbrev Cells := List ((column : Column) × column.Val)

def Row.setAll (row : Row) (cells : Cells) : Row :=
  cells.foldl (fun row cell => row.set cell.1 cell.2) row

@[simp] theorem Row.setAll_table (row : Row) (cells : Cells) : (row.setAll cells).table = row.table := by
  induction cells generalizing row with
  | nil => rfl
  | cons cell cells ih => exact ih (row.set cell.1 cell.2)

/-- The writes of these cells to one row. -/
def writeAll (id : RowId) (cells : Cells) : List Op := cells.map fun cell => .write id cell.1 cell.2

/-- A write to the last row changes that row alone. -/
theorem Op.apply_write_last {db : Database} {row : Row} (hOthers : ∀ other ∈ db, other.id ≠ row.id)
    (column : Column) (value : column.Val) :
    (Op.write row.id column value).apply (db ++ [row]) = db ++ [row.set column value] := by
  simp only [Op.apply, List.map_append, List.map_singleton, if_true]
  refine congrArg (· ++ [row.set column value]) ((List.map_congr_left ?_).trans (List.map_id db))
  exact fun other hOther => if_neg (hOthers other hOther)

/-- Writes to the row inserted last change that row only. -/
theorem applyOps_writeAll {db : Database} {row : Row} (hOthers : ∀ other ∈ db, other.id ≠ row.id)
    (cells : Cells) : applyOps (db ++ [row]) (writeAll row.id cells) = db ++ [row.setAll cells] := by
  induction cells generalizing row with
  | nil => rfl
  | cons cell cells ih =>
      have hWrite := Op.apply_write_last hOthers cell.1 cell.2
      rw [writeAll, List.map_cons, applyOps, List.foldl_cons, hWrite]
      exact @ih (row.set cell.1 cell.2) hOthers

/-- An operation adds to the rows of a table what it inserts there. -/
theorem Op.apply_ids (db : Database) (op : Op) (table : Table) :
    (op.apply db).ids table = db.ids table ++ insertions table [op] := by
  cases op with
  | insert id inserted =>
      by_cases h : inserted = table <;>
        simp [Op.apply, Database.ids, Database.rows, insertions, Row.fresh, h]
  | write id column value =>
      have hKeep : ∀ row : Row, (if row.id = id then row.set column value else row).id = row.id ∧
          (if row.id = id then row.set column value else row).table = row.table := by
        intro row
        split <;> exact ⟨rfl, rfl⟩
      simp only [Op.apply, Database.ids, Database.rows, List.filter_map, List.map_map,
        Function.comp_def, hKeep, insertions, List.filterMap_cons, List.filterMap_nil,
        List.append_nil]

/-- A transaction adds the rows it inserts, and no other. -/
theorem ids_applyOps (db : Database) (ops : List Op) (table : Table) :
    (applyOps db ops).ids table = db.ids table ++ insertions table ops := by
  induction ops generalizing db with
  | nil => simp
  | cons op ops ih =>
      have hSplit : insertions table (op :: ops) = insertions table [op] ++ insertions table ops :=
        insertions_append table [op] ops
      rw [applyOps, List.foldl_cons, ← applyOps, ih, Op.apply_ids, hSplit, List.append_assoc]

end OpsSysd.Idl
