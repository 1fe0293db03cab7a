import OpsSysd.Idl.Discipline

/-! Reading a database after a transaction's requests: which rows there are, and
what a cell holds once another one has been written. -/
namespace OpsSysd.Idl

open CLib Interaction Interaction.Program

namespace Database

/-- There is a row with this id. -/
def Exists (db : Database) (id : RowId) : Prop := ∃ row ∈ db, row.id = id

end Database

section Cells

variable {db : Database} {id other : RowId} {table : Table} {column column' : Column}

theorem exists_of_mem_ids (h : id ∈ db.ids table) : db.Exists id := by
  obtain ⟨row, hRow, rfl⟩ := List.mem_map.mp h
  exact ⟨row, List.mem_of_mem_filter hRow, rfl⟩

/-- An insertion adds one row. -/
@[simp] theorem exists_insert :
    (Op.apply db (.insert id table)).Exists other ↔ db.Exists other ∨ other = id := by
  simp only [Database.Exists, Op.apply, List.mem_append, List.mem_singleton, or_and_right,
    exists_or, exists_eq_left]
  exact or_congr_right eq_comm

/-- A write adds none. -/
@[simp] theorem exists_write {value : column.Val} :
    (Op.apply db (.write id column value)).Exists other ↔ db.Exists other := by
  have hSame : ∀ row : Row, (if row.id = id then row.set column value else row).id = row.id := by
    intro row
    split <;> rfl
  simp only [Database.Exists, Op.apply, List.mem_map, exists_exists_and_eq_and, hSame]

/-- An inserted row comes last in its table. -/
@[simp] theorem ids_insert {inserted : Table} :
    (Op.apply db (.insert id inserted)).ids table =
      db.ids table ++ if inserted = table then [id] else [] := by
  rw [Op.apply_ids]
  by_cases h : inserted = table <;> simp [insertions, h]

@[simp] theorem ids_write {value : column.Val} :
    (Op.apply db (.write id column value)).ids table = db.ids table := by
  rw [Op.apply_ids]
  exact List.append_nil _

theorem get_write (value : column.Val) (other : RowId) (column' : Column) :
    (Op.apply db (.write id column value)).get other column' =
      match db.find? fun row => row.id = other with
      | some row => (if row.id = id then row.set column value else row).cells column'
      | none => column'.shape.default := by
  have hSame : ∀ row : Row, (if row.id = id then row.set column value else row).id = row.id := by
    intro row
    split <;> rfl
  rw [Database.get, Op.apply, List.find?_map]
  simp only [Function.comp_def, hSame]
  cases db.find? fun row => row.id = other <;> rfl

/-- A cell that has been written has the value. -/
@[simp] theorem get_write_same (h : db.Exists id) (value : column.Val) :
    (Op.apply db (.write id column value)).get id column = value := by
  obtain ⟨row, hRow, hId⟩ := h
  rw [get_write]
  cases hFind : db.find? fun row => row.id = id with
  | none => exact absurd (List.find?_eq_none.mp hFind row hRow) (by simpa using hId)
  | some found =>
      have hFound : found.id = id := by simpa using List.find?_some hFind
      simp only [hFound, if_true]
      exact Row.set_same found column value

/-- A write changes one cell. -/
theorem get_write_other (value : column.Val) (h : other = id → column' ≠ column) :
    (Op.apply db (.write id column value)).get other column' = db.get other column' := by
  rw [get_write, Database.get]
  cases hFind : db.find? fun row => row.id = other with
  | none => rfl
  | some found =>
      have hFound : found.id = other := by simpa using List.find?_some hFind
      by_cases hSame : found.id = id
      · simp only [hSame, if_true]
        exact Row.set_other found value (h (hFound.symm.trans hSame))
      · simp only [hSame, if_false]

/-- An insertion changes no cell of the rows that were there. -/
theorem get_insert_other (h : other ≠ id) :
    (Op.apply db (.insert id table)).get other column = db.get other column := by
  have hFresh : ([Row.fresh id table].find? fun row => decide (row.id = other)) = none := by
    simp [Row.fresh, h.symm]
  rw [Database.get, Op.apply, List.find?_append, hFresh, Option.or_none]
  rfl

/-- A new row has the defaults. -/
theorem get_insert_same (h : ¬ db.Exists id) :
    (Op.apply db (.insert id table)).get id column = column.shape.default := by
  have hNone : (db.find? fun row => row.id = id) = none := by
    refine List.find?_eq_none.mpr fun row hRow hSame => h ⟨row, hRow, by simpa using hSame⟩
  rw [Database.get, Op.apply, List.find?_append, hNone]
  simp [Row.fresh]

end Cells

/-- Every row stays, and so does its table and its cells but for those touched. -/
structure Database.Extends (touched : RowId → Column → Prop) (before after : Database) : Prop where
  exists_of (id : RowId) : before.Exists id → after.Exists id
  get_eq (id : RowId) (column : Column) : before.Exists id → ¬ touched id column →
    after.get id column = before.get id column

/-- The same rows, with the same cells. -/
structure Database.Same (before after : Database) : Prop where
  ids (table : Table) : after.ids table = before.ids table
  get_eq (id : RowId) (column : Column) (h : before.Exists id) :
    after.get id column = before.get id column

section Extends

variable {touched touched' : RowId → Column → Prop} {before middle after : Database}

/-- Nothing has changed. -/
theorem Database.Extends.refl (touched : RowId → Column → Prop) (db : Database) :
    db.Extends touched db := ⟨fun _ h => h, fun _ _ _ _ => rfl⟩

/-- Changes add up. -/
theorem Database.Extends.trans (first : before.Extends touched middle)
    (second : middle.Extends touched' after)
    (hTouched : ∀ id column, before.Exists id → touched' id column → touched id column) :
    before.Extends touched after := by
  refine ⟨fun id h => second.exists_of id (first.exists_of id h), fun id column h hSame => ?_⟩
  have hLater := second.get_eq id column (first.exists_of id h) fun h' => hSame (hTouched id column h h')
  exact hLater.trans (first.get_eq id column h hSame)

/-- More may be said to have been touched. -/
theorem Database.Extends.mono (h : before.Extends touched after)
    (hTouched : ∀ id column, before.Exists id → touched id column → touched' id column) :
    before.Extends touched' after :=
  ⟨h.exists_of, fun id column hId hSame => h.get_eq id column hId fun h' => hSame (hTouched id column hId h')⟩

/-- An insertion touches no cell that was there. -/
theorem extends_insert {db : Database} {id : RowId} {table : Table} (h : ¬ db.Exists id) :
    db.Extends (fun _ _ => False) (Op.apply db (.insert id table)) :=
  ⟨fun _ hOld => exists_insert.mpr (.inl hOld), fun _ _ hOld _ =>
    get_insert_other fun hSame => h (hSame ▸ hOld)⟩

/-- A write touches its own cell only. -/
theorem extends_write {db : Database} {id : RowId} {column : Column} (value : column.Val) :
    db.Extends (fun id' column' => id' = id ∧ column' = column)
      (Op.apply db (.write id column value)) :=
  ⟨fun _ hOld => exists_write.mpr hOld, fun _ _ _ hOther =>
    get_write_other value fun hId hColumn => hOther ⟨hId, hColumn⟩⟩

end Extends
end OpsSysd.Idl
