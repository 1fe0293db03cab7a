import OpsSysd.Daemon.PackageTable
import OpsSysd.Daemon.Pass

/-! What the package parser asks of the IDL on an arbitrary document. A document
is seen as its values, each with the key word last met before it; the parser is
safe exactly when every value finds the transaction and the row it needs. -/
namespace OpsSysd.Daemon

open CLib Interaction Interaction.Program Idl

/-- A value of the document, under the key word last met before it. -/
abbrev Entry := Key × CString

/-- The values of a document, read from this key word on. -/
def entriesFrom : Key → List CString → List Entry
  | _, [] => []
  | current, scalar :: rest =>
      match packageInfoMappingCheckKey scalar with
      | .value => (current, scalar) :: entriesFrom current rest
      | key => entriesFrom key rest

def entriesOf (events : List YamlEvent) : List Entry := entriesFrom .value (delivered events)

namespace Entry

/-- This value sets a column of the current row. -/
def Sets (entry : Entry) : Prop :=
  entry.1 = .pv ∨ entry.1 = .srcUrl ∨ entry.1 = .type ∨
    (entry.1 = .srcRev ∧ entry.2 ≠ .lit "INVALID")

end Entry

/-- The records ended by these values. -/
def ended (entries : List Entry) : Nat := entries.countP fun entry => entry.1 = .type

/-- A package has been begun since the last full batch was ended. -/
def PackageBegun (entries : List Entry) : Prop :=
  ∃ earlier value later, entries = earlier ++ (.pkg, value) :: later ∧
    ended earlier / pkgInfoEntriesPerCommit = ended entries / pkgInfoEntriesPerCommit

/-- No package has been named. -/
def NoPackage (entries : List Entry) : Prop := ∀ entry ∈ entries, entry.1 ≠ .pkg

/-- A column is set before the first package is named, on a row that is not there. -/
def SetsNoRow (entries : List Entry) : Prop :=
  ∃ earlier entry later, entries = earlier ++ entry :: later ∧ entry.Sets ∧ NoPackage earlier

/-- A value that sets a column comes after a package of its own batch, and a
package at the boundary of a batch is the first of that batch. -/
structure Proper (before : List Entry) (entry : Entry) : Prop where
  sets : entry.Sets → PackageBegun before
  begins : entry.1 = .pkg → ended before % pkgInfoEntriesPerCommit = 0 → ¬ PackageBegun before

/-- Each of the values has its proper place after those before it. -/
def SequencedAfter (before entries : List Entry) : Prop :=
  ∀ middle entry after, entries = middle ++ entry :: after → Proper (before ++ middle) entry

/-- Every value of the document has its proper place. -/
def WellSequenced (entries : List Entry) : Prop := SequencedAfter [] entries

/-- A row is inserted and a commit made only with a transaction open, a column
set only on a row of the open transaction, and none is created next to it. -/
def PackageSafe {World : Type} (state : State World) : Request → Prop
  | .insert txn _ => state.Opened txn
  | .write row _ _ => ∃ current, state.txn = some current ∧
      row ∈ insertions .packageInfo current.ops
  | .txnCreate => state.txn = none
  | .commitBlock txn => state.Opened txn
  | .fault _ => False
  | _ => True

/-- What the parser asks for with every value in its place: an open transaction is
given up only where the IDL has refused a row. -/
structure PackageGrants {World : Type} (env : Environment World)
    (permitted : State World → Request → Prop) : Prop where
  create {state : State World} (hClosed : state.txn = none) : permitted state .txnCreate
  insert {state : State World} {txn : TxnId} (hOpen : state.Opened txn) :
    permitted state (.insert txn .packageInfo)
  write {state : State World} {current : Txn} {row : RowId} (hOpen : state.txn = some current)
    (hRow : row ∈ insertions .packageInfo current.ops) (column : Column) (arg : column.Arg) :
    permitted state (.write row column arg)
  commit {state : State World} {txn : TxnId} (hOpen : state.Opened txn) :
    permitted state (.commitBlock txn)
  destroy {state : State World} (txn : TxnId) (hClosed : state.txn = none) :
    permitted state (.txnDestroy txn)
  refuse {state : State World} (txn : TxnId) (hFails : env.insertFails state.world .packageInfo) :
    permitted state (.txnDestroy txn)

/-- The rules permit what the parser does in its place. -/
theorem packageSafe_grants {World : Type} {env : Environment World} :
    PackageGrants env PackageSafe where
  create hClosed := hClosed
  insert hOpen := hOpen
  write hOpen hRow _ _ := ⟨_, hOpen, hRow⟩
  commit hOpen := hOpen
  destroy _ _ := trivial
  refuse _ _ := trivial

/-- What the parser may ask for at most: no transaction next to an open one, no
write without one, and a null pointer at most where `crash` holds. -/
structure PackageObliges {World : Type} (permitted : State World → Request → Prop) (crash : Prop) :
    Prop where
  create {state : State World} (h : permitted state .txnCreate) : state.txn = none
  write {state : State World} {row : RowId} {column : Column} {arg : column.Arg}
    (h : permitted state (.write row column arg)) : state.txn ≠ none
  insert {state : State World} {txn : TxnId} (h : permitted state (.insert txn .packageInfo)) :
    state.Opened txn
  commit {state : State World} {txn : TxnId} (h : permitted state (.commitBlock txn)) :
    state.Opened txn
  fault {state : State World} {kind : Fault} (h : permitted state (.fault kind)) : crash

/-- And they forbid it out of its place. -/
theorem packageSafe_obliges {World : Type} : PackageObliges (@PackageSafe World) False where
  create h := h
  write h hNone := by
    obtain ⟨current, hOpen, -⟩ := h
    exact nomatch hNone.symm.trans hOpen
  insert h := h
  commit h := h
  fault h := h

section Sequence

variable {before after : List Entry} {entry : Entry}

/-- A value of another key names no package. -/
theorem noPackage_concat (h : NoPackage before) (hPkg : entry.1 ≠ .pkg) :
    NoPackage (before ++ [entry]) :=
  List.forall_mem_append.mpr ⟨h, List.forall_mem_singleton.mpr hPkg⟩

/-- Records that have ended add up. -/
theorem ended_append (first second : List Entry) :
    ended (first ++ second) = ended first + ended second := List.countP_append

/-- A type ends a record. -/
theorem ended_type (before : List Entry) (value : CString) :
    ended (before ++ [(.type, value)]) = ended before + 1 := ended_append before [(.type, value)]

/-- No other value does. -/
theorem ended_other (before : List Entry) (entry : Entry) (h : entry.1 ≠ .type) :
    ended (before ++ [entry]) = ended before := by
  rw [ended_append]
  simp [ended, h]

/-- A package has begun with its name. -/
theorem packageBegun_pkg (before : List Entry) (value : CString) :
    PackageBegun (before ++ [(.pkg, value)]) := by
  have hEnded := ended_other before (.pkg, value) nofun
  exact ⟨before, value, [], rfl, congrArg (· / _) hEnded.symm⟩

/-- Within a batch, a value under another key changes nothing. -/
theorem packageBegun_other (entry : Entry) (hPkg : entry.1 ≠ .pkg)
    (hBatch : ended (before ++ [entry]) / pkgInfoEntriesPerCommit =
      ended before / pkgInfoEntriesPerCommit) :
    PackageBegun (before ++ [entry]) ↔ PackageBegun before := by
  constructor
  · rintro ⟨earlier, value, later, hSplit, hSame⟩
    rcases List.eq_nil_or_concat later with rfl | ⟨later, last, rfl⟩
    · obtain ⟨-, hLast⟩ := List.append_inj' hSplit rfl
      obtain rfl := List.head_eq_of_cons_eq hLast
      exact absurd rfl hPkg
    · rw [List.concat_eq_append, ← List.cons_append, ← List.append_assoc] at hSplit
      obtain ⟨rfl, -⟩ := List.append_inj' hSplit rfl
      exact ⟨earlier, value, later, rfl, hSame.trans hBatch⟩
  · rintro ⟨earlier, value, later, rfl, hSame⟩
    exact ⟨earlier, value, later ++ [entry], by simp, hSame.trans hBatch.symm⟩

/-- After a full batch none has been begun. -/
theorem not_packageBegun_boundary (value : CString)
    (hFull : (ended before + 1) % pkgInfoEntriesPerCommit = 0) :
    ¬ PackageBegun (before ++ [(.type, value)]) := by
  rintro ⟨earlier, name, later, hSplit, hSame⟩
  rcases List.eq_nil_or_concat later with rfl | ⟨later, last, rfl⟩
  · obtain ⟨-, hLast⟩ := List.append_inj' hSplit rfl
    exact nomatch List.head_eq_of_cons_eq hLast
  · rw [List.concat_eq_append, ← List.cons_append, ← List.append_assoc] at hSplit
    obtain ⟨rfl, -⟩ := List.append_inj' hSplit rfl
    rw [ended_type, ended_append] at *
    unfold pkgInfoEntriesPerCommit at *
    omega

/-- A record that does not fill the batch stays in it. -/
theorem ended_within_batch (hPartial : (ended before + 1) % pkgInfoEntriesPerCommit ≠ 0) :
    (ended before + 1) / pkgInfoEntriesPerCommit = ended before / pkgInfoEntriesPerCommit := by
  unfold pkgInfoEntriesPerCommit at *
  omega

theorem sequencedAfter_nil (before : List Entry) : SequencedAfter before [] :=
  fun _ _ _ hSplit => absurd hSplit.symm (by simp)

/-- The places are checked from the front. -/
theorem sequencedAfter_cons :
    SequencedAfter before (entry :: after) ↔
      Proper before entry ∧ SequencedAfter (before ++ [entry]) after := by
  constructor
  · intro h
    refine ⟨by simpa using h [] entry after rfl, fun middle next rest hSplit => ?_⟩
    rw [List.append_assoc]
    exact h (entry :: middle) next rest (congrArg (entry :: ·) hSplit)
  · rintro ⟨hPlace, hRest⟩ middle next rest hSplit
    cases middle with
    | nil =>
        obtain ⟨rfl, -⟩ := List.cons.inj hSplit
        rwa [List.append_nil]
    | cons first middle =>
        obtain ⟨rfl, hTail⟩ := List.cons.inj hSplit
        have hNext := hRest middle next rest hTail
        rwa [List.append_assoc] at hNext

end Sequence

section Values

variable {World : Type} {env : Environment World} {before : List Entry} {entry : Entry}
  {parser : PackageParser} {state : State World} {post : Unit → State World → Prop}
  {next : Option PackageParser → Program Calls Unit} {value : CString}
  {permitted : State World → Request → Prop}

/-- What the parser and the session have come to after these values. -/
structure After (before : List Entry) (parser : PackageParser) (state : State World) : Prop where
  count : parser.recordCount = ended before
  tracked : Tracked parser state
  begun : PackageBegun before → ∃ current row, state.txn = some current ∧ parser.row = some row ∧
    row ∈ insertions .packageInfo current.ops
  closed : ¬ PackageBegun before → state.txn = none ∧ ended before % pkgInfoEntriesPerCommit = 0
  rowless : parser.row = none → NoPackage before

/-- An open transaction has a package in it. -/
theorem After.begun_of_open (h : After before parser state) {current : Txn}
    (hOpen : state.txn = some current) : PackageBegun before := by
  by_contra hBegun
  exact nomatch hOpen.symm.trans (h.closed hBegun).1

/-- A key changes nothing but what is expected. -/
theorem After.of_key (h : After before parser state) (key : Key) :
    After before { parser with currentState := key } state :=
  ⟨h.count, h.tracked, h.begun, h.closed, h.rowless⟩

/-- A value that neither begins nor ends a record. -/
theorem After.skip (h : After before parser state) (hPkg : entry.1 ≠ .pkg) (hType : entry.1 ≠ .type) :
    After (before ++ [entry]) parser state := by
  have hEnded := ended_other before entry hType
  have hBegun := packageBegun_other entry hPkg (congrArg (· / pkgInfoEntriesPerCommit) hEnded)
  exact ⟨h.count.trans hEnded.symm, h.tracked, fun hNow => h.begun (hBegun.mp hNow),
    fun hNow => hEnded.symm ▸ h.closed (mt hBegun.mpr hNow),
    fun hRow => noPackage_concat (h.rowless hRow) hPkg⟩

theorem After.push (h : After before parser state) {current : Txn} (hOpen : state.txn = some current)
    (op : Op) : After before parser (state.push current op) := by
  refine ⟨h.count, ?_, fun hBegun => ?_, fun hBegun => absurd (h.begun_of_open hOpen) hBegun, h.rowless⟩
  · rw [Tracked, h.tracked, hOpen]
    rfl
  · obtain ⟨current', row, hOpen', hRow, hInserted⟩ := h.begun hBegun
    obtain rfl := Option.some.inj (hOpen.symm.trans hOpen')
    refine ⟨_, row, rfl, hRow, ?_⟩
    rw [insertions_append]
    exact List.mem_append_left _ hInserted

/-- The row of a package has just been inserted. -/
theorem After.inserted (hCount : parser.recordCount = ended before) (hTracked : Tracked parser state)
    {current : Txn} (hOpen : state.txn = some current) (row : RowId) (value : CString) :
    After (before ++ [(.pkg, value)]) { parser with row := some row }
      (state.push current (.insert row .packageInfo)) := by
  refine ⟨hCount.trans (ended_other before (.pkg, value) nofun).symm, ?_, fun _ => ?_, fun hBegun => ?_,
    fun hRow => nomatch hRow⟩
  · change parser.txn = _
    rw [hTracked, hOpen]
    rfl
  · refine ⟨_, row, rfl, rfl, ?_⟩
    rw [insertions_append]
    exact List.mem_append_right _ (by simp [insertions])
  · exact absurd (packageBegun_pkg before value) hBegun

/-- A record has ended, and its batch goes on. -/
theorem After.ended_within (h : After before parser state) (hBegun : PackageBegun before)
    (hPartial : (parser.recordCount + 1) % pkgInfoEntriesPerCommit ≠ 0) (value : CString) :
    After (before ++ [(.type, value)]) { parser with recordCount := parser.recordCount + 1 }
      state := by
  have hEnded := ended_type before value
  rw [h.count] at hPartial
  have hBatch : ended (before ++ [(.type, value)]) / pkgInfoEntriesPerCommit =
      ended before / pkgInfoEntriesPerCommit := hEnded.symm ▸ ended_within_batch hPartial
  have hStill := (packageBegun_other (.type, value) nofun hBatch).mpr hBegun
  refine ⟨?_, h.tracked, fun _ => h.begun hBegun, fun hNow => absurd hStill hNow, fun hRow => ?_⟩
  · rw [hEnded, ← h.count]
  · exact noPackage_concat (h.rowless hRow) nofun

/-- A record and its batch have ended. -/
theorem After.ended_batch (hCount : parser.recordCount = ended before + 1)
    (hFull : parser.recordCount % pkgInfoEntriesPerCommit = 0) (hTxn : parser.txn = none)
    (hClosed : state.txn = none) (hRow : parser.row ≠ none) (value : CString) :
    After (before ++ [(.type, value)]) parser state := by
  have hEnded := ended_type before value
  have hNone := not_packageBegun_boundary value (hCount ▸ hFull)
  refine ⟨hCount.trans hEnded.symm, ?_, fun hNow => absurd hNow hNone, fun _ => ⟨hClosed, ?_⟩,
    fun hNow => absurd hNow hRow⟩
  · rw [Tracked, hTxn, hClosed]
    rfl
  · rwa [hEnded, ← hCount]

/-- What one value leads to: the parser has returned, or goes on under the same
key word. -/
def Reads (before : List Entry) (key : Key) : Option PackageParser → State World → Prop
  | none, _ => True
  | some parser, state => parser.currentState = key ∧ After before parser state

/-- A value after its package may be written. -/
theorem After.safe_write (h : After before parser state) (grants : PackageGrants env permitted)
    (hBegun : PackageBegun before) {column : Column} {arg : column.Arg} {Result : Type}
    {next : Unit → Program Calls Result} {post : Result → State World → Prop} {row : RowId}
    (hRow : parser.row = some row)
    (hNext : ∀ after, After before parser after → Safe (step env) permitted (next ()) post after) :
    Safe (step env) permitted (.call (.write row column arg) next) post state := by
  obtain ⟨current, row', hOpen, hRow', hInserted⟩ := h.begun hBegun
  obtain rfl := Option.some.inj (hRow.symm.trans hRow')
  exact safe_write_open hOpen (grants.write hOpen hInserted _ _) fun value _ => hNext _ (h.push hOpen _)

/-- So may the value of every other column. -/
theorem After.safe_setColumn (h : After before parser state) (grants : PackageGrants env permitted)
    (hPlace : Proper before entry) (hSets : entry.Sets) (hPkg : entry.1 ≠ .pkg)
    (hType : entry.1 ≠ .type) (column : Column) (arg : column.Arg) :
    Safe (step env) permitted (setColumn (write · column arg) parser)
      (Reads (before ++ [entry]) parser.currentState) state := by
  obtain ⟨current, row, -, hRow, -⟩ := h.begun (hPlace.sets hSets)
  rw [setColumn, hRow]
  exact h.safe_write grants (hPlace.sets hSets) hRow fun after hAfter => ⟨rfl, hAfter.skip hPkg hType⟩

/-- A package may be inserted into an open transaction. -/
theorem After.safe_insertPackage (grants : PackageGrants env permitted) (hTracked : Tracked parser state)
    (hCount : parser.recordCount = ended before) {txn : TxnId} (hOpen : state.Opened txn) (value : CString) :
    Safe (step env) permitted (insertPackage value txn parser)
      (Reads (before ++ [(.pkg, value)]) parser.currentState) state := by
  obtain ⟨current, hCurrent, rfl⟩ := hOpen
  refine safe_insert_open hCurrent (grants.insert ⟨current, hCurrent, rfl⟩) (fun hFails => ?_) fun row _ => ?_
  · exact safe_txnDestroy.mpr ⟨grants.refuse _ hFails, trivial⟩
  · have hInserted := After.inserted hCount hTracked hCurrent row value
    exact hInserted.safe_write grants (packageBegun_pkg before value) rfl
      fun after hAfter => ⟨rfl, hAfter⟩

/-- A value in its proper place is handled safely. -/
theorem After.safe_handleValue (h : After before parser state) (grants : PackageGrants env permitted)
    (hPlace : Proper before (parser.currentState, value)) :
    Safe (step env) permitted (handleValue value parser)
      (Reads (before ++ [(parser.currentState, value)]) parser.currentState) state := by
  obtain ⟨key, recordCount, row, txn⟩ := parser
  cases key with
  | value => exact ⟨rfl, h.skip nofun nofun⟩
  | pkg =>
      change Safe _ _ (if recordCount % pkgInfoEntriesPerCommit = 0 then _ else _) _ _
      split
      case isTrue hBoundary =>
        have hClosed := (h.closed (hPlace.begins rfl (h.count ▸ hBoundary))).1
        refine safe_txnCreate.mpr ⟨grants.create hClosed, fun _ => ?_⟩
        have hTracked : Tracked ⟨.pkg, recordCount, row, some state.nextTxn⟩
            { state with txn := some ⟨state.nextTxn, []⟩, nextTxn := state.nextTxn + 1 } := rfl
        exact After.safe_insertPackage grants hTracked h.count ⟨_, rfl, rfl⟩ value
      case isFalse hWithin =>
        have hBegun : PackageBegun before :=
          by_contra fun hNot =>
            hWithin ((congrArg (· % pkgInfoEntriesPerCommit) h.count).trans (h.closed hNot).2)
        obtain ⟨current, -, hOpen, -, -⟩ := h.begun hBegun
        obtain rfl : txn = some current.id := h.tracked.trans (hOpen ▸ rfl)
        exact After.safe_insertPackage grants h.tracked h.count ⟨current, hOpen, rfl⟩ value
  | pv => exact h.safe_setColumn grants hPlace (.inl rfl) nofun nofun .packageInfoVersion value
  | srcRev =>
      change Safe _ _ (if _ then _ else _) _ _
      split
      case isTrue => exact ⟨rfl, h.skip nofun nofun⟩
      case isFalse hValid =>
        have hSets : Entry.Sets (.srcRev, value) :=
          .inr (.inr (.inr ⟨rfl, fun hSame => hValid ((streq_iff _ _).mpr hSame)⟩))
        exact h.safe_setColumn grants hPlace hSets nofun nofun .packageInfoVersion value
  | srcUrl => exact h.safe_setColumn grants hPlace (.inr (.inl rfl)) nofun nofun .packageInfoSrcUrl value
  | type =>
      have hBegun := hPlace.sets (.inr (.inr (.inl rfl)))
      obtain ⟨current, id, -, rfl, -⟩ := h.begun hBegun
      refine h.safe_write grants hBegun rfl fun after hAfter => ?_
      change Safe _ _ (if (recordCount + 1) % pkgInfoEntriesPerCommit = 0 then _ else _) _ _
      split
      case isTrue hFull =>
        obtain ⟨current, -, hOpen, -, -⟩ := hAfter.begun hBegun
        obtain rfl : txn = some current.id := hAfter.tracked.trans (hOpen ▸ rfl)
        refine safe_commit_open hOpen (grants.commit ⟨current, hOpen, rfl⟩) fun status world link _ => ?_
        refine safe_txnDestroy.mpr ⟨grants.destroy _ rfl, rfl, ?_⟩
        exact After.ended_batch (congrArg (· + 1) h.count) hFull rfl rfl (Option.some_ne_none _) value
      case isFalse hPartial => exact ⟨rfl, hAfter.ended_within hBegun hPartial value⟩

/-- A package begun has its transaction, which the parser knows. -/
theorem After.txn_of_begun (h : After before parser state) (hBegun : PackageBegun before) :
    parser.txn ≠ none := by
  obtain ⟨current, -, hOpen, -⟩ := h.begun hBegun
  rw [h.tracked, hOpen]
  exact Option.some_ne_none _

/-- A write that keeps the rules has its package before it. -/
theorem After.write_of_safe (h : After before parser state) {crash : Prop}
    (obliges : PackageObliges permitted crash) {Result : Type} {row : RowId}
    {column : Column} {arg : column.Arg} {next : Unit → Program Calls Result}
    {post : Result → State World → Prop}
    (hSafe : Safe (step env) permitted (.call (.write row column arg) next) post state) :
    PackageBegun before ∧
      ∃ after, After before parser after ∧ Safe (step env) permitted (next ()) post after := by
  obtain ⟨hWrite, -, hNext⟩ := Idl.safe_write.mp hSafe
  obtain ⟨current, hOpen⟩ := Option.ne_none_iff_exists'.mp (obliges.write hWrite)
  obtain ⟨value, hValue⟩ := column.shape.exists_stored arg
  exact ⟨h.begun_of_open hOpen, _, h.push hOpen _, hNext current hOpen value hValue⟩

/-- Where a setter is safe, a package has been begun, or it crashes for want of one. -/
theorem After.setColumn_of_safe (h : After before parser state) {crash : Prop}
    (obliges : PackageObliges permitted crash) {column : Column} {arg : column.Arg}
    (hSafe : Safe (step env) permitted (setColumn (write · column arg) parser >>= next) post state) :
    (PackageBegun before ∧
      ∃ after, After before parser after ∧
        Safe (step env) permitted (next (some parser)) post after) ∨ crash ∧ NoPackage before := by
  rw [setColumn] at hSafe
  cases hRow : parser.row with
  | none =>
      rw [hRow] at hSafe
      exact .inr ⟨obliges.fault (safe_fault.mp hSafe), h.rowless hRow⟩
  | some row =>
      rw [hRow] at hSafe
      exact .inl (h.write_of_safe obliges hSafe)

/-- After a safe insertion the parser is in its place. -/
theorem After.insertPackage_of_safe {crash : Prop} (obliges : PackageObliges permitted crash)
    (hTracked : Tracked parser state) (hCount : parser.recordCount = ended before) {txn : TxnId}
    (hSafe : Safe (step env) permitted (insertPackage value txn parser >>= next) post state) :
    ∃ parser' state', Reads (before ++ [(.pkg, value)]) parser.currentState (some parser') state' ∧
      Safe (step env) permitted (next (some parser')) post state' := by
  obtain ⟨hPermitted, hInsert⟩ := safe_insert.mp hSafe
  obtain ⟨current, hOpen, hId⟩ := obliges.insert hPermitted
  obtain ⟨row, hFresh⟩ := state.view.exists_fresh
  have hWrite := (hInsert current hOpen hId).2 row hFresh
  have hInserted := After.inserted hCount hTracked hOpen row value
  obtain ⟨-, after, hAfter, hNext⟩ := hInserted.write_of_safe obliges hWrite
  exact ⟨{ parser with row := some row }, after, ⟨rfl, hAfter⟩, hNext⟩

/-- A value that is handled safely is in its proper place, and the rest of the
document may follow it; or the parser crashes on it, with no package named. -/
theorem After.step_of_safe (total : env.Total) (h : After before parser state) {crash : Prop}
    (obliges : PackageObliges permitted crash)
    (hSafe : Safe (step env) permitted (handleValue value parser >>= next) post state) :
    (Proper before (parser.currentState, value) ∧
      ∃ parser' state', Reads (before ++ [(parser.currentState, value)]) parser.currentState
        (some parser') state' ∧ Safe (step env) permitted (next (some parser')) post state') ∨
      crash ∧ Entry.Sets (parser.currentState, value) ∧ NoPackage before := by
  obtain ⟨key, recordCount, row, txn⟩ := parser
  have hColumn : ∀ column arg, Entry.Sets (key, value) → key ≠ .pkg → key ≠ .type →
      Safe (step env) permitted
        (setColumn (write · column arg) ⟨key, recordCount, row, txn⟩ >>= next) post state →
      (Proper before (key, value) ∧ ∃ parser' state', Reads (before ++ [(key, value)]) key
        (some parser') state' ∧ Safe (step env) permitted (next (some parser')) post state') ∨
        crash ∧ Entry.Sets (key, value) ∧ NoPackage before := by
    intro column arg hSets hPkg hType hSetter
    rcases h.setColumn_of_safe obliges hSetter with ⟨hBegun, after, hAfter, hNext⟩ | ⟨hCrash, hNone⟩
    · exact .inl ⟨⟨fun _ => hBegun, fun hKey => absurd hKey hPkg⟩, _, after,
        ⟨rfl, hAfter.skip hPkg hType⟩, hNext⟩
    · exact .inr ⟨hCrash, hSets, hNone⟩
  cases key with
  | value =>
      refine .inl ⟨⟨?_, fun hKey => by cases hKey⟩, _, state, ⟨rfl, h.skip (by simp) (by simp)⟩, hSafe⟩
      rintro (hKey | hKey | hKey | ⟨hKey, -⟩)
      all_goals cases hKey
  | pkg =>
      have hSets : ¬ Entry.Sets (.pkg, value) := by
        rintro (hKey | hKey | hKey | ⟨hKey, -⟩)
        all_goals cases hKey
      change Safe _ _ ((if recordCount % pkgInfoEntriesPerCommit = 0 then _ else _) >>= next) _ _
        at hSafe
      by_cases hBoundary : recordCount % pkgInfoEntriesPerCommit = 0
      · rw [if_pos hBoundary] at hSafe
        obtain ⟨hCreated, hCreate⟩ := safe_txnCreate.mp hSafe
        have hClosed := obliges.create hCreated
        have hNone : ¬ PackageBegun before := by
          intro hBegun
          obtain ⟨current, -, hOpen, -⟩ := h.begun hBegun
          exact Option.some_ne_none _ (hOpen.symm.trans hClosed)
        have hTracked : Tracked ⟨.pkg, recordCount, row, some state.nextTxn⟩
            { state with txn := some ⟨state.nextTxn, []⟩, nextTxn := state.nextTxn + 1 } := rfl
        refine .inl ⟨⟨fun h => absurd h hSets, fun _ _ => hNone⟩, ?_⟩
        have hInsert := After.insertPackage_of_safe obliges hTracked h.count (hCreate hClosed)
        exact hInsert
      · rw [if_neg hBoundary] at hSafe
        have hWithin : ended before % pkgInfoEntriesPerCommit ≠ 0 := by
          rwa [← (show recordCount = ended before from h.count)]
        refine .inl ⟨⟨fun h => absurd h hSets, fun _ hMod => absurd hMod hWithin⟩, ?_⟩
        cases txn with
        | none =>
            have hBegun : PackageBegun before := by_contra fun hNot => hWithin (h.closed hNot).2
            exact absurd rfl (h.txn_of_begun hBegun)
        | some txn => exact After.insertPackage_of_safe obliges h.tracked h.count hSafe
  | pv => exact hColumn .packageInfoVersion value (.inl rfl) (by simp) (by simp) hSafe
  | srcRev =>
      change Safe _ _ ((if streq value (.lit "INVALID") then _ else _) >>= next) _ _ at hSafe
      by_cases hInvalid : streq value (.lit "INVALID") = true
      · rw [if_pos hInvalid] at hSafe
        refine .inl ⟨⟨?_, fun hKey => by cases hKey⟩, _, state, ⟨rfl, h.skip (by simp) (by simp)⟩, hSafe⟩
        rintro (hKey | hKey | hKey | ⟨-, hValid⟩)
        case inr.inr.inr => exact absurd ((streq_iff _ _).mp hInvalid) hValid
        all_goals cases hKey
      · rw [if_neg hInvalid] at hSafe
        have hValid : value ≠ .lit "INVALID" := fun hSame => hInvalid ((streq_iff _ _).mpr hSame)
        exact hColumn .packageInfoVersion value (.inr (.inr (.inr ⟨rfl, hValid⟩))) (by simp) (by simp)
          hSafe
  | srcUrl => exact hColumn .packageInfoSrcUrl value (.inr (.inl rfl)) (by simp) (by simp) hSafe
  | type =>
      change Safe _ _ (endRecord value _ >>= next) _ _ at hSafe
      rw [endRecord] at hSafe
      cases row with
      | none =>
          exact .inr ⟨obliges.fault (safe_fault.mp hSafe), .inr (.inr (.inl rfl)), h.rowless rfl⟩
      | some row =>
          obtain ⟨hBegun, after, hAfter, hRest⟩ := h.write_of_safe obliges hSafe
          refine .inl ⟨⟨fun _ => hBegun, fun hKey => by cases hKey⟩, ?_⟩
          change Safe _ _ ((if (recordCount + 1) % pkgInfoEntriesPerCommit = 0 then _ else _) >>= next)
            _ _ at hRest
          by_cases hFull : (recordCount + 1) % pkgInfoEntriesPerCommit = 0
          · rw [if_pos hFull] at hRest
            cases txn with
            | none => exact absurd rfl (h.txn_of_begun hBegun)
            | some txn =>
                obtain ⟨hPermitted, hCommit⟩ := safe_commitBlock.mp hRest
                obtain ⟨current, hOpen, hId⟩ := obliges.commit hPermitted
                obtain ⟨status, world, link, hTaken⟩ :=
                  total.commit after.world after.link current.ops
                have hNext := (safe_txnDestroy.mp (hCommit current hOpen hId _ _ _ hTaken)).2
                refine ⟨⟨.type, recordCount + 1, some row, none⟩, _, ⟨rfl, ?_⟩, hNext⟩
                exact After.ended_batch (congrArg (· + 1) h.count) hFull rfl rfl
                  (Option.some_ne_none _) value
          · rw [if_neg hFull] at hRest
            exact ⟨⟨.type, recordCount + 1, some row, txn⟩, after,
              ⟨rfl, hAfter.ended_within hBegun hFull value⟩, hRest⟩

end Values

section Documents

variable {World : Type} {env : Environment World} {before : List Entry} {parser : PackageParser}
  {state : State World} {scalars : List CString} {permitted : State World → Request → Prop}

/-- The last commit has its transaction. -/
theorem After.safe_commitLastBatch (h : After before parser state) (grants : PackageGrants env permitted) :
    Safe (step env) permitted (commitLastBatch (some parser)) (fun _ _ => True) state := by
  rw [commitLastBatch]
  cases hTxn : state.txn with
  | none =>
      rw [h.tracked, hTxn]
      trivial
  | some current =>
      rw [h.tracked, hTxn]
      refine safe_commit_open hTxn (grants.commit ⟨current, hTxn, rfl⟩) fun status world link _ => ?_
      exact safe_txnDestroy.mpr ⟨grants.destroy _ rfl, trivial⟩

/-- A scalar that is a key word, and one that is not. -/
theorem handleScalar_cases (scalar : CString) (key : Key) (rest : List CString) :
    (∃ next, entriesFrom key (scalar :: rest) = entriesFrom next rest ∧
      ∀ parser, handleScalar scalar parser = .done (some { parser with currentState := next })) ∨
    (entriesFrom key (scalar :: rest) = (key, scalar) :: entriesFrom key rest ∧
      ∀ parser, handleScalar scalar parser = handleValue scalar parser) := by
  simp only [entriesFrom, handleScalar]
  cases packageInfoMappingCheckKey scalar with
  | value => exact .inr ⟨rfl, fun _ => rfl⟩
  | pkg => exact .inl ⟨.pkg, rfl, fun _ => rfl⟩
  | pv => exact .inl ⟨.pv, rfl, fun _ => rfl⟩
  | srcRev => exact .inl ⟨.srcRev, rfl, fun _ => rfl⟩
  | srcUrl => exact .inl ⟨.srcUrl, rfl, fun _ => rfl⟩
  | type => exact .inl ⟨.type, rfl, fun _ => rfl⟩

/-- A document in which every value has its proper place is parsed safely. -/
theorem After.safe_parseScalars (h : After before parser state) (grants : PackageGrants env permitted)
    (hSequenced : SequencedAfter before (entriesFrom parser.currentState scalars)) :
    Safe (step env) permitted (parseScalars scalars parser >>= commitLastBatch)
      (fun _ _ => True) state := by
  induction scalars generalizing before parser state with
  | nil => exact h.safe_commitLastBatch grants
  | cons scalar rest ih =>
      rw [parseScalars, bind_assoc]
      rcases handleScalar_cases scalar parser.currentState rest with
        ⟨key, hEntries, hHandle⟩ | ⟨hEntries, hHandle⟩
      · rw [hEntries] at hSequenced
        rw [hHandle]
        exact ih (h.of_key key) hSequenced
      · rw [hEntries, sequencedAfter_cons] at hSequenced
        rw [hHandle]
        refine (h.safe_handleValue grants hSequenced.1).bind fun result state' hReads => ?_
        cases result with
        | none => trivial
        | some parser' =>
            obtain ⟨hKey, hAfter⟩ := hReads
            refine ih hAfter ?_
            rw [hKey]
            exact hSequenced.2

/-- And only such a document is, or one that crashes it before a package is named. -/
theorem After.sequenced_of_safe (total : env.Total) (h : After before parser state) {crash : Prop}
    (obliges : PackageObliges permitted crash)
    (hSafe : Safe (step env) permitted (parseScalars scalars parser >>= commitLastBatch)
      (fun _ _ => True) state) :
    SequencedAfter before (entriesFrom parser.currentState scalars) ∨
      crash ∧ ∃ earlier entry later, entriesFrom parser.currentState scalars =
        earlier ++ entry :: later ∧ Entry.Sets entry ∧ NoPackage (before ++ earlier) := by
  induction scalars generalizing before parser state with
  | nil => exact .inl (sequencedAfter_nil before)
  | cons scalar rest ih =>
      rw [parseScalars, bind_assoc] at hSafe
      rcases handleScalar_cases scalar parser.currentState rest with
        ⟨key, hEntries, hHandle⟩ | ⟨hEntries, hHandle⟩
      · rw [hHandle] at hSafe
        rw [hEntries]
        exact ih (h.of_key key) hSafe
      · rw [hHandle] at hSafe
        rw [hEntries, sequencedAfter_cons]
        rcases h.step_of_safe total obliges hSafe with
          ⟨hPlace, parser', state', ⟨hKey, hAfter⟩, hRest⟩ | ⟨hCrash, hSets, hNone⟩
        · have hLater := ih hAfter hRest
          rw [hKey] at hLater
          refine hLater.imp (And.intro hPlace) ?_
          rintro ⟨hCrash, earlier, entry, later, hSplit, hSets, hNone⟩
          refine ⟨hCrash, _ :: earlier, entry, later, congrArg (_ :: ·) hSplit, hSets, ?_⟩
          rwa [List.append_assoc] at hNone
        · exact .inr ⟨hCrash, [], _, _, rfl, hSets, (List.append_nil before).symm ▸ hNone⟩

/-- Nothing has been read yet. -/
theorem After.start (hClosed : state.txn = none) : After [] .initial state := by
  refine ⟨rfl, ?_, fun hBegun => ?_, fun _ => ⟨hClosed, rfl⟩, fun _ _ h => absurd h List.not_mem_nil⟩
  · rw [Tracked, hClosed]
    rfl
  · obtain ⟨earlier, value, later, hSplit, -⟩ := hBegun
    exact absurd hSplit.symm (by simp)

/-- A document is read within the rules exactly if its values are in their places. -/
theorem safe_parsePackages_iff (total : env.Total) (events : List YamlEvent)
    (hDocument : ∀ answer, env.versionDetail state.world answer ↔ answer = some events)
    (hClosed : state.txn = none) :
    Safe (step env) PackageSafe sysdAddPackageInfo (fun _ _ => True) state ↔
      WellSequenced (entriesOf events) := by
  have hOpened : Safe (step env) PackageSafe sysdAddPackageInfo (fun _ _ => True) state ↔
      Safe (step env) PackageSafe (parseScalars (delivered events) .initial >>= commitLastBatch)
        (fun _ _ => True) state := by
    rw [← parseEvents_eq_parseScalars]
    refine safe_openVersionDetail.trans ((and_iff_right trivial).trans ?_)
    exact ⟨fun h => h _ ((hDocument _).mpr rfl), fun h answer hAnswer => (hDocument _).mp hAnswer ▸ h⟩
  rw [hOpened]
  have hStart := After.start hClosed
  refine ⟨fun hSafe => ?_, hStart.safe_parseScalars packageSafe_grants⟩
  exact (hStart.sequenced_of_safe total packageSafe_obliges hSafe).resolve_right And.left

/-- The parser keeps to the IDL's rules on a document, whatever the IDL answers,
exactly when every value of the document has its proper place. -/
theorem packageSafe_iff_wellSequenced (total : env.Total) (events : List YamlEvent)
    (hDocument : ∀ answer, env.versionDetail state.world answer ↔ answer = some events)
    (hClosed : state.txn = none) :
    (∀ request middle, Reaches (step env) sysdAddPackageInfo state request middle →
      PackageSafe middle request) ↔ WellSequenced (entriesOf events) := by
  rw [← safe_parsePackages_iff total events hDocument hClosed, safe_iff]
  exact (and_iff_left fun _ _ _ => trivial).symm

end Documents

/-- Two packages, the first without a type. -/
def untypedEvents : List YamlEvent :=
  [Key.pkg.str, .lit "busybox", Key.pv.str, .lit "1.22", Key.pkg.str, .lit "bash"].map .scalar

theorem untypedEvents_safe_iff :
    (∀ request middle, Reaches (step (packageEnv untypedEvents)) sysdAddPackageInfo (State.boot [])
      request middle → PackageSafe middle request) ↔ WellSequenced (entriesOf untypedEvents) :=
  packageSafe_iff_wellSequenced (packageEnv_total _) untypedEvents (fun _ => Iff.rfl) rfl

/-- The second package creates a transaction next to the open one. -/
theorem untypedEvents_unsafe :
    ¬ ∀ request middle, Reaches (step (packageEnv untypedEvents)) sysdAddPackageInfo (State.boot [])
      request middle → PackageSafe middle request := by
  intro hReaches
  have hSafe : Safe (step (packageEnv untypedEvents)) PackageSafe sysdAddPackageInfo
      (fun _ _ => True) (State.boot []) := safe_iff.mpr ⟨hReaches, fun _ _ _ => trivial⟩
  have hSequenced := (safe_parsePackages_iff (packageEnv_total _) untypedEvents (fun _ => Iff.rfl)
    rfl).mp hSafe
  have hEntries : entriesOf untypedEvents =
      [(.pkg, .lit "busybox"), (.pv, .lit "1.22")] ++ (.pkg, .lit "bash") :: [] := by decide
  have hPlace := hSequenced _ _ _ hEntries
  exact hPlace.begins rfl (by decide) ⟨[], .lit "busybox", [(.pv, .lit "1.22")], rfl, rfl⟩

end OpsSysd.Daemon
