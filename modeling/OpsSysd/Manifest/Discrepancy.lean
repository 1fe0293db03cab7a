import OpsSysd.Manifest.Meaning
import Mathlib.Algebra.Order.Group.Multiset

/-! Where the table the reader builds differs from the one a manifest describes.
A near miss of a container's key adds the records of that object and hides the
daemons objects inside it; a near miss in a record gives it a wrong value. The
table is right exactly when what is added and what is hidden cancel. -/
namespace OpsSysd.Manifest

open CLib

/-- Records read but not described, and described but not read. -/
structure Discrepancy where
  added : List DaemonInfo
  hidden : List DaemonInfo

namespace Discrepancy

def nothing : Discrepancy := ⟨[], []⟩

instance : Append Discrepancy where
  append a b := ⟨a.added ++ b.added, a.hidden ++ b.hidden⟩

/-- The discrepancy accounts for the difference between two tables. -/
def Between (discrepancy : Discrepancy) (read described : List DaemonInfo) : Prop :=
  (read ++ discrepancy.hidden).Perm (described ++ discrepancy.added)

/-- A table does not differ from itself. -/
theorem Between.nothing (table : List DaemonInfo) : nothing.Between table table :=
  List.Perm.refl _

/-- The discrepancies of two parts add up. -/
theorem Between.append {a b : Discrepancy} {read read' described described' : List DaemonInfo}
    (hFirst : a.Between read described) (hSecond : b.Between read' described') :
    (a ++ b).Between (read ++ read') (described ++ described') := by
  unfold Between at *
  rw [← Multiset.coe_eq_coe] at *
  simp only [← Multiset.coe_add] at *
  calc (↑read + ↑read' + (↑a.hidden + ↑b.hidden) : Multiset DaemonInfo)
      = (↑read + ↑a.hidden) + (↑read' + ↑b.hidden) := add_add_add_comm _ _ _ _
    _ = (↑described + ↑a.added) + (↑described' + ↑b.added) := by rw [hFirst, hSecond]
    _ = ↑described + ↑described' + (↑a.added + ↑b.added) := add_add_add_comm _ _ _ _

/-- Two tables agree exactly when their discrepancy cancels. -/
theorem Between.perm_iff {discrepancy : Discrepancy} {read described : List DaemonInfo}
    (h : discrepancy.Between read described) :
    read.Perm described ↔ discrepancy.added.Perm discrepancy.hidden := by
  unfold Between at h
  rw [← Multiset.coe_eq_coe] at h ⊢
  rw [← Multiset.coe_eq_coe]
  simp only [← Multiset.coe_add] at h
  constructor
  · intro hSame
    rw [hSame] at h
    exact (add_left_cancel h).symm
  · intro hCancel
    rw [hCancel] at h
    exact add_right_cancel h

end Discrepancy

/-- The records of a daemons object that are read with a wrong value. -/
def misreadRecords (members : List (CString × Json)) : Discrepancy where
  added := (members.filter fun member => readRecord member ≠ describedRecord member).map readRecord
  hidden := (members.filter fun member => readRecord member ≠ describedRecord member).map describedRecord

mutual

/-- What the near misses in a manifest add and hide. -/
def Json.discrepancy : Json → Discrepancy
  | .object members => membersDiscrepancy members
  | .array elems => elemsDiscrepancy elems
  | _ => .nothing

def membersDiscrepancy : List (CString × Json) → Discrepancy
  | [] => .nothing
  | (key, value) :: rest => memberDiscrepancy key value ++ membersDiscrepancy rest

def memberDiscrepancy : CString → Json → Discrepancy
  | key, .object members =>
      if key = daemonsTag then misreadRecords members
      else if startsWith key daemonsTag then
        ⟨members.map readRecord, memberRecords (sectionOf streq) describedRecord members⟩
      else if key = mgmtIntfTag then .nothing
      else if startsWith key mgmtIntfTag then
        ⟨[], memberRecords (sectionOf streq) describedRecord members⟩
      else membersDiscrepancy members
  | _, .array elems => elemsDiscrepancy elems
  | _, _ => .nothing

def elemsDiscrepancy : List Json → Discrepancy
  | [] => .nothing
  | value :: rest => value.discrepancy ++ elemsDiscrepancy rest

end

/-- The records of a daemons object differ by those that are misread. -/
theorem misreadRecords_between (members : List (CString × Json)) :
    (misreadRecords members).Between (members.map readRecord) (members.map describedRecord) := by
  induction members with
  | nil => exact .nothing []
  | cons member rest ih =>
      by_cases hSame : readRecord member = describedRecord member
      · have hSkip : misreadRecords (member :: rest) = misreadRecords rest := by
          simp [misreadRecords, hSame]
        rw [hSkip, List.map_cons, List.map_cons, hSame]
        exact List.Perm.cons _ ih
      · have hTake : misreadRecords (member :: rest) =
            ⟨[readRecord member], [describedRecord member]⟩ ++ misreadRecords rest := by
          simp only [misreadRecords, List.filter_cons, hSame, ne_eq, not_false_eq_true, decide_true,
            if_true, List.map_cons]
          rfl
        rw [hTake, List.map_cons, List.map_cons]
        have hMember : Discrepancy.Between ⟨[readRecord member], [describedRecord member]⟩
            [readRecord member] [describedRecord member] := List.Perm.swap _ _ _
        exact hMember.append ih

/-- No key is taken for both sections. -/
theorem ne_mgmtIntfTag_of_startsWith {key : CString} (h : startsWith key daemonsTag = true) :
    key ≠ mgmtIntfTag := by
  rintro rfl
  exact absurd h (by decide)

theorem sectionOf_streq (key : CString) :
    sectionOf streq key =
      if key = daemonsTag then .daemons else if key = mgmtIntfTag then .mgmtIntf else .other := by
  simp only [sectionOf, streq_iff]

mutual

/-- What is read and what is described differ by the discrepancy of the manifest. -/
theorem Json.discrepancy_between (json : Json) :
    json.discrepancy.Between (json.daemonRecords (sectionOf startsWith) readRecord)
      json.manifestDaemons := by
  cases json with
  | object members => exact membersDiscrepancy_between members
  | array elems => exact elemsDiscrepancy_between elems
  | _ => exact .nothing []

theorem membersDiscrepancy_between (members : List (CString × Json)) :
    (membersDiscrepancy members).Between (memberRecords (sectionOf startsWith) readRecord members)
      (memberRecords (sectionOf streq) describedRecord members) := by
  cases members with
  | nil => exact .nothing []
  | cons member rest =>
      obtain ⟨key, value⟩ := member
      exact (memberDiscrepancy_between key value).append (membersDiscrepancy_between rest)

/-- The cases are those of the key: a section, a near miss of one, or something else. -/
theorem memberDiscrepancy_between (key : CString) (value : Json) :
    (memberDiscrepancy key value).Between (memberRecord (sectionOf startsWith) readRecord key value)
      (memberRecord (sectionOf streq) describedRecord key value) := by
  cases value with
  | object members =>
      rw [memberDiscrepancy, memberRecord, memberRecord, sectionOf_streq, sectionOf]
      by_cases hDaemons : key = daemonsTag
      · subst hDaemons
        simpa using misreadRecords_between members
      by_cases hDaemonsPrefix : startsWith key daemonsTag = true
      · have hMgmt := ne_mgmtIntfTag_of_startsWith hDaemonsPrefix
        simp only [hDaemons, hDaemonsPrefix, hMgmt, if_true, if_false]
        exact List.perm_append_comm
      by_cases hMgmt : key = mgmtIntfTag
      · subst hMgmt
        simpa [hDaemons, hDaemonsPrefix] using Discrepancy.Between.nothing []
      by_cases hMgmtPrefix : startsWith key mgmtIntfTag = true
      · simp only [hDaemons, hDaemonsPrefix, hMgmt, hMgmtPrefix, if_true, if_false]
        exact List.perm_append_comm
      · simp only [hDaemons, hDaemonsPrefix, hMgmt, hMgmtPrefix, if_false]
        exact membersDiscrepancy_between members
  | array elems => exact elemsDiscrepancy_between elems
  | _ => exact .nothing []

theorem elemsDiscrepancy_between (elems : List Json) :
    (elemsDiscrepancy elems).Between (elemRecords (sectionOf startsWith) readRecord elems)
      (elemRecords (sectionOf streq) describedRecord elems) := by
  cases elems with
  | nil => exact .nothing []
  | cons value rest =>
      exact value.discrepancy_between.append (elemsDiscrepancy_between rest)

end

/-- This begins with the tag and goes on. -/
def NearMiss (tag name : CString) : Prop := startsWith name tag = true ∧ name ≠ tag

/-- The first key that is taken for `is_hw_handler` is that key, and no later one is. -/
def HandlerExact : List (CString × Json) → Prop
  | [] => True
  | (name, _) :: rest =>
      if startsWith name hwHandlerTag then
        name = hwHandlerTag ∧ ∀ later ∈ rest, later.1 ≠ hwHandlerTag
      else HandlerExact rest

/-- The name of a daemon is no near miss, and its flag is what it seems. -/
def RecordExact : CString × Json → Prop
  | (name, .object members) => ¬ NearMiss nameInDaemonTable name ∧ HandlerExact members
  | (name, _) => ¬ NearMiss nameInDaemonTable name

mutual

/-- No key, name or flag that the reader meets is a near miss. -/
def Json.Exact : Json → Prop
  | .object members => MembersExact members
  | .array elems => ElemsExact elems
  | _ => True

def MembersExact : List (CString × Json) → Prop
  | [] => True
  | (key, value) :: rest => MemberExact key value ∧ MembersExact rest

def MemberExact : CString → Json → Prop
  | key, .object members =>
      ¬ NearMiss daemonsTag key ∧ ¬ NearMiss mgmtIntfTag key ∧
        (if key = daemonsTag then ∀ member ∈ members, RecordExact member
        else if key = mgmtIntfTag then True
        else MembersExact members)
  | _, .array elems => ElemsExact elems
  | _, _ => True

def ElemsExact : List Json → Prop
  | [] => True
  | value :: rest => value.Exact ∧ ElemsExact rest

end

/-- Without a near miss a prefix is the whole. -/
theorem startsWith_iff_of_not_nearMiss {tag name : CString} (h : ¬ NearMiss tag name) :
    startsWith name tag = true ↔ name = tag := by
  refine ⟨fun hPrefix => by_contra fun hOther => h ⟨hPrefix, hOther⟩, ?_⟩
  rintro rfl
  exact startsWith_self name

/-- The flag is read as it is meant. -/
theorem HandlerExact.sysdGetHwHandler_eq {members : List (CString × Json)}
    (exact : HandlerExact members) : sysdGetHwHandler members = (Json.object members).marksHandler := by
  induction members with
  | nil => rfl
  | cons member rest ih =>
      obtain ⟨name, value⟩ := member
      simp only [sysdGetHwHandler, Json.marksHandler, List.any_cons]
      rw [HandlerExact] at exact
      by_cases hPrefix : startsWith name hwHandlerTag = true
      · rw [if_pos hPrefix] at exact ⊢
        obtain ⟨hName, hLater⟩ := exact
        have hRest : (rest.any fun member => member.1 = hwHandlerTag && member.2.isTrue) = false := by
          refine List.any_eq_false.mpr fun later hMem => ?_
          simp [hLater later hMem]
        rw [hRest, hName, Bool.or_false, decide_eq_true rfl, Bool.true_and]
        cases value with
        | bool value => cases value <;> rfl
        | _ => rfl
      · rw [if_neg hPrefix] at exact ⊢
        have hOther : name ≠ hwHandlerTag := by
          rintro rfl
          exact hPrefix (startsWith_self hwHandlerTag)
        rw [decide_eq_false hOther, Bool.false_and, Bool.false_or]
        exact ih exact

/-- And so is the record. -/
theorem RecordExact.readRecord_eq {member : CString × Json} (exact : RecordExact member) :
    readRecord member = describedRecord member := by
  obtain ⟨name, value⟩ := member
  have hName : ¬ NearMiss nameInDaemonTable name := by
    cases value with
    | object members => exact exact.1
    | _ => exact exact
  simp only [readRecord, describedRecord, startsWith_iff_of_not_nearMiss hName]
  cases value with
  | object members => simp only [HandlerExact.sysdGetHwHandler_eq exact.2]
  | _ => rfl

mutual

/-- A manifest without near misses is read as described. -/
theorem Json.Exact.discrepancy {json : Json} (exact : json.Exact) : json.discrepancy = .nothing := by
  cases json with
  | object members => exact MembersExact.discrepancy exact
  | array elems => exact ElemsExact.discrepancy exact
  | _ => rfl

theorem MembersExact.discrepancy {members : List (CString × Json)} (exact : MembersExact members) :
    membersDiscrepancy members = .nothing := by
  cases members with
  | nil => rfl
  | cons member rest =>
      rw [membersDiscrepancy, MemberExact.discrepancy exact.1, MembersExact.discrepancy exact.2]
      rfl

/-- No section is added or hidden, and no record in it misread. -/
theorem MemberExact.discrepancy {key : CString} {value : Json} (exact : MemberExact key value) :
    memberDiscrepancy key value = .nothing := by
  cases value with
  | object members =>
      obtain ⟨hDaemons, hMgmt, hInside⟩ := exact
      simp only [memberDiscrepancy, startsWith_iff_of_not_nearMiss hDaemons,
        startsWith_iff_of_not_nearMiss hMgmt]
      by_cases hSection : key = daemonsTag
      · rw [if_pos hSection] at hInside ⊢
        have hNone : (members.filter fun member => readRecord member ≠ describedRecord member) = [] :=
          List.filter_eq_nil_iff.mpr fun member hMember => by simp [(hInside member hMember).readRecord_eq]
        rw [misreadRecords, hNone]
        rfl
      rw [if_neg hSection] at hInside ⊢
      rw [if_neg hSection]
      by_cases hIntf : key = mgmtIntfTag
      · rw [if_pos hIntf]
      · rw [if_neg hIntf] at hInside ⊢
        rw [if_neg hIntf]
        exact MembersExact.discrepancy hInside
  | array elems => exact ElemsExact.discrepancy exact
  | _ => rfl

theorem ElemsExact.discrepancy {elems : List Json} (exact : ElemsExact elems) :
    elemsDiscrepancy elems = .nothing := by
  cases elems with
  | nil => rfl
  | cons value rest =>
      rw [elemsDiscrepancy, exact.1.discrepancy, ElemsExact.discrepancy exact.2]
      rfl

end

/-- The same manifest with the members of its objects met in another order. -/
inductive Json.Reordered : Json → Json → Prop where
  | refl (json : Json) : Reordered json json
  | trans {first second third : Json} (h : Reordered first second) (h' : Reordered second third) :
      Reordered first third
  | members {members members' : List (CString × Json)} (h : members.Perm members') :
      Reordered (.object members) (.object members')
  | member (before : List (CString × Json)) (key : CString) {value value' : Json}
      (h : Reordered value value') (after : List (CString × Json)) :
      Reordered (.object (before ++ (key, value) :: after)) (.object (before ++ (key, value') :: after))
  | elem (before : List Json) {value value' : Json} (h : Reordered value value')
      (after : List Json) :
      Reordered (.array (before ++ value :: after)) (.array (before ++ value' :: after))

section Order

variable (classify : CString → Section) (record : CString × Json → DaemonInfo)

theorem memberRecords_eq_flatMap (members : List (CString × Json)) :
    memberRecords classify record members =
      members.flatMap fun member => memberRecord classify record member.1 member.2 := by
  induction members with
  | nil => rfl
  | cons member rest ih => rw [memberRecords, ih, List.flatMap_cons]

theorem elemRecords_eq_flatMap (elems : List Json) :
    elemRecords classify record elems =
      elems.flatMap fun value => value.daemonRecords classify record := by
  induction elems with
  | nil => rfl
  | cons value rest ih => rw [elemRecords, ih, List.flatMap_cons]

end Order

/-- What two writings of one manifest have in common. -/
structure SameMeaning (json json' : Json) : Prop where
  isTrue : json.isTrue = json'.isTrue
  marksHandler : json.marksHandler = json'.marksHandler
  daemons : json.manifestDaemons.Perm json'.manifestDaemons
  member (key : CString) : (memberRecord (sectionOf streq) describedRecord key json).Perm
    (memberRecord (sectionOf streq) describedRecord key json')

/-- Objects with the same described records and the same daemons objects inside
mean the same under every key. -/
theorem SameMeaning.object {members members' : List (CString × Json)}
    (hMarks : (Json.object members).marksHandler = (Json.object members').marksHandler)
    (hRecords : (members.map describedRecord).Perm (members'.map describedRecord))
    (hInside : (memberRecords (sectionOf streq) describedRecord members).Perm
      (memberRecords (sectionOf streq) describedRecord members')) :
    SameMeaning (.object members) (.object members') where
  isTrue := rfl
  marksHandler := hMarks
  daemons := hInside
  member key := by
    rw [memberRecord, memberRecord]
    cases sectionOf streq key with
    | daemons => exact hRecords
    | mgmtIntf => exact .refl _
    | other => exact hInside

/-- The order of the members does not change what a manifest means. -/
theorem Json.Reordered.sameMeaning {json json' : Json} (h : json.Reordered json') :
    SameMeaning json json' := by
  induction h with
  | refl json => exact ⟨rfl, rfl, .refl _, fun _ => .refl _⟩
  | trans _ _ ih ih' =>
      exact ⟨ih.isTrue.trans ih'.isTrue, ih.marksHandler.trans ih'.marksHandler,
        ih.daemons.trans ih'.daemons, fun key => (ih.member key).trans (ih'.member key)⟩
  | members h =>
      refine .object ?_ (h.map describedRecord) ?_
      · exact h.any_eq
      · rw [memberRecords_eq_flatMap, memberRecords_eq_flatMap]
        exact h.flatMap_right _
  | member before key _ after ih =>
      refine .object ?_ ?_ ?_
      · simp only [Json.marksHandler, List.any_append, List.any_cons, ih.isTrue]
      · simp only [List.map_append, List.map_cons, describedRecord, ih.marksHandler]
        exact .refl _
      · simp only [memberRecords_eq_flatMap, List.flatMap_append, List.flatMap_cons]
        exact ((ih.member key).append_right _).append_left _
  | @elem before value value' _ after ih =>
      have hInside : (elemRecords (sectionOf streq) describedRecord (before ++ value :: after)).Perm
          (elemRecords (sectionOf streq) describedRecord (before ++ value' :: after)) := by
        simp only [elemRecords_eq_flatMap, List.flatMap_append, List.flatMap_cons]
        exact (ih.daemons.append_right _).append_left _
      exact ⟨rfl, rfl, hInside, fun _ => hInside⟩

/-- The globals are what the manifest describes, in whatever order. -/
def State.Matches (state : State) (json : Json) : Prop :=
  state.daemons.Perm json.manifestDaemons ∧
    state.numHwDaemons = (json.manifestDaemons.filter DaemonInfo.isHwHandler).length

/-- After a successful reading the table is what the walk has read. -/
theorem sysdReadManifestFile_ok {callocOk : Nat → Bool} {json : Json} {state : State}
    (hRead : sysdReadManifestFile callocOk (some json) = .ok state) :
    state.daemons = json.daemonRecords (sectionOf startsWith) readRecord ∧
      state.numHwDaemons = (state.daemons.filter DaemonInfo.isHwHandler).length := by
  have hProcessed : ∃ processed, sysdProcessJson callocOk json .initial = .ok processed ∧
      sysdSetNumHwDaemons processed = state := by
    cases json with
    | object | array =>
        rw [sysdReadManifestFile] at hRead
        cases hProcess : sysdProcessJson callocOk _ .initial with
        | error failure => rw [hProcess] at hRead; cases hRead
        | ok processed =>
            rw [hProcess] at hRead
            cases hRead
            exact ⟨processed, rfl, rfl⟩
    | _ => cases hRead
  obtain ⟨processed, hProcess, rfl⟩ := hProcessed
  exact ⟨(sysdProcessJson_daemons hProcess).trans (List.nil_append _), rfl⟩

/-- A manifest that was read successfully decides the daemon table, in every
order of its members, exactly when its near misses cancel. -/
theorem sysdReadManifestFile_matches_iff (callocOk : Nat → Bool) (json : Json) (state : State)
    (hRead : sysdReadManifestFile callocOk (some json) = .ok state) :
    (∀ written, json.Reordered written → state.Matches written) ↔
      json.discrepancy.added.Perm json.discrepancy.hidden := by
  obtain ⟨hDaemons, hCount⟩ := sysdReadManifestFile_ok hRead
  rw [← json.discrepancy_between.perm_iff, ← hDaemons]
  constructor
  · exact fun hMatches => (hMatches json (.refl json)).1
  · intro hPerm written hWritten
    have hTable := hPerm.trans hWritten.sameMeaning.daemons
    exact ⟨hTable, hCount.trans (hTable.filter _).length_eq⟩

/-- A daemon whose name merely begins with `ops-sysd` is marked as done. -/
def helperManifest : Json :=
  .object [(daemonsTag, .object [(.lit "ops-sysd-helper", .object [(hwHandlerTag, .bool true)])]),
    (mgmtIntfTag, .object [(mgmtIntfNameTag, .string (.lit "eth0"))])]

theorem helperManifest_misread :
    ¬ ∀ state, sysdReadManifestFile (fun _ => true) (some helperManifest) = .ok state →
      state.Matches helperManifest := by
  intro hAll
  have hTable := (hAll _ rfl).1
  exact absurd hTable (by decide)

/-- The same manifest under the daemon's own name. -/
def sysdManifest : Json :=
  .object [(daemonsTag, .object [(nameInDaemonTable, .object [(hwHandlerTag, .bool true)])]),
    (mgmtIntfTag, .object [(mgmtIntfNameTag, .string (.lit "eth0"))])]

/-- It has no near miss. -/
theorem sysdManifest_exact : sysdManifest.Exact := by
  have hDaemons : ¬ NearMiss mgmtIntfTag daemonsTag := fun h => absurd h.1 (by decide)
  have hMgmt : ¬ NearMiss daemonsTag mgmtIntfTag := fun h => absurd h.1 (by decide)
  have hTag (tag : CString) : ¬ NearMiss tag tag := fun h => h.2 rfl
  have hRecord : RecordExact (nameInDaemonTable, .object [(hwHandlerTag, .bool true)]) := by
    refine ⟨hTag _, ?_⟩
    rw [HandlerExact, if_pos (startsWith_self _)]
    exact ⟨rfl, fun _ hMem => absurd hMem List.not_mem_nil⟩
  have hOther : mgmtIntfTag ≠ daemonsTag := by decide
  refine ⟨⟨hTag _, hDaemons, ?_⟩, ⟨hMgmt, hTag _, ?_⟩, trivial⟩
  · rw [if_pos rfl]
    exact List.forall_mem_singleton.mpr hRecord
  · rw [if_neg hOther, if_pos rfl]
    trivial

/-- So it is read as it is meant. -/
theorem sysdManifest_matches :
    ∃ state, sysdReadManifestFile (fun _ => true) (some sysdManifest) = .ok state ∧
      ∀ written, sysdManifest.Reordered written → state.Matches written := by
  refine ⟨_, rfl, (sysdReadManifestFile_matches_iff (fun _ => true) sysdManifest _ rfl).mpr ?_⟩
  rw [sysdManifest_exact.discrepancy]
  exact .refl _

end OpsSysd.Manifest
