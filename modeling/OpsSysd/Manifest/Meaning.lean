import OpsSysd.Manifest.Reader
import Mathlib.Data.Multiset.AddSub

/-! What a manifest says about daemons, and when its reader gets that right.
The reader compares keys and names only as far as the tag goes, so a key that
merely begins with a tag is taken for it. -/
namespace OpsSysd.Manifest

open CLib

/-- What a member with an object for its value is to the reader. -/
inductive Section where
  | daemons
  | mgmtIntf
  | other
  deriving DecidableEq

/-- Classify a key, given how it is compared with a tag. -/
def sectionOf (same : CString → CString → Bool) (key : CString) : Section :=
  if same key daemonsTag then .daemons
  else if same key mgmtIntfTag then .mgmtIntf
  else .other

section Records

variable (classify : CString → Section) (record : CString × Json → DaemonInfo)

mutual

/-- One record for each member of each daemons object, in the order met. -/
def Json.daemonRecords : Json → List DaemonInfo
  | .object members => memberRecords members
  | .array elems => elemRecords elems
  | _ => []

def memberRecords : List (CString × Json) → List DaemonInfo
  | [] => []
  | (key, value) :: rest => memberRecord key value ++ memberRecords rest

def memberRecord : CString → Json → List DaemonInfo
  | key, .object members =>
      match classify key with
      | .daemons => members.map record
      | .mgmtIntf => []
      | .other => memberRecords members
  | _, .array elems => elemRecords elems
  | _, _ => []

def elemRecords : List Json → List DaemonInfo
  | [] => []
  | value :: rest => value.daemonRecords ++ elemRecords rest

end

end Records

/-- JSON `true`. -/
def Json.isTrue : Json → Bool
  | .bool value => value
  | _ => false

/-- A key equal to `is_hw_handler` with the value `true`. -/
def Json.marksHandler : Json → Bool
  | .object members => members.any fun member => member.1 = hwHandlerTag && member.2.isTrue
  | _ => false

/-- The record a member of a daemons object describes. -/
def describedRecord (member : CString × Json) : DaemonInfo where
  name := member.1
  isHwHandler := member.2.marksHandler
  curHw := if member.1 = nameInDaemonTable then 1 else 0

/-- The daemon table a manifest describes. -/
def Json.manifestDaemons : Json → List DaemonInfo :=
  Json.daemonRecords (sectionOf streq) describedRecord

/-- The record the reader makes of a member. -/
def readRecord (member : CString × Json) : DaemonInfo where
  name := member.1
  isHwHandler := match member.2 with
    | .object members => sysdGetHwHandler members
    | _ => false
  curHw := if startsWith member.1 nameInDaemonTable then 1 else 0

section Reading

variable {callocOk : Nat → Bool} {state after : State}

/-- If a sequence has succeeded both parts have. -/
theorem bind_eq_ok {α β : Type} {first : Except Failure α} {next : α → Except Failure β} {result : β}
    (h : (first >>= next) = .ok result) : ∃ middle, first = .ok middle ∧ next middle = .ok result := by
  cases first with
  | error failure => cases h
  | ok middle => exact ⟨middle, rfl, h⟩

/-- Only objects pass the assertion. -/
theorem jsonObject_ok {json : Json} {members : List (CString × Json)}
    (h : jsonObject json state = .ok members) : json = .object members := by
  cases json with
  | object inner => cases h; rfl
  | _ => cases h

/-- A daemons object adds the records that are read of its members. -/
theorem sysdProcessDaemons_daemons {members : List (CString × Json)}
    (h : sysdProcessDaemons callocOk members state = .ok after) :
    after.daemons = state.daemons ++ members.map readRecord := by
  induction members generalizing state with
  | nil =>
      cases h
      simp
  | cons member rest ih =>
      obtain ⟨name, value⟩ := member
      rw [sysdProcessDaemons] at h
      split at h
      · obtain ⟨object, hObject, hRest⟩ := bind_eq_ok h
        have hValue := jsonObject_ok hObject
        subst hValue
        rw [ih hRest]
        simp [readRecord]
      · cases h

/-- The name of the interface concerns no daemon. -/
@[simp] theorem readMgmtIntfName_daemons (jp : Json) (state : State) :
    (readMgmtIntfName jp state).daemons = state.daemons := by
  cases jp <;> rfl

/-- Neither does its section. -/
theorem sysdProcessMgmtIntf_daemons {members : List (CString × Json)}
    (h : sysdProcessMgmtIntf members state = .ok after) : after.daemons = state.daemons := by
  induction members generalizing state with
  | nil =>
      simp only [sysdProcessMgmtIntf] at h
      split at h <;> cases h
      rfl
  | cons member rest ih =>
      simp only [sysdProcessMgmtIntf] at h
      split at h
      · split at h <;> cases h
        exact readMgmtIntfName_daemons _ _
      · exact ih h

mutual

/-- The reader adds to the table the records of the sections it recognises. -/
theorem sysdProcessJson_daemons {json : Json} {state after : State}
    (h : sysdProcessJson callocOk json state = .ok after) :
    after.daemons = state.daemons ++ json.daemonRecords (sectionOf startsWith) readRecord := by
  cases json with
  | object members => exact sysdProcessMembers_daemons h
  | array elems => exact sysdProcessElems_daemons h
  | _ =>
      cases h
      exact (List.append_nil _).symm

theorem sysdProcessMembers_daemons {members : List (CString × Json)} {state after : State}
    (h : sysdProcessMembers callocOk members state = .ok after) :
    after.daemons = state.daemons ++ memberRecords (sectionOf startsWith) readRecord members := by
  cases members with
  | nil =>
      cases h
      exact (List.append_nil _).symm
  | cons member rest =>
      obtain ⟨name, jp⟩ := member
      obtain ⟨middle, hValue, hRest⟩ := bind_eq_ok h
      rw [memberRecords, sysdProcessMembers_daemons hRest, sysdProcessMember_daemons hValue,
        List.append_assoc]

theorem sysdProcessMember_daemons {name : CString} {jp : Json} {state after : State}
    (h : sysdProcessMember callocOk name jp state = .ok after) :
    after.daemons = state.daemons ++ memberRecord (sectionOf startsWith) readRecord name jp := by
  cases jp with
  | object members =>
      rw [sysdProcessMember] at h
      rw [memberRecord, sectionOf]
      by_cases hDaemons : startsWith name daemonsTag = true
      · rw [if_pos hDaemons] at h ⊢
        exact sysdProcessDaemons_daemons h
      rw [if_neg hDaemons] at h ⊢
      by_cases hMgmt : startsWith name mgmtIntfTag = true
      · rw [if_pos hMgmt] at h ⊢
        rw [sysdProcessMgmtIntf_daemons h, List.append_nil]
      · rw [if_neg hMgmt] at h ⊢
        exact sysdProcessMembers_daemons h
  | array elems => exact sysdProcessElems_daemons h
  | _ =>
      cases h
      exact (List.append_nil _).symm

theorem sysdProcessElems_daemons {elems : List Json} {state after : State}
    (h : sysdProcessElems callocOk elems state = .ok after) :
    after.daemons = state.daemons ++ elemRecords (sectionOf startsWith) readRecord elems := by
  cases elems with
  | nil =>
      cases h
      exact (List.append_nil _).symm
  | cons value rest =>
      obtain ⟨middle, hValue, hRest⟩ := bind_eq_ok h
      rw [elemRecords, sysdProcessElems_daemons hRest, sysdProcessJson_daemons hValue,
        List.append_assoc]

end

end Reading
end OpsSysd.Manifest
