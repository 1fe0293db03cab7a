import OpsSysd.Manifest.Meaning

/-! The walk over a manifest, laid out as a list: the members of its daemons
objects and its management interface objects, in the order in which the reader
comes to them. Reading the manifest is reading this list. -/
namespace OpsSysd.Manifest

open CLib

/-- What the walk hands to `_sysd_process_daemons`, member by member, or to
`_sysd_process_mgmt_intf`. -/
inductive Item where
  | daemon (name : CString) (value : Json)
  | mgmtIntf (key : CString) (members : List (CString × Json))

def Item.isDaemon : Item → Bool
  | .daemon .. => true
  | .mgmtIntf .. => false

mutual

/-- The items of a document. -/
def Json.items : Json → List Item
  | .object members => memberItems members
  | .array elems => elemItems elems
  | _ => []

def memberItems : List (CString × Json) → List Item
  | [] => []
  | (key, value) :: rest => memberItem key value ++ memberItems rest

def memberItem : CString → Json → List Item
  | key, .object members =>
      if startsWith key daemonsTag then members.map fun member => .daemon member.1 member.2
      else if startsWith key mgmtIntfTag then [.mgmtIntf key members]
      else memberItems members
  | _, .array elems => elemItems elems
  | _, _ => []

def elemItems : List Json → List Item
  | [] => []
  | value :: rest => value.items ++ elemItems rest

end

/-- What the file holds, if it is a document the reader accepts at its top. -/
def manifestItems (manifestInfo : Option Json) : List Item :=
  (manifestInfo.map Json.items).getD []

section Reading

variable (callocOk : Nat → Bool)

/-- One item is read. -/
def processItem (item : Item) (state : State) : Except Failure State :=
  match item with
  | .daemon name value => sysdProcessDaemons callocOk [(name, value)] state
  | .mgmtIntf _ members => sysdProcessMgmtIntf members state

def processItems : List Item → State → Except Failure State
  | [], state => .ok state
  | item :: rest, state => do
      let state ← processItem callocOk item state
      processItems rest state

variable {callocOk}

/-- Items are processed one after the other. -/
theorem processItems_append (before after : List Item) (state : State) :
    processItems callocOk (before ++ after) state =
      processItems callocOk before state >>= processItems callocOk after := by
  induction before generalizing state with
  | nil => rfl
  | cons item before ih =>
      rw [List.cons_append, processItems, processItems, bind_assoc]
      exact congrArg _ (funext ih)

theorem processItems_singleton (item : Item) (state : State) :
    processItems callocOk [item] state = processItem callocOk item state :=
  bind_pure _

/-- The members of a daemons object are items of their own. -/
theorem sysdProcessDaemons_items (members : List (CString × Json)) (state : State) :
    sysdProcessDaemons callocOk members state =
      processItems callocOk (members.map fun member => .daemon member.1 member.2) state := by
  induction members generalizing state with
  | nil => rfl
  | cons member rest ih =>
      obtain ⟨name, value⟩ := member
      rw [List.map_cons, processItems, processItem, sysdProcessDaemons, sysdProcessDaemons]
      by_cases hCalloc : callocOk state.daemons.length
      · cases value with
        | object members =>
            rw [if_pos hCalloc, if_pos hCalloc]
            exact ih _
        | _ =>
            rw [if_pos hCalloc, if_pos hCalloc]
            rfl
      · rw [if_neg hCalloc, if_neg hCalloc]
        rfl

mutual

/-- The walk reads the items one after the other. -/
theorem sysdProcessJson_items (json : Json) (state : State) :
    sysdProcessJson callocOk json state = processItems callocOk json.items state := by
  cases json with
  | object members => exact sysdProcessMembers_items members state
  | array elems => exact sysdProcessElems_items elems state
  | _ => rfl

theorem sysdProcessMembers_items (members : List (CString × Json)) (state : State) :
    sysdProcessMembers callocOk members state =
      processItems callocOk (memberItems members) state := by
  cases members with
  | nil => rfl
  | cons member rest =>
      obtain ⟨name, jp⟩ := member
      rw [sysdProcessMembers, memberItems, processItems_append, ← sysdProcessMember_items name jp]
      exact congrArg _ (funext (sysdProcessMembers_items rest))

theorem sysdProcessMember_items (name : CString) (jp : Json) (state : State) :
    sysdProcessMember callocOk name jp state = processItems callocOk (memberItem name jp) state := by
  cases jp with
  | object members =>
      rw [sysdProcessMember, memberItem]
      by_cases hDaemons : startsWith name daemonsTag = true
      · rw [if_pos hDaemons, if_pos hDaemons]
        exact sysdProcessDaemons_items members state
      rw [if_neg hDaemons, if_neg hDaemons]
      by_cases hMgmt : startsWith name mgmtIntfTag = true
      · rw [if_pos hMgmt, if_pos hMgmt, processItems_singleton]
        rfl
      · rw [if_neg hMgmt, if_neg hMgmt]
        exact sysdProcessMembers_items members state
  | array elems => exact sysdProcessElems_items elems state
  | _ => rfl

theorem sysdProcessElems_items (elems : List Json) (state : State) :
    sysdProcessElems callocOk elems state = processItems callocOk (elemItems elems) state := by
  cases elems with
  | nil => rfl
  | cons value rest =>
      rw [sysdProcessElems, elemItems, processItems_append, ← sysdProcessJson_items value]
      exact congrArg _ (funext (sysdProcessElems_items rest))

end

/-- The file was parsed, and has an object or an array at its top. -/
def HasTop : Option Json → Prop
  | some (.object _) | some (.array _) => True
  | _ => False

/-- The reader processes the items of the manifest in the order of the walk. -/
theorem sysdReadManifestFile_items {manifestInfo : Option Json} (hTop : HasTop manifestInfo) :
    sysdReadManifestFile callocOk manifestInfo =
      (processItems callocOk (manifestItems manifestInfo) .initial).map sysdSetNumHwDaemons := by
  cases manifestInfo with
  | none => exact hTop.elim
  | some json =>
      cases json with
      | object members =>
          rw [sysdReadManifestFile, sysdProcessJson_items]
          rfl
      | array elems =>
          rw [sysdReadManifestFile, sysdProcessJson_items]
          rfl
      | _ => exact hTop.elim

/-- Without an object or array at the top there are none, and the reader refuses. -/
theorem sysdReadManifestFile_no_top {manifestInfo : Option Json} (hTop : ¬ HasTop manifestInfo) :
    manifestItems manifestInfo = [] ∧
      sysdReadManifestFile callocOk manifestInfo = .error (.returned .initial) := by
  cases manifestInfo with
  | none => exact ⟨rfl, rfl⟩
  | some json =>
      cases json with
      | object members => exact absurd trivial hTop
      | array elems => exact absurd trivial hTop
      | _ => exact ⟨rfl, rfl⟩

/-- The state after a daemon with an object for its value. -/
def State.added (state : State) (name : CString) (members : List (CString × Json)) : State :=
  { state with
    copies := state.copies ++ [⟨maxDaemonNameLen, name⟩]
    daemons := state.daemons ++ [readRecord (name, .object members)] }

/-- A daemon adds its record. -/
theorem processItem_daemon {name : CString} {state : State}
    (hCalloc : callocOk state.daemons.length = true) (members : List (CString × Json)) :
    processItem callocOk (.daemon name (.object members)) state = .ok (state.added name members) := by
  rw [processItem, sysdProcessDaemons, if_pos hCalloc]
  rfl

/-- A daemon whose value is something else. -/
theorem processItem_no_object {name : CString} {value : Json} {state : State}
    (hCalloc : callocOk state.daemons.length = true) (hValue : ∀ members, value ≠ .object members) :
    ∃ after, processItem callocOk (.daemon name value) state = .error (.notAnObject after) := by
  rw [processItem, sysdProcessDaemons, if_pos hCalloc]
  cases value with
  | object members => exact absurd rfl (hValue members)
  | _ => exact ⟨_, rfl⟩

/-- Unless the record cannot be allocated. -/
theorem processItem_failed {name : CString} {value : Json} {state : State}
    (hCalloc : callocOk state.daemons.length = false) :
    processItem callocOk (.daemon name value) state = .error (.returned state) := by
  rw [processItem, sysdProcessDaemons, hCalloc]
  rfl

/-- The text of a JSON string. -/
def Json.text : Json → Option CString
  | .string text => some text
  | _ => none

/-- The name that a management interface object is read to give: the value of
the first member whose name begins with the tag, if that is a string. -/
def interfaceMember : List (CString × Json) → Option (CString × CString)
  | [] => none
  | (name, jp) :: rest =>
      if startsWith name mgmtIntfNameTag then jp.text.map fun text => (name, text)
      else interfaceMember rest

/-- The state after the name has been read. -/
def State.named (state : State) (text : CString) : State :=
  { state with
    mgmtIntf := some text
    isMgmtIntfPresent := true
    copies := state.copies ++ [⟨xcalloc mgmtIntfInfoSize 0, text⟩] }

/-- What `_sysd_process_mgmt_intf` does with an object. -/
theorem sysdProcessMgmtIntf_eq (members : List (CString × Json)) (state : State) :
    sysdProcessMgmtIntf members state =
      match interfaceMember members with
      | some (_, text) => .ok (state.named text)
      | none => if state.isMgmtIntfPresent then .ok state else .error (.returned state) := by
  induction members with
  | nil => rfl
  | cons member rest ih =>
      obtain ⟨name, jp⟩ := member
      rw [sysdProcessMgmtIntf, interfaceMember]
      by_cases hTag : startsWith name mgmtIntfNameTag = true
      · rw [if_pos hTag, if_pos hTag]
        cases jp <;> rfl
      · rw [if_neg hTag, if_neg hTag]
        exact ih

end Reading
end OpsSysd.Manifest
