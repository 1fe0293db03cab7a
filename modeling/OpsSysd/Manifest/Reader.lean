import OpsSysd.Library.CString

/-! Reading `image.manifest`. A JSON object is the list of its members in the
order in which the hash table yields them. -/
namespace OpsSysd.Manifest

open CLib

inductive Json where
  | null
  | bool (value : Bool)
  | integer
  | real
  | string (text : CString)
  | array (elems : List Json)
  | object (members : List (CString × Json))

def daemonsTag : CString := .lit "daemons"
def hwHandlerTag : CString := .lit "is_hw_handler"
def nameInDaemonTable : CString := .lit "ops-sysd"
def mgmtIntfTag : CString := .lit "mgmt_intf"
def mgmtIntfNameTag : CString := .lit "intf"

/-- `MAX_DAEMON_NAME_LEN` and `sizeof(mgmt_intf_info_t)`. -/
def maxDaemonNameLen : Nat := 128
def mgmtIntfInfoSize : Nat := 128

structure DaemonInfo where
  name : CString
  isHwHandler : Bool
  curHw : Int
  deriving DecidableEq

/-- A string copied into storage of some size. -/
structure Copy where
  storage : Nat
  text : CString

/-- The globals the manifest is read into, and the copies made so far. -/
structure State where
  daemons : List DaemonInfo
  numHwDaemons : Nat
  mgmtIntf : Option CString
  isMgmtIntfPresent : Bool
  copies : List Copy

/-- The globals when the process starts. -/
def State.initial : State where
  daemons := []
  numHwDaemons := 0
  mgmtIntf := none
  isMgmtIntfPresent := false
  copies := []

/-- Other ways to end than `return (0)`. -/
inductive Failure where
  | returned (state : State)
  | notAnObject (state : State)

/-- `strncmp(name, tag, strlen(tag)) == 0`. -/
def startsWith (name tag : CString) : Bool := strncmp name tag tag.length = 0

/-- The comparison up to the tag's length asks whether the tag is a prefix. -/
theorem startsWith_iff {name tag : CString} :
    startsWith name tag = true ↔ tag.bytes <+: name.bytes := by
  rw [startsWith, decide_eq_true_iff, strncmp_right_length_eq_zero]

@[simp] theorem startsWith_self (tag : CString) : startsWith tag tag = true :=
  startsWith_iff.mpr (List.prefix_refl _)

/-- `json_object`, with its assertion. -/
def jsonObject (json : Json) (state : State) : Except Failure (List (CString × Json)) :=
  match json with
  | .object members => .ok members
  | _ => .error (.notAnObject state)

/-- `_sysd_get_hw_handler`: the flag of the zeroed record afterwards. -/
def sysdGetHwHandler : List (CString × Json) → Bool
  | [] => false
  | (name, jp) :: rest =>
      if startsWith name hwHandlerTag then
        match jp with
        | .bool value => value
        | _ => false
      else sysdGetHwHandler rest

section Reader

/-! Whether the `calloc` of the record with some index succeeds is the environment's choice. -/
variable (callocOk : Nat → Bool)

/-- `_sysd_process_daemons`. -/
def sysdProcessDaemons : List (CString × Json) → State → Except Failure State
  | [], state => .ok state
  | (name, value) :: rest, state =>
      if callocOk state.daemons.length then do
        let state := { state with copies := state.copies ++ [⟨maxDaemonNameLen, name⟩] }
        let curHw := if startsWith name nameInDaemonTable then 1 else 0
        let object ← jsonObject value state
        let record := { name, isHwHandler := sysdGetHwHandler object, curHw }
        sysdProcessDaemons rest { state with daemons := state.daemons ++ [record] }
      else .error (.returned state)

/-- The storage `xcalloc(count, size)` provides. -/
def xcalloc (count size : Nat) : Nat := count * size

/-- The switch on the type of the management interface's name. -/
def readMgmtIntfName (jp : Json) (state : State) : State :=
  match jp with
  | .string text => { state with
      mgmtIntf := some text
      isMgmtIntfPresent := true
      copies := state.copies ++ [⟨xcalloc mgmtIntfInfoSize 0, text⟩] }
  | _ => state

/-- `_sysd_process_mgmt_intf`. -/
def sysdProcessMgmtIntf : List (CString × Json) → State → Except Failure State
  | [], state => if state.isMgmtIntfPresent then .ok state else .error (.returned state)
  | (name, jp) :: rest, state =>
      if startsWith name mgmtIntfNameTag then
        let state := readMgmtIntfName jp state
        if state.isMgmtIntfPresent then .ok state else .error (.returned state)
      else sysdProcessMgmtIntf rest state

mutual

/-- `sysd_process_json`. -/
def sysdProcessJson : Json → State → Except Failure State
  | .object members, state => sysdProcessMembers members state
  | .array elems, state => sysdProcessElems elems state
  | _, state => .ok state

/-- The loop over the members of an object. -/
def sysdProcessMembers : List (CString × Json) → State → Except Failure State
  | [], state => .ok state
  | (name, jp) :: rest, state => do
      let state ← sysdProcessMember name jp state
      sysdProcessMembers rest state

/-- The body of that loop. -/
def sysdProcessMember : CString → Json → State → Except Failure State
  | name, .object members, state =>
      if startsWith name daemonsTag then sysdProcessDaemons callocOk members state
      else if startsWith name mgmtIntfTag then sysdProcessMgmtIntf members state
      else sysdProcessMembers members state
  | _, .array elems, state => sysdProcessElems elems state
  | _, _, state => .ok state

/-- The loop over the elements of an array. -/
def sysdProcessElems : List Json → State → Except Failure State
  | [], state => .ok state
  | jp :: rest, state => do
      let state ← sysdProcessJson jp state
      sysdProcessElems rest state

end

/-- `sysd_set_num_hw_daemons`. -/
def sysdSetNumHwDaemons (state : State) : State :=
  { state with numHwDaemons := (state.daemons.filter DaemonInfo.isHwHandler).length }

/-- `sysd_read_manifest_file`, given what `json_from_file` returns. -/
def sysdReadManifestFile (manifestInfo : Option Json) : Except Failure State :=
  match manifestInfo with
  | none => .error (.returned .initial)
  | some (.object members) => (sysdProcessJson callocOk (.object members) .initial).map sysdSetNumHwDaemons
  | some (.array elems) => (sysdProcessJson callocOk (.array elems) .initial).map sysdSetNumHwDaemons
  | some _ => .error (.returned .initial)

end Reader
end OpsSysd.Manifest
