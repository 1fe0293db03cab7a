import OpsSysd.Manifest.Items

/-! Which manifests are read without a copy that runs over its storage and
without a failing assertion. -/
namespace OpsSysd.Manifest

open CLib

/-- The globals when the reader returns, or when it fails. -/
def finalState : Except Failure State → State
  | .ok state => state
  | .error (.returned state) => state
  | .error (.notAnObject state) => state

/-- `json_object` was applied to something else. -/
def AssertionFails : Except Failure State → Prop
  | .error (.notAnObject _) => True
  | _ => False

/-- The string and its terminator fit in the storage. -/
def Copy.Contained (copy : Copy) : Prop := copy.text.length < copy.storage

/-- No assertion fails, and every copy made stays inside its storage. -/
def SafeOutcome (outcome : Except Failure State) : Prop :=
  ¬ AssertionFails outcome ∧ ∀ copy ∈ (finalState outcome).copies, copy.Contained

/-- A daemon has a name with room for the terminator and an object for its value; an
object for the management interface gives no name, since there is no storage
for any. -/
def Item.Harmless : Item → Prop
  | .daemon name value => name.length < maxDaemonNameLen ∧ ∃ members, value = .object members
  | .mgmtIntf _ members => interfaceMember members = none

/-- The reader comes to this item: nothing before it is an object for the
management interface, and the records so far could be allocated. -/
def Attempted (callocOk : Nat → Bool) (count : Nat) (before : List Item) (item : Item) : Prop :=
  (∀ earlier ∈ before, earlier.isDaemon = true) ∧ (∀ i < before.length, callocOk (count + i) = true) ∧
    (item.isDaemon = true → callocOk (count + before.length) = true)

/-- Every item that the reader comes to is harmless. -/
def HarmlessFrom (callocOk : Nat → Bool) (count : Nat) (items : List Item) : Prop :=
  ∀ before item after, items = before ++ item :: after →
    Attempted callocOk count before item → item.Harmless

section Conditions

variable {callocOk : Nat → Bool} {count : Nat} {item : Item} {items : List Item}

theorem HarmlessFrom.nil : HarmlessFrom callocOk count [] := by
  intro before item after hSplit
  exact absurd hSplit.symm (by simp)

/-- The first item is come to. -/
theorem Attempted.first (h : item.isDaemon = true → callocOk count = true) :
    Attempted callocOk count [] item :=
  ⟨nofun, nofun, h⟩

/-- It has to be harmless if it can be allocated. -/
theorem HarmlessFrom.head (h : HarmlessFrom callocOk count (item :: items))
    (hCalloc : item.isDaemon = true → callocOk count = true) : item.Harmless :=
  h [] item items rfl (.first hCalloc)

/-- After an object for the management interface the reader goes no further. -/
theorem harmlessFrom_mgmtIntf {key : CString} {members : List (CString × Json)} :
    HarmlessFrom callocOk count (.mgmtIntf key members :: items) ↔ interfaceMember members = none := by
  constructor
  · exact fun h => h.head nofun
  · intro hNone before item after hSplit hAttempted
    cases before with
    | nil =>
        obtain ⟨rfl, -⟩ := List.cons.inj hSplit
        exact hNone
    | cons first before =>
        obtain ⟨rfl, -⟩ := List.cons.inj hSplit
        exact absurd (hAttempted.1 _ List.mem_cons_self) nofun

/-- Nor after a record that cannot be allocated. -/
theorem harmlessFrom_failed {name : CString} {value : Json} (hCalloc : callocOk count = false) :
    HarmlessFrom callocOk count (.daemon name value :: items) := by
  intro before item after hSplit hAttempted
  cases before with
  | nil =>
      obtain ⟨rfl, -⟩ := List.cons.inj hSplit
      exact absurd (hAttempted.2.2 rfl) (by simp [hCalloc])
  | cons first before =>
      exact absurd (hAttempted.2.1 0 (by simp)) (by simp [hCalloc])

/-- A daemon that is read is followed by the items behind it. -/
theorem harmlessFrom_daemon {name : CString} {value : Json} (hCalloc : callocOk count = true) :
    HarmlessFrom callocOk count (.daemon name value :: items) ↔
      (Item.daemon name value).Harmless ∧ HarmlessFrom callocOk (count + 1) items := by
  constructor
  · intro h
    refine ⟨h.head fun _ => hCalloc, fun before item after hSplit hAttempted => ?_⟩
    refine h (.daemon name value :: before) item after (congrArg _ hSplit) ⟨?_, ?_, ?_⟩
    · intro earlier hEarlier
      rcases List.mem_cons.mp hEarlier with rfl | hBefore
      · rfl
      · exact hAttempted.1 earlier hBefore
    · intro i hi
      cases i with
      | zero => exact hCalloc
      | succ i =>
          have hLater := hAttempted.2.1 i (Nat.lt_of_succ_lt_succ hi)
          rwa [Nat.succ_add_eq_add_succ] at hLater
    · intro hDaemon
      have hLater := hAttempted.2.2 hDaemon
      rwa [Nat.succ_add_eq_add_succ] at hLater
  · rintro ⟨hFirst, hRest⟩ before item after hSplit hAttempted
    cases before with
    | nil =>
        obtain ⟨rfl, -⟩ := List.cons.inj hSplit
        exact hFirst
    | cons first before =>
        obtain ⟨rfl, hTail⟩ := List.cons.inj hSplit
        refine hRest before item after hTail ⟨?_, ?_, ?_⟩
        · exact fun earlier hEarlier => hAttempted.1 earlier (List.mem_cons_of_mem _ hEarlier)
        · intro i hi
          have hEarlier := hAttempted.2.1 (i + 1) (Nat.succ_lt_succ hi)
          rwa [← Nat.succ_add_eq_add_succ] at hEarlier
        · intro hDaemon
          have hEarlier := hAttempted.2.2 hDaemon
          rwa [List.length_cons, ← Nat.succ_add_eq_add_succ] at hEarlier

end Conditions

section Copies

variable {callocOk : Nat → Bool} {items : List Item} {state : State}

/-- Copies that have been made stay on record. -/
theorem copies_of_processItem (item : Item) (state : State) :
    state.copies ⊆ (finalState (processItem callocOk item state)).copies := by
  cases item with
  | mgmtIntf key members =>
      rw [processItem, sysdProcessMgmtIntf_eq]
      cases interfaceMember members with
      | some found => exact List.subset_append_left _ _
      | none =>
          dsimp only
          split <;> exact List.Subset.refl _
  | daemon name value =>
      rw [processItem, sysdProcessDaemons]
      split
      · cases value <;> exact List.subset_append_left _ _
      · exact List.Subset.refl _

/-- No copy is forgotten. -/
theorem copies_of_processItems (items : List Item) (state : State) :
    state.copies ⊆ (finalState (processItems callocOk items state)).copies := by
  induction items generalizing state with
  | nil => exact List.Subset.refl _
  | cons item items ih =>
      have hItem := @copies_of_processItem callocOk item state
      rw [processItems]
      cases hOutcome : processItem callocOk item state with
      | ok middle =>
          rw [hOutcome] at hItem
          exact List.Subset.trans hItem (ih middle)
      | error failure =>
          rw [hOutcome] at hItem
          exact hItem

/-- A copy that runs over its storage is not undone by what follows. -/
theorem not_safe_of_copy {copy : Copy} (hCopy : copy ∈ state.copies) (hOver : ¬ copy.Contained) :
    ¬ SafeOutcome (processItems callocOk items state) :=
  fun hSafe => hOver (hSafe.2 copy (copies_of_processItems items state hCopy))

/-- Reading goes well exactly if every item that is read is harmless. -/
theorem safeOutcome_iff (hPresent : state.isMgmtIntfPresent = false)
    (hCopies : ∀ copy ∈ state.copies, copy.Contained) :
    SafeOutcome (processItems callocOk items state) ↔
      HarmlessFrom callocOk state.daemons.length items := by
  induction items generalizing state with
  | nil => exact iff_of_true ⟨id, hCopies⟩ .nil
  | cons item items ih =>
      rw [processItems]
      cases item with
      | mgmtIntf key members =>
          rw [harmlessFrom_mgmtIntf, processItem, sysdProcessMgmtIntf_eq]
          cases hMember : interfaceMember members with
          | none =>
              rw [hPresent]
              exact iff_of_true ⟨id, hCopies⟩ rfl
          | some found =>
              obtain ⟨name, text⟩ := found
              refine iff_of_false ?_ (Option.some_ne_none _)
              apply not_safe_of_copy (List.mem_append_right state.copies (List.mem_singleton_self _))
              exact Nat.not_lt_zero _
      | daemon name value =>
          cases hCalloc : callocOk state.daemons.length with
          | false =>
              rw [processItem_failed hCalloc]
              exact iff_of_true ⟨id, hCopies⟩ (harmlessFrom_failed hCalloc)
          | true =>
              rw [harmlessFrom_daemon hCalloc]
              by_cases hValue : ∃ members, value = .object members
              · obtain ⟨members, rfl⟩ := hValue
                rw [processItem_daemon hCalloc]
                by_cases hName : name.length < maxDaemonNameLen
                · have hAll : ∀ copy ∈ (state.added name members).copies, copy.Contained := by
                    intro copy hCopy
                    rcases List.mem_append.mp hCopy with hOld | hNew
                    · exact hCopies copy hOld
                    · exact List.mem_singleton.mp hNew ▸ hName
                  have hRest := @ih (state.added name members) hPresent hAll
                  rw [State.added, List.length_append] at hRest
                  rw [Item.Harmless, and_iff_right ⟨hName, members, rfl⟩]
                  exact hRest
                · refine iff_of_false ?_ fun h => hName h.1.1
                  exact not_safe_of_copy (List.mem_append_right state.copies
                    (List.mem_singleton_self _)) hName
              · obtain ⟨after, hFails⟩ := @processItem_no_object callocOk name value state hCalloc
                  fun members hObject => hValue ⟨members, hObject⟩
                rw [hFails]
                exact iff_of_false (fun h => h.1 trivial) fun h => hValue h.1.2

/-- `sysd_read_manifest_file` ends with 0 or -1, and every copy it makes stays
inside its storage. -/
def ReadsSafely (callocOk : Nat → Bool) (manifestInfo : Option Json) : Prop :=
  SafeOutcome (sysdReadManifestFile callocOk manifestInfo)

/-- Counting the hardware daemons copies nothing. -/
theorem safeOutcome_map (outcome : Except Failure State) :
    SafeOutcome (outcome.map sysdSetNumHwDaemons) ↔ SafeOutcome outcome := by
  cases outcome with
  | ok state => exact Iff.rfl
  | error failure => exact Iff.rfl

/-- A manifest is read safely if its items are harmless from the first on. -/
theorem readsSafely_iff_harmlessFrom (manifestInfo : Option Json) :
    ReadsSafely callocOk manifestInfo ↔ HarmlessFrom callocOk 0 (manifestItems manifestInfo) := by
  have hInitial : ∀ copy ∈ State.initial.copies, copy.Contained := nofun
  rw [ReadsSafely]
  by_cases hTop : HasTop manifestInfo
  · rw [sysdReadManifestFile_items hTop, safeOutcome_map, safeOutcome_iff rfl hInitial]
    rfl
  · obtain ⟨hNone, hRefused⟩ := @sysdReadManifestFile_no_top callocOk manifestInfo hTop
    rw [hNone, hRefused]
    exact iff_of_true ⟨id, hInitial⟩ .nil

/-- The manifests that are read safely. -/
theorem readsSafely_iff (callocOk : Nat → Bool) (manifestInfo : Option Json) :
    ReadsSafely callocOk manifestInfo ↔
      ∀ before item after, manifestItems manifestInfo = before ++ item :: after →
        Attempted callocOk 0 before item → item.Harmless :=
  readsSafely_iff_harmlessFrom manifestInfo

/-- A manifest as it should be is not read safely: there is no storage for the
name of the interface. -/
theorem interface_not_readsSafely :
    ¬ ReadsSafely (fun _ => true) (some (.object
      [(mgmtIntfTag, .object [(mgmtIntfNameTag, .string (.lit "eth0"))])])) := by
  rw [readsSafely_iff_harmlessFrom]
  have hNotDaemons : startsWith mgmtIntfTag daemonsTag = false := by decide
  have hItems : manifestItems (some (.object
      [(mgmtIntfTag, .object [(mgmtIntfNameTag, .string (.lit "eth0"))])])) =
        [.mgmtIntf mgmtIntfTag [(mgmtIntfNameTag, .string (.lit "eth0"))]] := by
    simp [manifestItems, Json.items, memberItems, memberItem, hNotDaemons]
  rw [hItems, harmlessFrom_mgmtIntf]
  simp [interfaceMember, Json.text]

end Copies
end OpsSysd.Manifest
