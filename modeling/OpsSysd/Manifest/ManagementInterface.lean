import OpsSysd.Manifest.Items

/-! Whether an accepted manifest names the management interface, and whether it
does so under the names that the reader looks for. -/
namespace OpsSysd.Manifest

open CLib

/-- The key, the member and the text from which an item gives the interface its
name. -/
def Item.naming : Item → Option (CString × CString × CString)
  | .daemon .. => none
  | .mgmtIntf key members => (interfaceMember members).map fun found => (key, found)

/-- The last naming in a document, which is the one that stays. -/
def lastNaming (items : List Item) : Option (CString × CString × CString) :=
  (items.filterMap Item.naming).getLast?

/-- The first object for the management interface, if there is one, gives a name. -/
def FirstNames (items : List Item) : Prop :=
  ∀ item, items.find? (fun item => !item.isDaemon) = some item → item.naming ≠ none

/-- The documents that the reader accepts: what their top is, every record can
be allocated, every daemon is an object, and the first object for the
management interface gives a name. -/
structure Accepted (callocOk : Nat → Bool) (manifestInfo : Option Json) : Prop where
  top : HasTop manifestInfo
  calloc : ∀ i < ((manifestItems manifestInfo).filter Item.isDaemon).length, callocOk i = true
  daemons : ∀ name value, Item.daemon name value ∈ manifestItems manifestInfo →
    ∃ members, value = .object members
  first : FirstNames (manifestItems manifestInfo)

section Reading

variable {callocOk : Nat → Bool} {items : List Item} {item : Item} {state after : State}

theorem lastNaming_cons_none (h : item.naming = none) :
    lastNaming (item :: items) = lastNaming items := by
  rw [lastNaming, List.filterMap_cons_none h, lastNaming]

/-- An item that names an interface does so unless a later one does. -/
theorem lastNaming_cons_some {found : CString × CString × CString} (h : item.naming = some found) :
    lastNaming (item :: items) = some ((lastNaming items).getD found) := by
  rw [lastNaming, List.filterMap_cons_some h, List.getLast?_cons, lastNaming]

/-- What reading an object for the management interface does. -/
theorem processItem_mgmtIntf (key : CString) (members : List (CString × Json)) (state : State) :
    processItem callocOk (.mgmtIntf key members) state =
      match (Item.mgmtIntf key members).naming with
      | some (_, _, text) => .ok (state.named text)
      | none => if state.isMgmtIntfPresent then .ok state else .error (.returned state) := by
  rw [processItem, sysdProcessMgmtIntf_eq, Item.naming]
  cases interfaceMember members with
  | some found => rfl
  | none => rfl

/-- The last naming decides the interface. -/
theorem mgmtIntf_of_processItems (h : processItems callocOk items state = .ok after) :
    after.mgmtIntf = match lastNaming items with
      | some (_, _, text) => some text
      | none => state.mgmtIntf := by
  induction items generalizing state with
  | nil =>
      cases h
      rfl
  | cons item items ih =>
      rw [processItems] at h
      obtain ⟨middle, hItem, hRest⟩ := bind_eq_ok h
      rw [ih hRest]
      cases item with
      | daemon name value =>
          have hSame : middle.mgmtIntf = state.mgmtIntf := by
            rw [processItem, sysdProcessDaemons] at hItem
            split at hItem
            · obtain ⟨object, -, hLast⟩ := bind_eq_ok hItem
              cases hLast
              rfl
            · cases hItem
          rw [lastNaming_cons_none rfl, hSame]
      | mgmtIntf key members =>
          rw [processItem_mgmtIntf] at hItem
          cases hNaming : (Item.mgmtIntf key members).naming with
          | some found =>
              obtain ⟨key', name, text⟩ := found
              rw [hNaming] at hItem
              cases hItem
              rw [lastNaming_cons_some hNaming]
              cases lastNaming items <;> rfl
          | none =>
              rw [hNaming] at hItem
              dsimp only at hItem
              split at hItem
              · cases hItem
                rw [lastNaming_cons_none hNaming]
              · cases hItem

/-- Daemons are passed over in looking for the first section. -/
theorem firstNames_daemon {name : CString} {value : Json} :
    FirstNames (.daemon name value :: items) ↔ FirstNames items := by
  rw [FirstNames, FirstNames, List.find?_cons_of_neg (by simp [Item.isDaemon])]

theorem firstNames_mgmtIntf {key : CString} {members : List (CString × Json)} :
    FirstNames (.mgmtIntf key members :: items) ↔ (Item.mgmtIntf key members).naming ≠ none := by
  rw [FirstNames, List.find?_cons_of_pos (by simp [Item.isDaemon])]
  simp

theorem not_exists_failed {failure : Failure} :
    ¬ ∃ after, (.error failure : Except Failure State) = .ok after := by
  rintro ⟨_, h⟩
  cases h

/-- A daemon is read if it can be allocated and is an object. -/
theorem processItems_daemon_ok {name : CString} {value : Json} :
    (∃ after, processItems callocOk (.daemon name value :: items) state = .ok after) ↔
      callocOk state.daemons.length = true ∧ ∃ members, value = .object members ∧
        ∃ after, processItems callocOk items (state.added name members) = .ok after := by
  rw [processItems]
  cases hCalloc : callocOk state.daemons.length with
  | false =>
      rw [processItem_failed hCalloc]
      exact iff_of_false not_exists_failed fun h => absurd h.1 Bool.false_ne_true
  | true =>
      rw [and_iff_right rfl]
      by_cases hValue : ∃ members, value = .object members
      · obtain ⟨members, rfl⟩ := hValue
        rw [processItem_daemon hCalloc]
        constructor
        · exact fun h => ⟨members, rfl, h⟩
        · rintro ⟨other, hSame, h⟩
          exact Json.object.inj hSame ▸ h
      · obtain ⟨failed, hFails⟩ := @processItem_no_object callocOk name value state hCalloc
          fun members hObject => hValue ⟨members, hObject⟩
        rw [hFails]
        exact iff_of_false not_exists_failed fun h => hValue ⟨h.choose, h.choose_spec.1⟩

/-- Which items are read to their end. -/
theorem processItems_ok_iff :
    (∃ after, processItems callocOk items state = .ok after) ↔
      (∀ i < (items.filter Item.isDaemon).length, callocOk (state.daemons.length + i) = true) ∧
      (∀ name value, Item.daemon name value ∈ items → ∃ members, value = .object members) ∧
      (state.isMgmtIntfPresent = false → FirstNames items) := by
  induction items generalizing state with
  | nil =>
      refine iff_of_true ⟨state, rfl⟩ ⟨?_, by simp, fun _ item hFind => ?_⟩
      · exact fun i hi => absurd hi (Nat.not_lt_zero i)
      · cases hFind
  | cons item items ih =>
      cases item with
      | daemon name value =>
          have hLater : ∀ members, (state.added name members).daemons.length =
              state.daemons.length + 1 := fun members => List.length_append
          rw [processItems_daemon_ok, firstNames_daemon, List.filter_cons_of_pos rfl,
            List.length_cons, Nat.forall_lt_succ_left]
          simp only [ih, hLater, Nat.succ_add_eq_add_succ, Nat.add_zero]
          constructor
          · rintro ⟨hCalloc, members, rfl, hRoom, hDaemons, hFirst⟩
            refine ⟨⟨hCalloc, hRoom⟩, fun other value hMem => ?_, hFirst⟩
            cases List.mem_cons.mp hMem with
            | inl hSame => exact ⟨members, (Item.daemon.inj hSame).2⟩
            | inr hTail => exact hDaemons other value hTail
          · rintro ⟨⟨hCalloc, hRoom⟩, hDaemons, hFirst⟩
            obtain ⟨members, hValue⟩ := hDaemons name value List.mem_cons_self
            exact ⟨hCalloc, members, hValue, hRoom, fun other value hMem =>
              hDaemons other value (List.mem_cons_of_mem _ hMem), hFirst⟩
      | mgmtIntf key members =>
          have hDaemons : ∀ name value, Item.daemon name value ∈ Item.mgmtIntf key members :: items ↔
              Item.daemon name value ∈ items := fun name value => by simp
          rw [firstNames_mgmtIntf, List.filter_cons_of_neg (by simp [Item.isDaemon]), processItems,
            processItem_mgmtIntf]
          simp only [hDaemons]
          cases hNaming : (Item.mgmtIntf key members).naming with
          | some found =>
              obtain ⟨key', name, text⟩ := found
              refine (@ih (state.named text)).trans ?_
              simp [State.named]
          | none =>
              cases hPresent : state.isMgmtIntfPresent with
              | true =>
                  refine (@ih state).trans ?_
                  simp [hPresent]
              | false =>
                  exact iff_of_false not_exists_failed fun h => h.2.2 rfl rfl

/-- The manifests for which `sysd_read_manifest_file` returns 0. -/
theorem sysdReadManifestFile_ok_iff {manifestInfo : Option Json} :
    (∃ after, sysdReadManifestFile callocOk manifestInfo = .ok after) ↔
      Accepted callocOk manifestInfo := by
  by_cases hTop : HasTop manifestInfo
  · have hItems := @processItems_ok_iff callocOk (manifestItems manifestInfo) .initial
    have hCount : State.initial.daemons.length = 0 := rfl
    simp only [hCount, Nat.zero_add] at hItems
    rw [sysdReadManifestFile_items hTop]
    constructor
    · rintro ⟨after, hAfter⟩
      cases hOutcome : processItems callocOk (manifestItems manifestInfo) .initial with
      | ok middle =>
          obtain ⟨hCalloc, hDaemons, hFirst⟩ := hItems.mp ⟨middle, hOutcome⟩
          exact ⟨hTop, hCalloc, hDaemons, hFirst rfl⟩
      | error failure =>
          rw [hOutcome] at hAfter
          exact nomatch hAfter
    · intro accepted
      obtain ⟨middle, hOutcome⟩ := hItems.mpr ⟨accepted.calloc, accepted.daemons, fun _ => accepted.first⟩
      exact ⟨sysdSetNumHwDaemons middle, by rw [hOutcome]; rfl⟩
  · obtain ⟨-, hRefused⟩ := @sysdReadManifestFile_no_top callocOk manifestInfo hTop
    rw [hRefused]
    exact iff_of_false (fun h => nomatch h.choose_spec) fun accepted => hTop accepted.top

/-- And what they leave in `mgmt_intf`. -/
theorem mgmtIntf_of_sysdReadManifestFile {manifestInfo : Option Json}
    (h : sysdReadManifestFile callocOk manifestInfo = .ok after) :
    after.mgmtIntf = (lastNaming (manifestItems manifestInfo)).map fun naming => naming.2.2 := by
  by_cases hTop : HasTop manifestInfo
  · rw [sysdReadManifestFile_items hTop] at h
    cases hOutcome : processItems callocOk (manifestItems manifestInfo) .initial with
    | ok middle =>
        rw [hOutcome] at h
        cases h
        have hMiddle := mgmtIntf_of_processItems hOutcome
        rw [sysdSetNumHwDaemons]
        dsimp only
        rw [hMiddle]
        cases lastNaming (manifestItems manifestInfo) <;> rfl
    | error failure =>
        rw [hOutcome] at h
        exact nomatch h
  · obtain ⟨-, hRefused⟩ := @sysdReadManifestFile_no_top callocOk manifestInfo hTop
    exact nomatch hRefused.symm.trans h

end Reading

section Naming

/-- The text is the string value of the member `intf` of an object under the
key `mgmt_intf`, it is what the reader takes from that object, and no later
object gives the interface another name. -/
def SetFrom (items : List Item) (text : CString) : Prop :=
  ∃ before members after, items = before ++ .mgmtIntf mgmtIntfTag members :: after ∧
    (mgmtIntfNameTag, Json.string text) ∈ members ∧
    interfaceMember members = some (mgmtIntfNameTag, text) ∧ ∀ later ∈ after, later.naming = none

/-- If the manifest is accepted, the management interface has been named, and
named properly. -/
def NamesInterface (callocOk : Nat → Bool) (manifestInfo : Option Json) : Prop :=
  ∀ state, sysdReadManifestFile callocOk manifestInfo = .ok state →
    ∃ text, state.mgmtIntf = some text ∧ SetFrom (manifestItems manifestInfo) text

/-- The name comes from a member of the section. -/
theorem interfaceMember_mem {members : List (CString × Json)} {name text : CString}
    (h : interfaceMember members = some (name, text)) : (name, Json.string text) ∈ members := by
  induction members with
  | nil => cases h
  | cons member rest ih =>
      obtain ⟨other, jp⟩ := member
      rw [interfaceMember] at h
      split at h
      · cases jp with
        | string found =>
            obtain ⟨rfl, rfl⟩ := Prod.mk.inj (Option.some.inj h)
            exact List.mem_cons_self
        | _ => cases h
      · exact List.mem_cons_of_mem _ (ih h)

/-- The last naming item has none after it. -/
theorem lastNaming_eq_some {items : List Item} {found : CString × CString × CString} :
    lastNaming items = some found ↔ ∃ before item after, items = before ++ item :: after ∧
      item.naming = some found ∧ ∀ later ∈ after, later.naming = none := by
  constructor
  · intro hLast
    induction items with
    | nil => exact nomatch hLast
    | cons first items ih =>
        cases hRest : lastNaming items with
        | some other =>
            have hSame : lastNaming items = some found := by
              cases hFirst : first.naming with
              | none => rwa [lastNaming_cons_none hFirst] at hLast
              | some earlier =>
                  rw [lastNaming_cons_some hFirst, hRest] at hLast
                  exact hRest.trans hLast
            obtain ⟨before, item, after, rfl, hItem, hAfter⟩ := ih hSame
            exact ⟨first :: before, item, after, rfl, hItem, hAfter⟩
        | none =>
            have hNone : ∀ later ∈ items, later.naming = none := by
              rw [lastNaming, List.getLast?_eq_none_iff] at hRest
              exact List.filterMap_eq_nil_iff.mp hRest
            cases hFirst : first.naming with
            | none =>
                rw [lastNaming_cons_none hFirst, hRest] at hLast
                exact nomatch hLast
            | some earlier =>
                rw [lastNaming_cons_some hFirst, hRest] at hLast
                exact ⟨[], first, items, rfl, hFirst.trans hLast, hNone⟩
  · rintro ⟨before, item, after, rfl, hItem, hAfter⟩
    have hNone : after.filterMap Item.naming = [] := List.filterMap_eq_nil_iff.mpr hAfter
    simp [lastNaming, List.filterMap_append, List.filterMap_cons_some hItem, hNone]

/-- The interface is set as intended exactly if the last naming is exact in both keys.
-/
theorem setFrom_iff {items : List Item} {text : CString} :
    SetFrom items text ↔ lastNaming items = some (mgmtIntfTag, mgmtIntfNameTag, text) := by
  rw [lastNaming_eq_some]
  constructor
  · rintro ⟨before, members, after, hSplit, -, hMember, hAfter⟩
    exact ⟨before, _, after, hSplit, by rw [Item.naming, hMember]; rfl, hAfter⟩
  · rintro ⟨before, item, after, hSplit, hItem, hAfter⟩
    cases item with
    | daemon name value => exact nomatch hItem
    | mgmtIntf key members =>
        obtain ⟨found, hFound, hSame⟩ := Option.map_eq_some_iff.mp hItem
        obtain ⟨rfl, rfl⟩ := Prod.mk.inj hSame
        exact ⟨before, members, after, hSplit, interfaceMember_mem hFound, hFound, hAfter⟩

/-- An accepted manifest names the management interface properly exactly when
the last name it gives stands under the names that the reader looks for. -/
theorem namesInterface_iff (callocOk : Nat → Bool) (manifestInfo : Option Json) :
    NamesInterface callocOk manifestInfo ↔ (Accepted callocOk manifestInfo →
      ∃ text, lastNaming (manifestItems manifestInfo) =
        some (mgmtIntfTag, mgmtIntfNameTag, text)) := by
  constructor
  · intro hNames accepted
    obtain ⟨state, hState⟩ := sysdReadManifestFile_ok_iff.mpr accepted
    obtain ⟨text, -, hSet⟩ := hNames state hState
    exact ⟨text, setFrom_iff.mp hSet⟩
  · intro hLast state hState
    obtain ⟨text, hText⟩ := hLast (sysdReadManifestFile_ok_iff.mp ⟨state, hState⟩)
    refine ⟨text, ?_, setFrom_iff.mpr hText⟩
    rw [mgmtIntf_of_sysdReadManifestFile hState, hText]
    rfl

/-- An empty object is accepted, and names no interface. -/
theorem empty_manifest_names_nothing :
    ¬ NamesInterface (fun _ => true) (some (.object [])) := by
  intro hNames
  obtain ⟨text, hText, -⟩ := hNames State.initial rfl
  exact nomatch hText

end Naming
end OpsSysd.Manifest
