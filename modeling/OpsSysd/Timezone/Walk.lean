import OpsSysd.Timezone.Cli

/-! The CLI's walk adds the zones of a directory one after the other, as long as
its buffers can take them. -/
namespace OpsSysd.Timezone

open CLib Idl

/-- The name of a zone: its path without what the walk put before it. -/
def zoneName (path : CString) : CString where
  bytes := path.bytes.drop basePath.length
  noNul := fun h => path.noNul (List.mem_of_mem_drop h)

/-- The buffers that take a path, and the tables, are large enough. -/
structure Fits (posix : Directory) : Prop where
  directories : ∀ path ∈ posix.directoryPaths posixDirectory, path.length + 1 < pathSize
  files : ∀ path ∈ posix.filePaths posixDirectory, path.length + 1 < localDirSize
  zones : (posix.filePaths posixDirectory).length ≤ maxTimezones

section Buffers

variable {size : Nat} {text target : CString}

theorem ok_bind {α β : Type} (value : α) (next : α → Except Fault β) :
    (Except.ok value >>= next) = next value := rfl

theorem exists_of_bind_ok {α β : Type} {first : Except Fault α} {next : α → Except Fault β}
    {result : β} (h : (first >>= next) = .ok result) :
    ∃ value, first = .ok value ∧ next value = .ok result := by
  cases first with
  | error kind => exact nomatch h
  | ok value => exact ⟨value, rfl, h⟩

/-- A text that fits is copied. -/
theorem strcpy_fits (h : text.length < size) : strcpy size text = .ok text :=
  if_neg (Nat.not_le.mpr h)

/-- And appended. -/
theorem strcat_fits (h : (target ++ text).length < size) :
    strcat size target text = .ok (target ++ text) :=
  strcpy_fits h

theorem length_first_lt (h : (target ++ text).length < size) : target.length < size := by
  rw [CString.length_append] at h
  exact (Nat.le_add_right _ _).trans_lt h

/-- And printed whole. -/
theorem snprintf_fits (h : text.length + 1 < size) : snprintf size text = .ok text := by
  have hWhole : text.take (size - 2) = text :=
    CString.ext (List.take_of_length_le (show text.length ≤ size - 2 by omega))
  rw [snprintf, if_neg (by omega), hWhole]

end Buffers

/-- Where every path fits, the walk is a loop over the files. -/
theorem walk_eq_foldlM (tree : Directory) (name : CString) (db : ZoneDb)
    (hDirectories : ∀ path ∈ tree.directoryPaths name, path.length + 1 < pathSize)
    (hFiles : ∀ path ∈ tree.filePaths name, path.length + 1 < localDirSize) :
    findPosixTimezonesAndAddToList name tree db =
      (tree.filePaths name).foldlM
        (fun db path => addInfoToCmdOptions (removeBasePath path) db) db := by
  induction tree generalizing name db with
  | nil => rfl
  | file entry rest ih =>
      have hHere := snprintf_fits (hFiles _ List.mem_cons_self)
      rw [findPosixTimezonesAndAddToList, Directory.filePaths, List.foldlM_cons, hHere, ok_bind]
      refine congrArg _ (funext fun added => ?_)
      exact ih name added hDirectories fun path hPath => hFiles path (List.mem_cons_of_mem _ hPath)
  | directory entry entries rest ihEntries ihRest =>
      have hHere := snprintf_fits (hDirectories _ List.mem_cons_self)
      have hBelow := fun path hPath => hDirectories path (List.mem_cons_of_mem _ hPath)
      have hRest : ∀ added, findPosixTimezonesAndAddToList name rest added = _ := fun added =>
        ihRest name added (fun path hPath => hBelow path (List.mem_append_right _ hPath))
          fun path hPath => hFiles path (List.mem_append_right _ hPath)
      rw [findPosixTimezonesAndAddToList, Directory.filePaths, List.foldlM_append, hHere, ok_bind]
      by_cases hDots : isDots entry = true
      · rw [if_pos hDots, if_pos hDots]
        exact hRest db
      · have hEntries := ihEntries (entryPath name entry) db
          (fun path hPath => hBelow path (List.mem_append_left _ (by rwa [if_neg hDots])))
          fun path hPath => hFiles path (List.mem_append_left _ (by rwa [if_neg hDots]))
        rw [if_neg hDots, if_neg hDots, hEntries]
        exact congrArg _ (funext hRest)

/-- A zone is added to every table and text. -/
def ZoneDb.add (db : ZoneDb) (timezone : CString) : ZoneDb where
  zones := db.zones ++ [tolower timezone]
  zonesCaps := db.zonesCaps ++ [timezone]
  cmd := db.cmd ++ tolower timezone ++ .lit " | "
  help := db.help ++ timezone ++ .lit " Zone \n"

/-- The texts are no longer than zones whose paths fit can have made them. -/
def ZoneDb.Roomy (db : ZoneDb) : Prop :=
  db.cmd.length ≤ 14 + 75 * db.zones.length ∧ db.help.length ≤ 49 + 79 * db.zones.length

/-- The tables begin with room. -/
theorem initial_roomy : ZoneDb.initial.Roomy := by
  have hCmd : ZoneDb.initial.cmd.length = 14 := by decide
  have hHelp : ZoneDb.initial.help.length = 49 := by decide
  exact ⟨hCmd.le, hHelp.le⟩

/-- The case changes no length. -/
@[simp] theorem tolower_length (text : CString) : (tolower text).length = text.length :=
  List.length_map _

section Add

variable {db : ZoneDb} {timezone : CString}

/-- A short name leaves room. -/
theorem ZoneDb.Roomy.add (hRoomy : db.Roomy) (hLength : timezone.length ≤ 72) :
    (db.add timezone).Roomy := by
  have hSeparator : (CString.lit " | ").length = 3 := by decide
  have hZone : (CString.lit " Zone \n").length = 7 := by decide
  obtain ⟨hCmd, hHelp⟩ := hRoomy
  simp only [ZoneDb.Roomy, ZoneDb.add, CString.length_append, tolower_length, List.length_append,
    List.length_singleton, hSeparator, hZone]
  omega

/-- A short name is added while the list has a place. -/
theorem addInfoToCmdOptions_fits (hRoomy : db.Roomy) (hLength : timezone.length ≤ 72)
    (hRoom : db.zones.length < maxTimezones) :
    addInfoToCmdOptions timezone db = .ok (db.add timezone) := by
  obtain ⟨hCmd, hHelp⟩ := hRoomy.add hLength
  have hCount : (db.add timezone).zones.length ≤ 900 := by
    rw [ZoneDb.add, List.length_append]
    exact hRoom
  have hSizes : maxTimezoneCmdSize = 90000 ∧ maxTimezonesHelpSize = 90000 := ⟨rfl, rfl⟩
  have hCmdSize : (db.cmd ++ tolower timezone ++ .lit " | ").length < maxTimezoneCmdSize :=
    hCmd.trans_lt (by omega)
  have hHelpSize : (db.help ++ timezone ++ .lit " Zone \n").length < maxTimezonesHelpSize :=
    hHelp.trans_lt (by omega)
  have hName : timezone.length < maxTimezoneNameSize := hLength.trans_lt (by decide)
  have hLower : (tolower timezone).length < maxTimezoneNameSize := by rwa [tolower_length]
  rw [addInfoToCmdOptions, strcat_fits (length_first_lt hHelpSize), ok_bind, strcat_fits hHelpSize,
    ok_bind, strcpy_fits hName, ok_bind]
  dsimp only
  rw [strcat_fits (length_first_lt hCmdSize), ok_bind, strcat_fits hCmdSize, ok_bind,
    populateZoneDb, if_neg (Nat.not_le.mpr hRoom), strcpy_fits hLower, strcpy_fits hName]
  rfl

/-- The loop over zones that fit adds them all. -/
theorem foldlM_fits (timezones : List CString) (hRoomy : db.Roomy)
    (hLength : ∀ timezone ∈ timezones, timezone.length ≤ 72)
    (hRoom : db.zones.length + timezones.length ≤ maxTimezones) :
    timezones.foldlM (fun db timezone => addInfoToCmdOptions timezone db) db =
      .ok (timezones.foldl ZoneDb.add db) := by
  induction timezones generalizing db with
  | nil => rfl
  | cons timezone timezones ih =>
      rw [List.length_cons] at hRoom
      have hHere := hLength timezone List.mem_cons_self
      rw [List.foldlM_cons, addInfoToCmdOptions_fits hRoomy hHere (by omega), ok_bind]
      refine ih (hRoomy.add hHere) (fun later hLater => hLength later (List.mem_cons_of_mem _ hLater)) ?_
      rw [ZoneDb.add, List.length_append, List.length_singleton]
      omega

/-- A table that gets one entry for each zone. -/
theorem foldl_add_table (table : ZoneDb → List CString) (entry : CString → CString)
    (hAdd : ∀ db timezone, table (db.add timezone) = table db ++ [entry timezone])
    (timezones : List CString) :
    table (timezones.foldl ZoneDb.add db) = table db ++ timezones.map entry := by
  induction timezones generalizing db with
  | nil => exact (List.append_nil _).symm
  | cons timezone timezones ih =>
      rw [List.foldl_cons, ih, hAdd, List.append_assoc]
      rfl

/-- The list has the names in lower case. -/
theorem foldl_add_zones (timezones : List CString) :
    (timezones.foldl ZoneDb.add db).zones = db.zones ++ timezones.map tolower :=
  foldl_add_table ZoneDb.zones tolower (fun _ _ => rfl) timezones

/-- And beside them the names as they are. -/
theorem foldl_add_zonesCaps (timezones : List CString) :
    (timezones.foldl ZoneDb.add db).zonesCaps = db.zonesCaps ++ timezones := by
  rw [foldl_add_table ZoneDb.zonesCaps id (fun _ _ => rfl) timezones, List.map_id]

end Add

section Posix

theorem basePath_eq : posixDirectory ++ .lit "/" = basePath := by decide

/-- A file is where its zone's name, after the base path, says. -/
theorem path_eq_zoneName {posix : Directory} {path : CString}
    (hPath : path ∈ posix.filePaths posixDirectory) : path = basePath ++ zoneName path := by
  obtain ⟨rest, rfl⟩ := posix.filePaths_below posixDirectory path hPath
  rw [entryPath, basePath_eq, CString.append_cancel]
  exact CString.ext (List.drop_left).symm

/-- Where the base path is the beginning, and nothing else, it is taken off. -/
theorem removeBasePath_eq {path : CString} (hPath : path = basePath ++ zoneName path)
    (hPrefix : Occurrence.OnlyAtStart basePath.bytes path.bytes) :
    removeBasePath path = zoneName path := by
  have hBytes := congrArg CString.bytes hPath
  rw [hBytes, CString.append_bytes] at hPrefix
  have hCut := Occurrence.removeAll_prefix (by decide) hPrefix
  apply CString.ext
  rw [removeBasePath]
  dsimp only
  rw [← hCut]
  exact congrArg _ hBytes

end Posix
end OpsSysd.Timezone
