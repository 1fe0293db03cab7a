import OpsSysd.Timezone.BasePath
import OpsSysd.Timezone.Installation
import OpsSysd.Daemon.Run
import OpsSysd.Idl.Rules
import Mathlib.Data.List.Nodup

/-! The CLI, the REST validator and the daemon, each from its own listing of the
directory, mean the same timezones and the same files by them. -/
namespace OpsSysd.Timezone

open CLib Interaction Interaction.Program Idl Daemon

/-- Some command makes the CLI write this value into the column. -/
def CliWrites (db : ZoneDb) (value : CString) : Prop :=
  ∃ timezoneInfo noFlags ovsdbTimezone,
    cliSetTimezone db timezoneInfo noFlags ovsdbTimezone = .ok (some value)

/-- What the running configuration shows for a value, typed in again, selects it. -/
def SelectsAgain (db : ZoneDb) (value : CString) : Prop :=
  ∃ shown index found, vtyshConfigContextSystemCallback (some value) =
      .ok (.lit "timezone set " ++ shown) ∧
    translateCmdToFilepath db shown = some (index, found) ∧ db.zonesCaps[index]? = some value

/-- `remove_base_path` in the block of a path leaves this value there, whatever
stands behind it. -/
def LeavesInPlace (path value : CString) : Prop :=
  ∀ behind : List UInt8, ∃ block,
    removeBasePathLoop basePath (path.length + 1) (path.bytes ++ 0 :: behind) 0 = some block ∧
      stringAt block 0 = value

/-- With this value in the column the daemon makes a link to the target, makes
no other, and neither uses a null pointer nor leaves its buffer. -/
def Links (value target : CString) : Prop :=
  ∀ (World : Type) (env : Environment World) (state : State World) (system : RowId),
    (state.view.ids .system).head? = some system →
    state.view.get system .systemTimezone = some value →
      Reaches (step env) sysdHandleTimezoneUpdate state (.symlink target) state ∧
      ∀ request after, Reaches (step env) sysdHandleTimezoneUpdate state request after →
        (∀ other, request = .symlink other → other = target) ∧ ∀ kind, request ≠ .fault kind

section Tables

variable {db : ZoneDb} {value : CString}

/-- A written value comes from the table. -/
theorem mem_zonesCaps_of_cliWrites (h : CliWrites db value) : value ∈ db.zonesCaps := by
  obtain ⟨timezoneInfo, noFlags, ovsdbTimezone, hSet⟩ := h
  rw [cliSetTimezone] at hSet
  obtain ⟨timezoneCmd, -, hFound⟩ := exists_of_bind_ok hSet
  obtain ⟨found, -, hValue⟩ := Option.bind_eq_some_iff.mp (Except.ok.inj hFound)
  exact List.mem_of_getElem? hValue

/-- A zone of the list is found again in lower case. -/
theorem translate_tolower (hZones : db.zones = db.zonesCaps.map tolower) (hDistinct : db.zones.Nodup)
    (hValue : value ∈ db.zonesCaps) :
    ∃ index, translateCmdToFilepath db (tolower value) = some (index, tolower value) ∧
      db.zonesCaps[index]? = some value := by
  obtain ⟨index, hIndex, rfl⟩ := List.getElem_of_mem hValue
  have hLength : index < db.zones.length := by rwa [hZones, List.length_map]
  have hZone : db.zones[index] = tolower db.zonesCaps[index] := by simp [hZones]
  have hFirst : db.zones.findIdx? (streq · (tolower db.zonesCaps[index])) = some index := by
    refine List.findIdx?_eq_some_iff_getElem.mpr ⟨hLength, by simp [hZone], fun other hOther => ?_⟩
    have hDiffer : db.zones[other] ≠ db.zones[index] := fun hSame =>
      hOther.ne ((List.Nodup.getElem_inj_iff hDistinct).mp hSame)
    rw [hZone] at hDiffer
    simpa using hDiffer
  refine ⟨index, ?_, List.getElem?_eq_getElem hIndex⟩
  rw [translateCmdToFilepath, hFirst, Option.bind_some, List.getElem?_eq_getElem hLength, hZone]
  rfl

/-- So what is shown in the running configuration selects it. -/
theorem selectsAgain (hZones : db.zones = db.zonesCaps.map tolower) (hDistinct : db.zones.Nodup)
    (hLength : value.length < 200) (hValue : value ∈ db.zonesCaps) : SelectsAgain db value := by
  obtain ⟨index, hIndex, hCaps⟩ := translate_tolower hZones hDistinct hValue
  refine ⟨tolower value, index, tolower value, ?_, hIndex, hCaps⟩
  rw [vtyshConfigContextSystemCallback, strcpy_fits hLength]
  rfl

/-- Every zone of the list can be set. -/
theorem cliWrites_of_mem (hZones : db.zones = db.zonesCaps.map tolower) (hDistinct : db.zones.Nodup)
    (hLength : value.length < maxTimezoneNameSize) (hValue : value ∈ db.zonesCaps) :
    CliWrites db value := by
  obtain ⟨index, hIndex, hCaps⟩ := translate_tolower hZones hDistinct hValue
  have hTyped : (tolower value).length < 500 := by
    rw [tolower_length]
    exact hLength.trans (by decide)
  have hEmpty : (CString.lit "").length < maxTimezoneNameSize := by decide
  refine ⟨tolower value, false, some (.lit ""), ?_⟩
  have hAsked : requestedZone (tolower value) false (some (.lit "")) = .ok (some (tolower value)) := by
    rw [requestedZone, strcpy_fits hEmpty, ok_bind]
    exact congrArg (Except.map some) (strcpy_fits hTyped)
  rw [cliSetTimezone, hAsked, ok_bind, Option.bind_some, hIndex]
  exact congrArg Except.ok hCaps

end Tables

/-- The link of a short zone is below the base path. -/
theorem links_basePath {value : CString} (hLength : value.length ≤ 72) :
    Links value (basePath ++ value) := by
  intro World env state system hSystem hValue
  have hFits : ¬ timezoneCmdSize ≤ (timezoneBasePath ++ value).length := by
    have hBase : timezoneBasePath.length = 26 := by decide
    rw [CString.length_append, hBase, timezoneCmdSize]
    omega
  have hSafe : Safe (step env)
      (fun _ request => (∀ other, request = .symlink other → other = basePath ++ value) ∧
        ∀ kind, request ≠ .fault kind)
      sysdHandleTimezoneUpdate (fun _ _ => True) state := by
    simp only [sysdHandleTimezoneUpdate, first, call_bind, done_bind, pure_eq, safe_rows, hSystem,
      safe_read, hValue, orFault, if_neg hFits, safe_unlink, safe_symlink, safe_done]
    refine ⟨by simp, by simp, by simp, fun _ => ⟨⟨?_, by simp⟩, fun _ _ => trivial⟩⟩
    exact fun other hOther => (Request.symlink.inj hOther).symm
  have hRows : step env state (.rows .system) (state.view.ids .system) state := ⟨rfl, rfl⟩
  have hRead : step env state (.read system .systemTimezone) (some value) state :=
    ⟨hValue.symm, rfl⟩
  have hUnlink : step env state .unlink true state := rfl
  refine ⟨?_, (safe_iff.mp hSafe).1⟩
  simp only [sysdHandleTimezoneUpdate, first, call_bind, done_bind, pure_eq]
  refine .later hRows ?_
  simp only [hSystem]
  refine .later hRead ?_
  simp only [orFault, pure_eq, done_bind, if_neg hFits]
  exact .later hUnlink (.here _ _ _)

/-- The three programs agree on every directory whose paths and zones the CLI can
hold, where the base path does not recur in a path and no two zones differ in
their case only. It is walked alike when every path is formatted into its array
and stripped there. -/
theorem timezones_agree (posix listed : Directory) (hNames : listed.WellNamed)
    (hSame : ∀ path,
      path ∈ listed.filePaths posixDirectory ↔ path ∈ posix.filePaths posixDirectory)
    (hPrefix : ∀ path ∈ posix.filePaths posixDirectory,
      Occurrence.OnlyAtStart basePath.bytes path.bytes)
    (hDistinct : ((posix.filePaths posixDirectory).map fun path => tolower (zoneName path)).Nodup)
    (hFits : Fits posix) :
    ∃ db, findPosixTimezonesAndAddToList posixDirectory posix .initial = .ok db ∧
      (∀ readCut cuts, walkThrough readCut cuts posixDirectory posix .initial = .ok db) ∧
      (∀ value, CliWrites db value ↔ checkValidTimezone listed value = true) ∧
      ∀ value, CliWrites db value → SelectsAgain db value ∧
        (∃ path ∈ posix.filePaths posixDirectory, removeBasePath path = value ∧
          LeavesInPlace path value) ∧
        ∀ path ∈ posix.filePaths posixDirectory, removeBasePath path = value → Links value path := by
  have hPath : ∀ path ∈ posix.filePaths posixDirectory, path = basePath ++ zoneName path :=
    fun path hPath => path_eq_zoneName hPath
  have hZone : ∀ path ∈ posix.filePaths posixDirectory, removeBasePath path = zoneName path :=
    fun path hMem => removeBasePath_eq (hPath path hMem) (hPrefix path hMem)
  have hLength : ∀ path ∈ posix.filePaths posixDirectory, (removeBasePath path).length ≤ 72 := by
    intro path hMem
    have hBase : basePath.length = 26 := by decide
    have hWhole := hFits.files path hMem
    rw [hPath path hMem, CString.length_append, hBase, localDirSize] at hWhole
    rw [hZone path hMem]
    omega
  let names := (posix.filePaths posixDirectory).map removeBasePath
  have hNameLength : ∀ name ∈ names, name.length ≤ 72 := List.forall_mem_map.mpr hLength
  let db := names.foldl ZoneDb.add .initial
  have hCaps : db.zonesCaps = names := foldl_add_zonesCaps names
  have hZones : db.zones = db.zonesCaps.map tolower := by rw [hCaps]; exact foldl_add_zones names
  have hNodup : db.zones.Nodup := by
    rw [hZones, hCaps, List.map_map]
    exact List.map_congr_left (fun path hMem => congrArg tolower (hZone path hMem)) ▸ hDistinct
  have hWrites : ∀ value, CliWrites db value ↔ value ∈ names := fun value =>
    ⟨fun h => hCaps ▸ mem_zonesCaps_of_cliWrites h, fun h => cliWrites_of_mem hZones hNodup
      ((hNameLength value h).trans_lt (by decide)) (hCaps ▸ h)⟩
  have hWalk : findPosixTimezonesAndAddToList posixDirectory posix .initial = .ok db := by
    rw [walk_eq_foldlM posix posixDirectory .initial hFits.directories hFits.files]
    have hLoop := foldlM_fits names initial_roomy hNameLength
      (by rw [List.length_map]; exact (Nat.zero_add _).trans_le hFits.zones)
    rwa [List.foldlM_map] at hLoop
  refine ⟨db, hWalk, fun readCut cuts => ?_, fun value => ?_, fun value hWritten => ?_⟩
  · rw [walkThrough_eq_find hFits, hWalk]
  · rw [hWrites, checkValidTimezone_iff listed hNames, List.mem_map]
    simp only [hSame]
  · have hMem := (hWrites value).mp hWritten
    refine ⟨selectsAgain hZones hNodup ((hNameLength value hMem).trans_lt (by decide)) (hCaps ▸ hMem),
      ?_, ?_⟩
    · obtain ⟨path, hFile, rfl⟩ := List.mem_map.mp hMem
      refine ⟨path, hFile, rfl, fun behind => ?_⟩
      obtain ⟨block, hLoop, hString, -⟩ := removeBasePathLoop_path path behind
      exact ⟨block, hLoop, hString⟩
    rintro path hFile rfl
    have hTarget : basePath ++ removeBasePath path = path := by
      rw [hZone path hFile]
      exact (hPath path hFile).symm
    exact (congrArg _ hTarget).mp (links_basePath (hLength path hFile))

/-- Two zones, one of them in a directory, in the order of the CLI's listing. -/
def smallPosix : Directory :=
  .directory (.lit ".") .nil (.directory (.lit "..") .nil
    (.directory (.lit "Africa") (.directory (.lit ".") .nil (.file (.lit "Abidjan") .nil))
      (.file (.lit "UTC") .nil)))

/-- The same two zones as another listing gives them. -/
def smallListed : Directory :=
  .file (.lit "UTC") (.directory (.lit "Africa") (.file (.lit "Abidjan") .nil) .nil)

/-- A directory with a file beside it and one in it. -/
theorem smallPosix_agree :
    ∃ db, findPosixTimezonesAndAddToList posixDirectory smallPosix .initial = .ok db ∧
      (∀ readCut cuts, walkThrough readCut cuts posixDirectory smallPosix .initial = .ok db) ∧
      (∀ value, CliWrites db value ↔ checkValidTimezone smallListed value = true) ∧
      ∀ value, CliWrites db value → SelectsAgain db value ∧
        (∃ path ∈ smallPosix.filePaths posixDirectory, removeBasePath path = value ∧
          LeavesInPlace path value) ∧
        ∀ path ∈ smallPosix.filePaths posixDirectory, removeBasePath path = value →
          Links value path := by
  have hPosix : smallPosix.filePaths posixDirectory =
      [.lit "/usr/share/zoneinfo/posix/Africa/Abidjan", .lit "/usr/share/zoneinfo/posix/UTC"] := by
    decide
  have hListed : smallListed.filePaths posixDirectory =
      [.lit "/usr/share/zoneinfo/posix/UTC", .lit "/usr/share/zoneinfo/posix/Africa/Abidjan"] := by
    decide
  refine timezones_agree smallPosix smallListed (by decide) (fun path => ?_) (fun path hPath => ?_)
    (by decide) ⟨by decide, by decide, by decide⟩
  · simp only [hPosix, hListed, List.mem_cons, List.not_mem_nil, or_false]
    exact or_comm
  · have hOnce : ∀ path ∈ smallPosix.filePaths posixDirectory,
        Occurrence.search basePath.bytes path.bytes.tail = none := by decide
    exact Occurrence.onlyAtStart_of_search_tail (hOnce path hPath)

end OpsSysd.Timezone
