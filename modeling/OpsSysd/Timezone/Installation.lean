import OpsSysd.Timezone.Walk

/-! The installation of the timezone commands, with every store checked against
the size of its array. The walk formats a path into an array that may be too
small for it, and then opens what is left of the path. -/
namespace OpsSysd.Timezone

open CLib Idl

/-- What `opendir` and `readdir` give for a path: nothing where it cannot be
opened, and no entry without a name. -/
structure Listing where
  entries : Directory
  wellNamed : entries.WellNamed

/-- The loop of `find_posix_timezones_and_add_to_list` over the entries of one
directory. A call for a path that holds the whole name walks the entries found
under that name, and `reopen` is the call for any other. -/
def walkEntries (reopen : CString → ZoneDb → Except Fault ZoneDb) (name : CString) :
    Directory → ZoneDb → Except Fault ZoneDb
  | .nil, db => return db
  | .file entry rest, db => do
      let localDir ← snprintf localDirSize (entryPath name entry)
      let db ← addInfoToCmdOptions (removeBasePath localDir) db
      walkEntries reopen name rest db
  | .directory entry entries rest, db => do
      let path ← snprintf pathSize (entryPath name entry)
      if isDots entry then walkEntries reopen name rest db
      else
        let below := if path = entryPath name entry then walkEntries reopen path entries db
          else reopen path db
        walkEntries reopen name rest (← below)

/-- The walk, followed through so many cut paths one below the other; the
directories below those are left out. -/
def walkThrough (readCut : CString → Listing) : Nat → CString → Directory → ZoneDb →
    Except Fault ZoneDb
  | 0 => walkEntries fun _ db => return db
  | cuts + 1 => walkEntries fun path => walkThrough readCut cuts path (readCut path).entries

/-- The results of the four `calloc`. -/
structure Allocations where
  cmd : Bool
  help : Bool
  cmdNoForm : Bool
  helpNoForm : Bool

/-- The texts of the two commands. -/
structure Commands where
  cmd : CString
  help : CString
  cmdNoForm : CString
  helpNoForm : CString

/-- `strncpy` of so many bytes, without a terminator, over a text in a buffer. -/
def strncpyOver (size : Nat) (target source : CString) (count : Nat) : Except Fault CString :=
  if size < count then .error .outOfBounds
  else .ok (source.take count ++
    ⟨target.bytes.drop count, fun h => target.noNul (List.mem_of_mem_drop h)⟩)

/-- `system_install_timezone_set_command`, given the documentation of the other
form: the texts it installs, and nothing where it answers -1. -/
def systemInstallTimezoneSetCommand (readCut : CString → Listing) (docNoForm : CString) (cuts : Nat)
    (alloc : Allocations) (posix : Directory) : Except Fault (Option Commands) := do
  if !alloc.cmd && !alloc.help && !alloc.cmdNoForm && !alloc.helpNoForm then return none
  else if !(alloc.cmd && alloc.cmdNoForm && alloc.help && alloc.helpNoForm) then throw .nullPointer
  else
    let cmdNoForm := .lit "no "
    let helpNoForm := docNoForm.take (maxTimezonesHelpSize - 1)
    let db ← walkThrough readCut cuts posixDirectory posix .initial
    let cmd ← strcpy maxTimezoneCmdSize
      (strncat db.cmd (.lit ")") (maxTimezoneCmdSize - db.cmd.length))
    let cmdNoForm ← strcpy maxTimezoneCmdSize (strncat cmdNoForm cmd cmd.length)
    let helpNoForm ← strncpyOver maxTimezonesHelpSize helpNoForm db.help db.help.length
    return some { cmd, help := db.help, cmdNoForm, helpNoForm }

namespace Directory

/-- A path that `path` has no room for, together with a second terminator. -/
def IsCut (path : CString) : Prop := pathSize ≤ path.length + 1

instance (path : CString) : Decidable (IsCut path) := inferInstanceAs (Decidable (_ ≤ _))

/-- The part of a directory that the walk comes to under its own name. -/
def seen (name : CString) : Directory → Directory
  | .nil => .nil
  | .file entry rest => .file entry (rest.seen name)
  | .directory entry entries rest =>
      .directory entry
        (if IsCut (entryPath name entry) then .nil else entries.seen (entryPath name entry))
        (rest.seen name)

/-- The directories whose paths are cut. -/
def cutPaths (name : CString) : Directory → List CString
  | .nil => []
  | .file _ rest => rest.cutPaths name
  | .directory entry entries rest =>
      (if isDots entry then []
        else if IsCut (entryPath name entry) then [entryPath name entry]
        else entries.cutPaths (entryPath name entry)) ++
      rest.cutPaths name

end Directory

/-- What is left of a path in `path`, and in `local_dir`. -/
def cutPath (path : CString) : CString := path.take (pathSize - 2)
def cutLocalDir (path : CString) : CString := path.take (localDirSize - 2)

/-- Every path of the directory has room, there are no more zones than the tables
have room for, and under a name that was cut there is nothing. -/
structure Contained (readCut : CString → Listing) (posix : Directory) : Prop where
  directories : ∀ path ∈ (posix.seen posixDirectory).directoryPaths posixDirectory,
    path.length < pathSize
  files : ∀ path ∈ (posix.seen posixDirectory).filePaths posixDirectory, path.length < localDirSize
  zones : ((posix.seen posixDirectory).filePaths posixDirectory).length ≤ maxTimezones
  cut : ∀ path ∈ posix.cutPaths posixDirectory, (readCut (cutPath path)).entries = .nil

section Loop

variable {reopen : CString → ZoneDb → Except Fault ZoneDb} {tree : Directory} {name path : CString}
  {db after : ZoneDb}

/-- A zone under the name that is left of its path. -/
def addFile (db : ZoneDb) (path : CString) : Except Fault ZoneDb :=
  addInfoToCmdOptions (removeBasePath (cutLocalDir path)) db

/-- A path stays whole exactly if there is room for it and a second terminator. -/
theorem cutPath_eq_self : cutPath path = path ↔ ¬ Directory.IsCut path := by
  have hLength := CString.length_take (pathSize - 2) path
  have hSize : pathSize = 1024 := rfl
  rw [cutPath, Directory.IsCut]
  constructor
  · intro hSame
    rw [hSame] at hLength
    omega
  · intro hWhole
    exact CString.take_of_length_le (by omega)

/-- A path that fits is taken, and cut for the second terminator. -/
theorem snprintf_path (h : path.length < pathSize) : snprintf pathSize path = .ok (cutPath path) :=
  if_neg (Nat.not_le.mpr h)

theorem snprintf_localDir (h : path.length < localDirSize) :
    snprintf localDirSize path = .ok (cutLocalDir path) :=
  if_neg (Nat.not_le.mpr h)

/-- What has been taken did fit. -/
theorem length_of_snprintf {size : Nat} {result : CString} (h : snprintf size path = .ok result) :
    path.length < size := by
  rw [snprintf] at h
  split at h
  · cases h
  · rename_i hSize
    exact Nat.not_le.mp hSize

/-- Where the paths have room, and calls for cut paths find nothing, the loop adds
the files that are seen, one after the other. -/
theorem walkEntries_eq_foldlM (tree : Directory) (name : CString) (db : ZoneDb)
    (hReopen : ∀ path ∈ tree.cutPaths name, ∀ db, reopen (cutPath path) db = .ok db)
    (hDirectories : ∀ path ∈ (tree.seen name).directoryPaths name, path.length < pathSize)
    (hFiles : ∀ path ∈ (tree.seen name).filePaths name, path.length < localDirSize) :
    walkEntries reopen name tree db = ((tree.seen name).filePaths name).foldlM addFile db := by
  induction tree generalizing name db with
  | nil => rfl
  | file entry rest ih =>
      rw [Directory.seen, Directory.filePaths] at hFiles ⊢
      obtain ⟨hHere, hLater⟩ := List.forall_mem_cons.mp hFiles
      rw [walkEntries, List.foldlM_cons, snprintf_localDir hHere, ok_bind]
      apply congrArg
      funext added
      exact ih name added hReopen hDirectories hLater
  | directory entry entries rest ihEntries ihRest =>
      rw [Directory.seen, Directory.directoryPaths] at hDirectories
      rw [Directory.seen, Directory.filePaths] at hFiles ⊢
      rw [Directory.cutPaths] at hReopen
      obtain ⟨hHere, hBelow⟩ := List.forall_mem_cons.mp hDirectories
      obtain ⟨hOwn, hOthers⟩ := List.forall_mem_append.mp hBelow
      obtain ⟨hOwnFiles, hOtherFiles⟩ := List.forall_mem_append.mp hFiles
      obtain ⟨hOwnCuts, hOtherCuts⟩ := List.forall_mem_append.mp hReopen
      have hRest : ∀ added, walkEntries reopen name rest added = _ := fun added =>
        ihRest name added hOtherCuts hOthers hOtherFiles
      rw [walkEntries, List.foldlM_append, snprintf_path hHere, ok_bind]
      by_cases hDots : isDots entry = true
      · rw [if_pos hDots, if_pos hDots]
        exact hRest db
      rw [if_neg hDots] at hOwn hOwnFiles hOwnCuts ⊢
      rw [if_neg hDots]
      by_cases hCut : Directory.IsCut (entryPath name entry)
      · rw [if_pos hCut] at hOwnCuts ⊢
        rw [if_neg (mt cutPath_eq_self.mp (not_not.mpr hCut)),
          hOwnCuts _ (List.mem_singleton.mpr rfl) db]
        exact hRest db
      · rw [if_neg hCut] at hOwn hOwnFiles hOwnCuts ⊢
        have hWhole := cutPath_eq_self.mpr hCut
        rw [if_pos hWhole, hWhole, ihEntries _ db hOwnCuts hOwn hOwnFiles]
        apply congrArg
        funext added
        exact hRest added

/-- Where the loop stores inside its arrays, every path has room, and so have the
calls for cut paths. -/
theorem walkEntries_ok (tree : Directory) (name : CString) (db : ZoneDb)
    (h : walkEntries reopen name tree db = .ok after) :
    (∀ path ∈ (tree.seen name).directoryPaths name, path.length < pathSize) ∧
      (∀ path ∈ (tree.seen name).filePaths name, path.length < localDirSize) ∧
      ∀ path ∈ tree.cutPaths name, ∃ before later, reopen (cutPath path) before = .ok later := by
  induction tree generalizing name db after with
  | nil => exact ⟨by simp [Directory.seen, Directory.directoryPaths],
      by simp [Directory.seen, Directory.filePaths], by simp [Directory.cutPaths]⟩
  | file entry rest ih =>
      rw [walkEntries] at h
      obtain ⟨localDir, hLocal, h⟩ := exists_of_bind_ok h
      obtain ⟨added, -, h⟩ := exists_of_bind_ok h
      obtain ⟨hDirectories, hFiles, hCuts⟩ := ih name added h
      rw [Directory.seen, Directory.filePaths]
      exact ⟨hDirectories, List.forall_mem_cons.mpr ⟨length_of_snprintf hLocal, hFiles⟩, hCuts⟩
  | directory entry entries rest ihEntries ihRest =>
      rw [walkEntries] at h
      obtain ⟨path, hPath, h⟩ := exists_of_bind_ok h
      have hHere := length_of_snprintf hPath
      rw [snprintf_path hHere] at hPath
      cases hPath
      rw [Directory.seen, Directory.directoryPaths, Directory.filePaths, Directory.cutPaths,
        List.forall_mem_cons, List.forall_mem_append, List.forall_mem_append, List.forall_mem_append]
      by_cases hDots : isDots entry = true
      · rw [if_pos hDots] at h
        obtain ⟨hDirectories, hFiles, hCuts⟩ := ihRest name db h
        rw [if_pos hDots, if_pos hDots, if_pos hDots]
        exact ⟨⟨hHere, by simp, hDirectories⟩, ⟨by simp, hFiles⟩, by simp, hCuts⟩
      rw [if_neg hDots] at h
      obtain ⟨added, hAdded, h⟩ := exists_of_bind_ok h
      obtain ⟨hDirectories, hFiles, hCuts⟩ := ihRest name added h
      rw [if_neg hDots, if_neg hDots, if_neg hDots]
      by_cases hCut : Directory.IsCut (entryPath name entry)
      · rw [if_neg (mt cutPath_eq_self.mp (not_not.mpr hCut))] at hAdded
        rw [if_pos hCut, if_pos hCut]
        refine ⟨⟨hHere, by simp [Directory.directoryPaths], hDirectories⟩,
          ⟨by simp [Directory.filePaths], hFiles⟩, ?_, hCuts⟩
        rw [List.forall_mem_singleton]
        exact ⟨db, added, hAdded⟩
      · have hWhole := cutPath_eq_self.mpr hCut
        rw [if_pos hWhole, hWhole] at hAdded
        obtain ⟨hOwn, hOwnFiles, hOwnCuts⟩ := ihEntries _ db hAdded
        rw [if_neg hCut, if_neg hCut]
        exact ⟨⟨hHere, hOwn, hDirectories⟩, ⟨hOwnFiles, hFiles⟩, hOwnCuts, hCuts⟩

/-- Under a name that was cut no entry has room. -/
theorem nil_of_walkEntries_ok (hNamed : tree.WellNamed) (hName : pathSize - 2 ≤ name.length)
    (h : walkEntries reopen name tree db = .ok after) : tree = .nil := by
  have hSlash : (CString.lit "/").length = 1 := by decide
  have hSizes : pathSize = 1024 ∧ localDirSize = 100 := ⟨rfl, rfl⟩
  have hLong : ∀ entry, Directory.IsName entry → pathSize ≤ (entryPath name entry).length := by
    intro entry hEntry
    have hFilled : 0 < entry.length := List.length_pos_iff.mpr hEntry.1
    rw [entryPath, CString.length_append, CString.length_append, hSlash]
    omega
  obtain ⟨hDirectories, hFiles, -⟩ := walkEntries_ok tree name db h
  cases tree with
  | nil => rfl
  | file entry rest =>
      have hHere := hFiles _ (List.mem_cons_self ..)
      have hFar := hLong entry hNamed.1
      omega
  | directory entry entries rest =>
      have hHere := hDirectories _ (List.mem_cons_self ..)
      have hFar := hLong entry hNamed.1
      omega

end Loop

section Tables

variable {db after : ZoneDb} {timezone path : CString}

/-- A zone is stored only where the tables have room for it. -/
theorem addInfoToCmdOptions_ok (h : addInfoToCmdOptions timezone db = .ok after) :
    db.zones.length < maxTimezones ∧ after.zones.length = db.zones.length + 1 := by
  rw [addInfoToCmdOptions] at h
  obtain ⟨help, -, h⟩ := exists_of_bind_ok h
  obtain ⟨longer, -, h⟩ := exists_of_bind_ok h
  obtain ⟨zoneCaps, -, h⟩ := exists_of_bind_ok h
  obtain ⟨cmd, -, h⟩ := exists_of_bind_ok h
  obtain ⟨separated, -, h⟩ := exists_of_bind_ok h
  rw [populateZoneDb] at h
  by_cases hFull : maxTimezones ≤ db.zones.length
  · rw [if_pos hFull] at h
    cases h
  · rw [if_neg hFull] at h
    obtain ⟨zone, -, h⟩ := exists_of_bind_ok h
    obtain ⟨caps, -, h⟩ := exists_of_bind_ok h
    cases h
    exact ⟨Nat.not_le.mp hFull, List.length_append⟩

/-- If all have been added there was a place for each. -/
theorem foldlM_addFile_ok (paths : List CString) (hRoom : db.zones.length ≤ maxTimezones)
    (h : paths.foldlM addFile db = .ok after) : db.zones.length + paths.length ≤ maxTimezones := by
  induction paths generalizing db with
  | nil => exact hRoom
  | cons path paths ih =>
      rw [List.foldlM_cons] at h
      obtain ⟨added, hAdded, h⟩ := exists_of_bind_ok h
      obtain ⟨hFree, hCount⟩ := addInfoToCmdOptions_ok hAdded
      have hLater := ih (by omega) h
      rw [List.length_cons]
      omega

/-- Short names leave room, however many. -/
theorem ZoneDb.Roomy.foldl_add (timezones : List CString) (hRoomy : db.Roomy)
    (hLength : ∀ timezone ∈ timezones, timezone.length ≤ 72) :
    (timezones.foldl ZoneDb.add db).Roomy := by
  induction timezones generalizing db with
  | nil => exact hRoomy
  | cons timezone timezones ih =>
      obtain ⟨hHere, hLater⟩ := List.forall_mem_cons.mp hLength
      exact ih (hRoomy.add hHere) hLater

/-- What is left of a path in `local_dir` still starts with the base path, so that
the zone's name is short. -/
theorem length_removeBasePath (rest : CString) :
    (removeBasePath (cutLocalDir (basePath ++ rest))).length ≤ 72 := by
  have hBase : basePath.length = 26 := by decide
  have hStart : (cutLocalDir (basePath ++ rest)).bytes = basePath.bytes ++ rest.bytes.take 72 := by
    have hSize : localDirSize - 2 = basePath.bytes.length + 72 := by decide
    rw [cutLocalDir, CString.take_bytes, CString.append_bytes, hSize, List.take_length_add_append]
  have hSearch : Occurrence.search basePath.bytes (basePath.bytes ++ rest.bytes.take 72) = some 0 :=
    Occurrence.search_eq_zero (List.prefix_append _ _)
  have hRemoved := (Occurrence.removeAll_sublist basePath_ne_nil (rest.bytes.take 72)).length_le
  rw [removeBasePath, CString.length]
  dsimp only
  rw [hStart, Occurrence.removeAll_of_search basePath_ne_nil hSearch, Nat.zero_add, List.drop_left]
  exact hRemoved.trans (List.length_take_le 72 rest.bytes)

/-- The zones that are added are short, however long their paths are. -/
theorem length_zone (tree : Directory) (hPath : path ∈ tree.filePaths posixDirectory) :
    (removeBasePath (cutLocalDir path)).length ≤ 72 := by
  obtain ⟨rest, rfl⟩ := tree.filePaths_below posixDirectory path hPath
  rw [entryPath, basePath_eq]
  exact length_removeBasePath rest

end Tables

section Texts

variable {readCut : CString → Listing} {docNoForm : CString} {alloc : Allocations} {posix : Directory}

/-- Where the paths have room and nothing is found under a cut one, the walk adds
the files that are seen. -/
theorem walkThrough_eq_foldlM
    (hDirectories : ∀ path ∈ (posix.seen posixDirectory).directoryPaths posixDirectory,
      path.length < pathSize)
    (hFiles : ∀ path ∈ (posix.seen posixDirectory).filePaths posixDirectory,
      path.length < localDirSize)
    (hCut : ∀ path ∈ posix.cutPaths posixDirectory, (readCut (cutPath path)).entries = .nil)
    (cuts : Nat) :
    walkThrough readCut cuts posixDirectory posix .initial =
      ((posix.seen posixDirectory).filePaths posixDirectory).foldlM addFile .initial := by
  cases cuts with
  | zero =>
      apply walkEntries_eq_foldlM posix posixDirectory .initial _ hDirectories hFiles
      intro path hPath db
      rfl
  | succ cuts =>
      apply walkEntries_eq_foldlM posix posixDirectory .initial _ hDirectories hFiles
      intro path hPath db
      rw [hCut path hPath]
      cases cuts <;> rfl

/-- With room for the paths and the zones the walk fills the tables, and the texts
do not come near the sizes of their buffers. -/
theorem walkThrough_contained (contained : Contained readCut posix) (cuts : Nat) :
    ∃ db, walkThrough readCut cuts posixDirectory posix .initial = .ok db ∧
      db.cmd.length ≤ 14 + 75 * maxTimezones ∧ db.help.length ≤ 49 + 79 * maxTimezones := by
  let files := (posix.seen posixDirectory).filePaths posixDirectory
  let names := files.map fun path => removeBasePath (cutLocalDir path)
  have hShort : ∀ timezone ∈ names, timezone.length ≤ 72 :=
    List.forall_mem_map.mpr fun path hPath => length_zone _ hPath
  have hCount : names.length ≤ maxTimezones := by
    rw [List.length_map]
    exact contained.zones
  have hLoop := foldlM_fits names initial_roomy hShort ((Nat.zero_add _).trans_le hCount)
  rw [List.foldlM_map] at hLoop
  have hWalk := walkThrough_eq_foldlM contained.directories contained.files contained.cut cuts
  refine ⟨_, hWalk.trans hLoop, ?_⟩
  have hRoomy := initial_roomy.foldl_add names hShort
  have hZones : (names.foldl ZoneDb.add .initial).zones.length = names.length := by
    rw [foldl_add_zones, List.length_append, List.length_map]
    exact Nat.zero_add _
  rw [ZoneDb.Roomy, hZones] at hRoomy
  omega

/-- The whole function stays inside its arrays for so many cut paths as one likes. -/
def NeverOverruns (readCut : CString → Listing) (docNoForm : CString) (alloc : Allocations)
    (posix : Directory) : Prop :=
  ∀ cuts, ∃ commands, systemInstallTimezoneSetCommand readCut docNoForm cuts alloc posix = .ok commands

def Allocations.none : Allocations := ⟨false, false, false, false⟩
def Allocations.all : Allocations := ⟨true, true, true, true⟩

/-- Without any buffer nothing is done. -/
theorem install_none (cuts : Nat) :
    systemInstallTimezoneSetCommand readCut docNoForm cuts .none posix = .ok Option.none := rfl

/-- With some of them a null pointer is used. -/
theorem install_some (hNone : alloc ≠ .none) (hAll : alloc ≠ .all) (cuts : Nat) :
    systemInstallTimezoneSetCommand readCut docNoForm cuts alloc posix = .error .nullPointer := by
  obtain ⟨cmd, help, cmdNoForm, helpNoForm⟩ := alloc
  cases cmd <;> cases help <;> cases cmdNoForm <;> cases helpNoForm <;>
    first | rfl | exact absurd rfl hNone | exact absurd rfl hAll

/-- With all of them, and room for every path, the commands are installed. -/
theorem install_all (contained : Contained readCut posix) (cuts : Nat) :
    ∃ commands, systemInstallTimezoneSetCommand readCut docNoForm cuts .all posix = .ok commands := by
  obtain ⟨db, hWalk, hCmd, hHelp⟩ := walkThrough_contained contained cuts
  have hSizes : maxTimezones = 900 ∧ maxTimezoneCmdSize = 90000 ∧ maxTimezonesHelpSize = 90000 :=
    ⟨rfl, rfl, rfl⟩
  obtain ⟨cmd, hClosed⟩ : ∃ cmd, strncat db.cmd (.lit ")") (maxTimezoneCmdSize - db.cmd.length) = cmd :=
    ⟨_, rfl⟩
  have hCmdFits : cmd.length < maxTimezoneCmdSize := by
    have hBracket : (CString.lit ")").length = 1 := by decide
    rw [← hClosed, strncat_length, hBracket]
    omega
  have hNoFits : (strncat (.lit "no ") cmd cmd.length).length < maxTimezoneCmdSize := by
    have hPrefix : (CString.lit "no ").length = 3 := by decide
    have hBracket : (CString.lit ")").length = 1 := by decide
    have hLength := congrArg CString.length hClosed
    rw [strncat_length, hBracket] at hLength
    rw [strncat_length, hPrefix]
    omega
  have hHelpFits : ¬ maxTimezonesHelpSize < db.help.length := by omega
  rw [systemInstallTimezoneSetCommand, if_neg (by decide), if_neg (by decide), hWalk, ok_bind,
    hClosed, strcpy_fits hCmdFits, ok_bind, strcpy_fits hNoFits, ok_bind, strncpyOver,
    if_neg hHelpFits, ok_bind]
  exact ⟨_, rfl⟩

/-- The paths that are listed as cut are cut. -/
theorem isCut_of_mem_cutPaths (tree : Directory) (name : CString) {path : CString}
    (h : path ∈ tree.cutPaths name) : Directory.IsCut path := by
  induction tree generalizing name with
  | nil => cases h
  | file entry rest ih => exact ih name h
  | directory entry entries rest ihEntries ihRest =>
      rw [Directory.cutPaths, List.mem_append] at h
      cases h with
      | inl hOwn =>
          split at hOwn
          · cases hOwn
          · split at hOwn
            · rename_i hCut
              rw [List.mem_singleton.mp hOwn]
              exact hCut
            · exact ihEntries _ hOwn
      | inr hOther => exact ihRest name hOther

/-- A cut path has 1022 characters. -/
theorem length_cutPath {path : CString} (h : Directory.IsCut path) :
    (cutPath path).length = pathSize - 2 := by
  rw [Directory.IsCut] at h
  rw [cutPath, CString.length_take]
  omega

/-- A walk through one cut path shows that nothing is found behind any. -/
theorem contained_of_install {commands : Option Commands}
    (h : systemInstallTimezoneSetCommand readCut docNoForm 1 .all posix = .ok commands) :
    Contained readCut posix := by
  rw [systemInstallTimezoneSetCommand, if_neg (by decide), if_neg (by decide)] at h
  obtain ⟨db, hWalk, -⟩ := exists_of_bind_ok h
  obtain ⟨hDirectories, hFiles, hCuts⟩ := walkEntries_ok posix posixDirectory .initial hWalk
  have hCut : ∀ path ∈ posix.cutPaths posixDirectory, (readCut (cutPath path)).entries = .nil := by
    intro path hPath
    obtain ⟨before, later, hReopened⟩ := hCuts path hPath
    have hLength := length_cutPath (isCut_of_mem_cutPaths posix posixDirectory hPath)
    exact nil_of_walkEntries_ok (readCut (cutPath path)).wellNamed hLength.ge hReopened
  have hLoop := walkThrough_eq_foldlM hDirectories hFiles hCut 1
  exact ⟨hDirectories, hFiles, (Nat.zero_add _).ge.trans
    (foldlM_addFile_ok _ (Nat.zero_le _) (hLoop.symm.trans hWalk)), hCut⟩

/-- Exactly where all of the buffers are there, or none of them, and in the first
case the directory is contained, every store is inside its array. -/
theorem neverOverruns_iff (readCut : CString → Listing) (docNoForm : CString) (alloc : Allocations)
    (posix : Directory) :
    NeverOverruns readCut docNoForm alloc posix ↔
      alloc = .none ∨ (alloc = .all ∧ Contained readCut posix) := by
  constructor
  · intro hNever
    by_cases hNone : alloc = .none
    · exact .inl hNone
    by_cases hAll : alloc = .all
    · obtain ⟨commands, hCommands⟩ := hNever 1
      rw [hAll] at hCommands
      exact .inr ⟨hAll, contained_of_install hCommands⟩
    · obtain ⟨commands, hCommands⟩ := hNever 0
      rw [install_some hNone hAll] at hCommands
      cases hCommands
  · intro hContained cuts
    cases hContained with
    | inl hNone =>
        rw [hNone]
        exact ⟨_, install_none cuts⟩
    | inr hAll =>
        rw [hAll.1]
        exact install_all hAll.2 cuts

/-- A file whose path is as long as `local_dir`, so that the second terminator is
stored behind it. -/
def longFile : Directory := .file ⟨List.replicate 74 97, by decide⟩ .nil

/-- Its path has one character too many. -/
theorem longFile_overruns : ¬ NeverOverruns (fun _ => ⟨.nil, trivial⟩) (.lit "") .all longFile := by
  intro hNever
  obtain ⟨commands, hCommands⟩ := hNever 1
  have hFile := (contained_of_install hCommands).files _ (List.mem_singleton.mpr rfl)
  exact absurd hFile (by decide)

end Texts

section Uncut

variable {reopen : CString → ZoneDb → Except Fault ZoneDb}

/-- Where no path is cut this is the walk that the tables were read from. -/
theorem walkEntries_eq_find (tree : Directory) (name : CString) (db : ZoneDb)
    (h : ∀ path ∈ tree.directoryPaths name, path.length + 1 < pathSize) :
    walkEntries reopen name tree db = findPosixTimezonesAndAddToList name tree db := by
  induction tree generalizing name db with
  | nil => rfl
  | file entry rest ih =>
      rw [walkEntries, findPosixTimezonesAndAddToList]
      apply congrArg
      funext localDir
      apply congrArg
      funext added
      exact ih name added h
  | directory entry entries rest ihEntries ihRest =>
      obtain ⟨hHere, hBelow⟩ := List.forall_mem_cons.mp h
      obtain ⟨hOwn, hOthers⟩ := List.forall_mem_append.mp hBelow
      rw [walkEntries, findPosixTimezonesAndAddToList, snprintf_fits hHere, ok_bind, ok_bind]
      by_cases hDots : isDots entry = true
      · rw [if_pos hDots, if_pos hDots]
        exact ihRest name db hOthers
      · rw [if_neg hDots] at hOwn
        rw [if_neg hDots, if_neg hDots, if_pos rfl, ihEntries _ db hOwn]
        apply congrArg
        funext added
        exact ihRest name added hOthers

/-- A directory that fits is walked as it is, however many cut paths are followed. -/
theorem walkThrough_eq_find {posix : Directory} (fits : Fits posix) (readCut : CString → Listing)
    (cuts : Nat) (db : ZoneDb) :
    walkThrough readCut cuts posixDirectory posix db =
      findPosixTimezonesAndAddToList posixDirectory posix db := by
  cases cuts with
  | zero => exact walkEntries_eq_find posix posixDirectory db fits.directories
  | succ cuts => exact walkEntries_eq_find posix posixDirectory db fits.directories

end Uncut

end OpsSysd.Timezone
