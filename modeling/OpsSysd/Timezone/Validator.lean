import OpsSysd.Timezone.Cli

/-! The timezones in the REST validator: a dictionary that is filled from a walk
over the directory, and the test whether it has a key. -/
namespace OpsSysd.Timezone

open CLib

/-- `os.path.join`. -/
def pathJoin (path entry : CString) : CString :=
  if entry.bytes.head? = some 47 then entry
  else if path.bytes = [] ∨ path.bytes.getLast? = some 47 then path ++ entry
  else path ++ .lit "/" ++ entry

namespace Directory

/-- The regular files of the directory itself. -/
def filenames : Directory → List CString
  | .nil => []
  | .file entry rest => entry :: rest.filenames
  | .directory _ _ rest => rest.filenames

/-- What `os.walk` yields for the directories below, each before those below it. -/
def walkBelow (top : CString) : Directory → List (CString × List CString)
  | .nil => []
  | .file _ rest => rest.walkBelow top
  | .directory entry entries rest =>
      (if isDots entry then []
        else (pathJoin top entry, entries.filenames) :: entries.walkBelow (pathJoin top entry)) ++
      rest.walkBelow top

end Directory

/-- `os.walk`: every directory with the files in it. -/
def osWalk (top : CString) (tree : Directory) : List (CString × List CString) :=
  (top, tree.filenames) :: tree.walkBelow top

/-- `timezone.replace(path, "")`. -/
def replacePath (timezone : CString) : CString where
  bytes := Occurrence.replaceAll basePath.bytes basePath_ne_nil timezone.bytes
  noNul := by
    rw [← Occurrence.removeAll_eq_replaceAll]
    exact fun h => timezone.noNul ((Occurrence.removeAll_sublist _ _).subset h)

/-- A dictionary, by its items. -/
abbrev Dict := List (CString × CString)

namespace Dict

def keys (dict : Dict) : List CString := dict.map Prod.fst

def set (dict : Dict) (key value : CString) : Dict :=
  (key, value) :: dict.filter fun item => item.1 ≠ key

theorem mem_keys_set {dict : Dict} {key value other : CString} :
    other ∈ (dict.set key value).keys ↔ other = key ∨ other ∈ dict.keys := by
  simp only [keys, set, List.map_cons, List.mem_cons, List.mem_map, List.mem_filter,
    decide_eq_true_eq]
  by_cases hKey : other = key
  · exact iff_of_true (.inl hKey) (.inl hKey)
  · refine or_congr_right ⟨?_, ?_⟩
    · rintro ⟨item, hItem, rfl⟩
      exact ⟨item, hItem.1, rfl⟩
    · rintro ⟨item, hItem, rfl⟩
      exact ⟨item, ⟨hItem, hKey⟩, rfl⟩

/-- A loop over files leaves a key for each of them. -/
theorem mem_keys_foldl {Item : Type} {body : Dict → Item → Dict} {found : Item → CString → Prop}
    (hBody : ∀ dict item key, key ∈ (body dict item).keys ↔ key ∈ dict.keys ∨ found item key)
    (items : List Item) (dict : Dict) (key : CString) :
    key ∈ (items.foldl body dict).keys ↔ key ∈ dict.keys ∨ ∃ item ∈ items, found item key := by
  induction items generalizing dict with
  | nil => simp
  | cons item items ih =>
      rw [List.foldl_cons, ih, hBody, or_assoc, List.exists_mem_cons_iff]

end Dict

/-- The inner loop of `build_timezone_db`. -/
def addFilenames (listOfTimezones : Dict) (entry : CString × List CString) : Dict :=
  entry.2.foldl (fun listOfTimezones filename =>
    let fullPath := pathJoin entry.1 filename
    listOfTimezones.set (replacePath fullPath) fullPath) listOfTimezones

/-- `build_timezone_db`. -/
def buildTimezoneDb (posix : Directory) : Dict :=
  (osWalk basePath posix).foldl addFilenames []

/-- `check_valid_timezone`. -/
def checkValidTimezone (posix : Directory) (timezoneUserInput : CString) : Bool :=
  timezoneUserInput ∈ (buildTimezoneDb posix).keys

/-- A directory adds its files as keys. -/
theorem mem_keys_addFilenames (dict : Dict) (entry : CString × List CString) (key : CString) :
    key ∈ (addFilenames dict entry).keys ↔ key ∈ dict.keys ∨
      ∃ filename ∈ entry.2, key = replacePath (pathJoin entry.1 filename) := by
  let found filename key := key = replacePath (pathJoin entry.1 filename)
  exact Dict.mem_keys_foldl (fun _ filename key =>
    (Dict.mem_keys_set.trans or_comm : _ ↔ _ ∨ found filename key)) entry.2 dict key

/-- The keys are the files that are walked over. -/
theorem mem_keys_buildTimezoneDb (posix : Directory) (key : CString) :
    key ∈ (buildTimezoneDb posix).keys ↔ ∃ entry ∈ osWalk basePath posix,
      ∃ filename ∈ entry.2, key = replacePath (pathJoin entry.1 filename) :=
  (Dict.mem_keys_foldl mem_keys_addFilenames _ _ _).trans (or_iff_right nofun)

/-- The C and the Python program take the same off a path. -/
theorem removeBasePath_eq_replacePath : removeBasePath = replacePath :=
  funext fun _ => CString.ext (Occurrence.removeAll_eq_replaceAll _ _)

section Join

/-- Below this path a file has the path that formatting gives it. -/
def JoinsAs (path name : CString) : Prop :=
  ∀ entry, Directory.IsName entry → pathJoin path entry = entryPath name entry

/-- A name does not begin with a slash. -/
theorem head_ne_slash {entry : CString} (hName : Directory.IsName entry) :
    entry.bytes.head? ≠ some 47 :=
  fun h => hName.2 (List.mem_of_mem_head? h)

/-- The base path ends with a slash already. -/
theorem basePath_joinsAs : JoinsAs basePath posixDirectory := by
  intro entry hName
  have hSlash : basePath.bytes.getLast? = some 47 := by decide
  have hBase : posixDirectory ++ .lit "/" = basePath := by decide
  rw [pathJoin, if_neg (head_ne_slash hName), if_pos (.inr hSlash), entryPath, hBase]

/-- A path is joined as it is concatenated. -/
theorem entryPath_joinsAs {name below : CString} (hBelow : Directory.IsName below) :
    JoinsAs (entryPath name below) (entryPath name below) := by
  intro entry hName
  obtain ⟨last, hLast⟩ := Option.isSome_iff_exists.mp (List.getLast?_isSome.mpr hBelow.1)
  have hPathLast : (entryPath name below).bytes.getLast? = some last := by
    rw [entryPath, CString.append_bytes, List.getLast?_append, hLast]
    rfl
  have hSlash : last ≠ 47 := fun h => hBelow.2 (h ▸ List.mem_of_mem_getLast? hLast)
  rw [pathJoin, if_neg (head_ne_slash hName), if_neg, ← entryPath]
  rintro (hNil | hEnds)
  · rw [hNil] at hPathLast
    cases hPathLast
  · exact hSlash (Option.some.inj (hPathLast.symm.trans hEnds))

/-- The walk's two parts, the directory itself and those below, yield its files. -/
theorem found_iff (tree : Directory) (path name : CString) (hJoins : JoinsAs path name)
    (hNames : tree.WellNamed) (file : CString) :
    ((∃ filename ∈ tree.filenames, pathJoin path filename = file) ∨
      ∃ entry ∈ tree.walkBelow path, ∃ filename ∈ entry.2, pathJoin entry.1 filename = file) ↔
      file ∈ tree.filePaths name := by
  induction tree generalizing path name with
  | nil => simp [Directory.filenames, Directory.walkBelow, Directory.filePaths]
  | file entry rest ih =>
      rw [Directory.filePaths, List.mem_cons, ← ih path name hJoins hNames.2, ← hJoins entry hNames.1,
        Directory.filenames, List.exists_mem_cons_iff, or_assoc, eq_comm]
      rfl
  | directory entry entries rest ihEntries ihRest =>
      obtain ⟨hName, hEntries, hRest⟩ := hNames
      rw [Directory.filePaths, List.mem_append, ← ihRest path name hJoins hRest, Directory.walkBelow]
      by_cases hDots : isDots entry = true
      · rw [if_pos hDots, if_pos hDots, List.nil_append]
        simp [Directory.filenames]
      · have hBelow := ihEntries (pathJoin path entry) (entryPath name entry)
          (hJoins entry hName ▸ entryPath_joinsAs hName) hEntries
        rw [if_neg hDots, if_neg hDots, ← hBelow]
        simp only [List.mem_append, or_and_right, exists_or, List.exists_mem_cons_iff,
          Directory.filenames]
        exact or_left_comm

/-- A file that the walk yields is one of the directory's, and each is yielded. -/
theorem exists_osWalk (tree : Directory) (path name : CString) (hJoins : JoinsAs path name)
    (hNames : tree.WellNamed) (file : CString) :
    (∃ entry ∈ osWalk path tree, ∃ filename ∈ entry.2, pathJoin entry.1 filename = file) ↔
      file ∈ tree.filePaths name := by
  rw [← found_iff tree path name hJoins hNames]
  simp only [osWalk, List.exists_mem_cons_iff]

end Join

/-- The validator accepts what is left of the paths of the files. -/
theorem checkValidTimezone_iff (posix : Directory) (hNames : posix.WellNamed) (timezone : CString) :
    checkValidTimezone posix timezone = true ↔
      ∃ path ∈ posix.filePaths posixDirectory, removeBasePath path = timezone := by
  rw [checkValidTimezone, decide_eq_true_iff, mem_keys_buildTimezoneDb,
    removeBasePath_eq_replacePath]
  simp only [← exists_osWalk posix basePath posixDirectory basePath_joinsAs hNames]
  constructor
  · rintro ⟨entry, hEntry, filename, hFile, rfl⟩
    exact ⟨_, ⟨entry, hEntry, filename, hFile, rfl⟩, rfl⟩
  · rintro ⟨path, ⟨entry, hEntry, filename, hFile, rfl⟩, rfl⟩
    exact ⟨entry, hEntry, filename, hFile, rfl⟩

end OpsSysd.Timezone
