import OpsSysd.Library.CString
import OpsSysd.Library.Occurrence

/-! The directory under which the timezones lie, as a listing of it gives its
entries. Each program lists it for itself, and nothing fixes the order. -/
namespace OpsSysd.Timezone

open CLib

/-- The entries of a directory in the order of a listing, with those of the
directories below. The links `.` and `..` have none of their own. -/
inductive Directory where
  | nil
  | file (name : CString) (rest : Directory)
  | directory (name : CString) (entries rest : Directory)

/-- The names by which a directory refers to itself and to the one above. -/
def isDots (name : CString) : Bool := streq name (.lit ".") || streq name (.lit "..")

/-- The path of an entry, as `"%s/%s"` formats it. -/
def entryPath (name entry : CString) : CString := name ++ .lit "/" ++ entry

namespace Directory

/-- The full path of every regular file, where the directory itself has this name. -/
def filePaths (name : CString) : Directory → List CString
  | .nil => []
  | .file entry rest => entryPath name entry :: rest.filePaths name
  | .directory entry entries rest =>
      (if isDots entry then [] else entries.filePaths (entryPath name entry)) ++
        rest.filePaths name

/-- The path of every entry that is a directory, the links among them. -/
def directoryPaths (name : CString) : Directory → List CString
  | .nil => []
  | .file _ rest => rest.directoryPaths name
  | .directory entry entries rest =>
      entryPath name entry ::
        ((if isDots entry then [] else entries.directoryPaths (entryPath name entry)) ++
          rest.directoryPaths name)

/-- The name of a directory entry has a byte, and none of them is a slash. -/
def IsName (name : CString) : Prop := name.bytes ≠ [] ∧ 47 ∉ name.bytes

/-- Every entry has such a name. -/
def WellNamed : Directory → Prop
  | .nil => True
  | .file entry rest => IsName entry ∧ rest.WellNamed
  | .directory entry entries rest => IsName entry ∧ entries.WellNamed ∧ rest.WellNamed

instance (name : CString) : Decidable (IsName name) := inferInstanceAs (Decidable (_ ∧ _))

instance decidableWellNamed : (tree : Directory) → Decidable tree.WellNamed
  | .nil => inferInstanceAs (Decidable True)
  | .file entry rest =>
      have := decidableWellNamed rest
      inferInstanceAs (Decidable (IsName entry ∧ rest.WellNamed))
  | .directory entry entries rest =>
      have := decidableWellNamed entries
      have := decidableWellNamed rest
      inferInstanceAs (Decidable (IsName entry ∧ entries.WellNamed ∧ rest.WellNamed))

/-- Every file lies below the directory. -/
theorem filePaths_below (tree : Directory) (name : CString) :
    ∀ path ∈ tree.filePaths name, ∃ rest, path = entryPath name rest := by
  induction tree generalizing name with
  | nil => exact nofun
  | file entry rest ih =>
      intro path hPath
      rcases List.mem_cons.mp hPath with rfl | hPath
      · exact ⟨entry, rfl⟩
      · exact ih name path hPath
  | directory entry entries rest ihEntries ihRest =>
      intro path hPath
      rcases List.mem_append.mp hPath with hPath | hPath
      · split at hPath
        · exact nomatch hPath
        · obtain ⟨below, rfl⟩ := ihEntries _ path hPath
          refine ⟨entryPath entry below, ?_⟩
          simp only [entryPath, CString.append_assoc]
      · exact ihRest name path hPath

end Directory
end OpsSysd.Timezone
