import OpsSysd.Timezone.Directory
import OpsSysd.Idl.Session

/-! The timezones in the CLI: the walk that fills its tables from the directory,
the command that writes the column, and what the running configuration shows. -/
namespace OpsSysd.Timezone

open CLib Idl

def maxTimezones : Nat := 900
def maxTimezoneNameSize : Nat := 100
def maxTimezoneCmdSize : Nat := maxTimezones * maxTimezoneNameSize
def maxTimezonesHelpSize : Nat := maxTimezones * 100

def basePath : CString := .lit "/usr/share/zoneinfo/posix/"
def posixDirectory : CString := .lit "/usr/share/zoneinfo/posix"
def defaultTimezone : CString := .lit "utc"

/-- `tolower` on every byte of a string, in the C locale. -/
def tolowerByte (byte : UInt8) : UInt8 := if 65 ≤ byte ∧ byte ≤ 90 then byte + 32 else byte

theorem tolowerByte_ne {byte : UInt8} (h : byte ≠ 0) : tolowerByte byte ≠ 0 := by
  rw [tolowerByte]
  split
  · rename_i hUpper
    have hRange := UInt8.le_iff_toNat_le.mp hUpper.2
    intro hZero
    have hSum := congrArg UInt8.toNat hZero
    rw [UInt8.toNat_add] at hSum
    simp at hSum hRange
    omega
  · exact h

def tolower (text : CString) : CString where
  bytes := text.bytes.map tolowerByte
  noNul := by
    intro h
    obtain ⟨byte, hMem, hByte⟩ := List.mem_map.mp h
    exact tolowerByte_ne (fun h0 => text.noNul (h0 ▸ hMem)) hByte

theorem basePath_ne_nil : basePath.bytes ≠ [] := by decide

/-- `remove_base_path`. -/
def removeBasePath (fullPath : CString) : CString where
  bytes := Occurrence.removeAll basePath.bytes basePath_ne_nil fullPath.bytes
  noNul := fun h => fullPath.noNul ((Occurrence.removeAll_sublist _ _).subset h)

section Buffers

/-- `strcpy` into a buffer of this size. -/
def strcpy (size : Nat) (source : CString) : Except Fault CString :=
  if size ≤ source.length then .error .outOfBounds else .ok source

def strcat (size : Nat) (target source : CString) : Except Fault CString :=
  strcpy size (target ++ source)

/-- `buffer[snprintf(buffer, sizeof(buffer) - 1, ...)] = 0`. -/
def snprintf (size : Nat) (text : CString) : Except Fault CString :=
  if size ≤ text.length then .error .outOfBounds else .ok (text.take (size - 2))

end Buffers

/-- `list_of_zones` and `list_of_zones_caps` up to `zone_count`, and the texts of
the command and of its help. -/
structure ZoneDb where
  zones : List CString
  zonesCaps : List CString
  cmd : CString
  help : CString

/-- Before the walk: the texts as `system_install_timezone_set_command` starts them. -/
def ZoneDb.initial : ZoneDb where
  zones := []
  zonesCaps := []
  cmd := .lit "timezone set ("
  help := .lit "Timezone information\nSets Timezone configuration\n"

/-- `populate_zone_db`. -/
def populateZoneDb (zone zoneCaps : CString) (db : ZoneDb) : Except Fault ZoneDb := do
  if maxTimezones ≤ db.zones.length then throw .outOfBounds
  let zone ← strcpy maxTimezoneNameSize zone
  let zoneCaps ← strcpy maxTimezoneNameSize zoneCaps
  return { db with zones := db.zones ++ [zone], zonesCaps := db.zonesCaps ++ [zoneCaps] }

/-- `add_info_to_cmd_options`. -/
def addInfoToCmdOptions (timezone : CString) (db : ZoneDb) : Except Fault ZoneDb := do
  let help ← strcat maxTimezonesHelpSize db.help timezone
  let help ← strcat maxTimezonesHelpSize help (.lit " Zone \n")
  let zoneCaps ← strcpy maxTimezoneNameSize timezone
  let timezone := tolower timezone
  let cmd ← strcat maxTimezoneCmdSize db.cmd timezone
  let cmd ← strcat maxTimezoneCmdSize cmd (.lit " | ")
  populateZoneDb timezone zoneCaps { db with cmd, help }

/-- The sizes of `path` and `local_dir`. -/
def pathSize : Nat := 1024
def localDirSize : Nat := 100

/-- `find_posix_timezones_and_add_to_list`. A directory whose path was cut is
opened as if it were not. -/
def findPosixTimezonesAndAddToList (name : CString) : Directory → ZoneDb → Except Fault ZoneDb
  | .nil, db => return db
  | .file entry rest, db => do
      let localDir ← snprintf localDirSize (entryPath name entry)
      let db ← addInfoToCmdOptions (removeBasePath localDir) db
      findPosixTimezonesAndAddToList name rest db
  | .directory entry entries rest, db => do
      let path ← snprintf pathSize (entryPath name entry)
      if isDots entry then findPosixTimezonesAndAddToList name rest db
      else
        let db ← findPosixTimezonesAndAddToList path entries db
        findPosixTimezonesAndAddToList name rest db

/-- `translate_cmd_to_filepath`: an index, and the zone found there. -/
def translateCmdToFilepath (db : ZoneDb) (timezoneCmd : CString) : Option (Nat × CString) :=
  (db.zones.findIdx? (streq · timezoneCmd)).bind fun index => db.zones[index]?.map (index, ·)

/-- The command of `cli_set_timezone`, on a row that holds a timezone or none: the
zone it asks for, and nothing where the command is refused. -/
def requestedZone (timezoneInfo : CString) (noFlags : Bool) :
    Option CString → Except Fault (Option CString)
  -- an unset column has no keys, and the first is read before the test for `NULL`
  | none => throw .nullPointer
  | some ovsdbTimezone => do
      let timezoneFromOvsdb := tolower (← strcpy maxTimezoneNameSize ovsdbTimezone)
      if noFlags && streq timezoneFromOvsdb timezoneInfo then return some defaultTimezone
      else if !noFlags then return some (← strcpy 500 timezoneInfo)
      else return none

/-- `cli_set_timezone`: the value it writes, and nothing where it answers
`CMD_ERR_NO_MATCH`. -/
def cliSetTimezone (db : ZoneDb) (timezoneInfo : CString) (noFlags : Bool)
    (ovsdbTimezone : Option CString) : Except Fault (Option CString) := do
  let timezoneCmd ← requestedZone timezoneInfo noFlags ovsdbTimezone
  let found := timezoneCmd.bind (translateCmdToFilepath db)
  return found.bind fun found => db.zonesCaps[found.1]?

/-- `vtysh_config_context_system_callback` on a row that holds a timezone or none:
the line it prints. -/
def vtyshConfigContextSystemCallback : Option CString → Except Fault CString
  | none => throw .nullPointer
  | some ovsdbTimezone => do
      let timezone := tolower (← strcpy 200 ovsdbTimezone)
      return .lit "timezone set " ++ timezone

end OpsSysd.Timezone
