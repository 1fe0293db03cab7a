import OpsSysd.Daemon.Description

/-! The software information of the System row, from the release file. -/
namespace OpsSysd.Daemon

open CLib Interaction Idl

/-- `NSTR`. -/
def nstr : Nat := 80

def osReleaseName : CString := .lit "NAME"
def osReleaseBuildName : CString := .lit "BUILD_ID"
def osReleaseVersionName : CString := .lit "VERSION_ID"

/-- `isspace` in the C locale. -/
def isspace (byte : UInt8) : Bool := byte = 32 || (9 ≤ byte && byte ≤ 13)

/-- What `sysd_update_sw_info` has collected. -/
structure ReleaseInfo where
  smap : Smap
  versionId : CString
  buildId : CString

def ReleaseInfo.initial : ReleaseInfo where
  smap := []
  versionId := .lit ""
  buildId := .lit ""

/-- The text before the first `=` of a line, and the text after it without its
trailing white space. -/
def splitLine (line : List UInt8) : Option (CString × CString) :=
  let text := (CString.cut line).bytes
  if '='.toNat.toUInt8 ∈ text then
    let name := text.takeWhile (· ≠ '='.toNat.toUInt8)
    let value := (text.drop (name.length + 1)).rdropWhile isspace
    some (.cut name, .cut value)
  else none

/-- The body of the loop over the lines. -/
def scanLine (osName : CString) (info : ReleaseInfo) (line : List UInt8) : ReleaseInfo :=
  match splitLine line with
  | none => info
  | some (name, value) =>
      if streq name osReleaseName && value ≠ .lit "" then
        { info with smap := info.smap.add osName value }
      else if streq name osReleaseVersionName then
        { info with versionId := value.take (nstr - 1) }
      else if streq name osReleaseBuildName then
        { info with buildId := value.take (nstr - 1) }
      else info

def scanRelease (osName : CString) (lines : List (List UInt8)) : ReleaseInfo :=
  lines.foldl (scanLine osName) .initial

/-- `%s (Build: %s)`. -/
def switchVersion (info : ReleaseInfo) : CString :=
  snprintf nstr (info.versionId ++ .lit " (Build: " ++ info.buildId ++ .lit ")")

def ReleaseInfo.HasVersion (info : ReleaseInfo) : Prop :=
  info.buildId ≠ .lit "" ∧ info.versionId ≠ .lit ""

instance (info : ReleaseInfo) : Decidable info.HasVersion :=
  inferInstanceAs (Decidable (_ ∧ _))

/-- `sysd_update_sw_info`. -/
def sysdUpdateSwInfo (config : Config) (cfg : RowId) : Program Calls Unit := do
  match ← openOsRelease with
  | none => return ()
  | some lines =>
      let info := scanRelease (config.header .systemSoftwareInfoOsName) lines
      if info.smap ≠ [] then write cfg .systemSoftwareInfo info.smap
      if info.HasVersion then write cfg .systemSwitchVersion (switchVersion info)

end OpsSysd.Daemon
