import OpsSysd.Idl.Session

/-! Filling the Package_Info table from `version_detail.yaml`. -/
namespace OpsSysd.Daemon

open CLib Interaction Idl

/-- `PKG_INFO_ENTRIES_PER_COMMIT`. -/
def pkgInfoEntriesPerCommit : Nat := 2000

/-- The key words of a record, and `VALUE` for anything else. -/
inductive Key where
  | value | pkg | pv | srcRev | srcUrl | type
  deriving DecidableEq

/-- `keystr_pkg_info`. -/
def Key.str : Key → CString
  | .value => .lit "values"
  | .pkg => .lit "PKG"
  | .pv => .lit "PV"
  | .srcRev => .lit "SRCREV"
  | .srcUrl => .lit "SRC_URL"
  | .type => .lit "TYPE"

/-- `package_info_mapping_check_key`. -/
def packageInfoMappingCheckKey (data : CString) : Key :=
  ([.pkg, .pv, .srcRev, .srcUrl, .type].find? fun key => streq key.str data).getD .value

/-- The local variables of `sysd_add_package_info`. -/
structure PackageParser where
  currentState : Key
  recordCount : Nat
  row : Option RowId
  txn : Option TxnId

def PackageParser.initial : PackageParser where
  currentState := .value
  recordCount := 0
  row := none
  txn := none

/-- A column of the current row is set. -/
def setColumn (set : RowId → Program Calls Unit) (parser : PackageParser) :
    Program Calls (Option PackageParser) := do
  let row ← orFault parser.row
  set row
  return some parser

/-- The start of a record, once its transaction is there. -/
def insertPackage (value : CString) (txn : TxnId) (parser : PackageParser) :
    Program Calls (Option PackageParser) := do
  match ← tryInsertRow txn .packageInfo with
  | none =>
      txnDestroy txn
      return none
  | some row =>
      write row .packageInfoName value
      return some { parser with row := some row }

/-- `case PKG` for a value. -/
def beginRecord (value : CString) (parser : PackageParser) :
    Program Calls (Option PackageParser) := do
  if parser.recordCount % pkgInfoEntriesPerCommit = 0 then
    let txn ← txnCreate
    insertPackage value txn { parser with txn := some txn }
  else
    let txn ← orFault parser.txn
    insertPackage value txn parser

/-- `case TYPE` for a value: the end of a record, and possibly of a batch. -/
def endRecord (value : CString) (parser : PackageParser) :
    Program Calls (Option PackageParser) := do
  let recordCount := parser.recordCount + 1
  let row ← orFault parser.row
  write row .packageInfoSrcType value
  if recordCount % pkgInfoEntriesPerCommit = 0 then
    let txn ← orFault parser.txn
    let _ ← commitBlock txn
    txnDestroy txn
    return some { parser with recordCount, txn := none }
  else
    return some { parser with recordCount }

/-- The switch on `current_state` for a scalar that is no key word; `none` is an
early return. -/
def handleValue (value : CString) (parser : PackageParser) :
    Program Calls (Option PackageParser) :=
  match parser.currentState with
  | .value => return some parser
  | .pkg => beginRecord value parser
  | .pv => setColumn (write · .packageInfoVersion value) parser
  | .srcRev =>
      if streq value (.lit "INVALID") then return some parser
      else setColumn (write · .packageInfoVersion value) parser
  | .srcUrl => setColumn (write · .packageInfoSrcUrl value) parser
  | .type => endRecord value parser

/-- The switch on the kind of a scalar. -/
def handleScalar (value : CString) (parser : PackageParser) :
    Program Calls (Option PackageParser) :=
  match packageInfoMappingCheckKey value with
  | .value => handleValue value parser
  | key => return some { parser with currentState := key }

/-- Go on unless the function has returned. -/
def unlessReturned (next : PackageParser → Program Calls (Option PackageParser)) :
    Option PackageParser → Program Calls (Option PackageParser)
  | none => return none
  | some parser => next parser

/-- The event loop, which ends at the end of the stream or when the parser
fails, here at the end of the list. -/
def parseEvents : List YamlEvent → PackageParser → Program Calls (Option PackageParser)
  | [], parser => return some parser
  | .streamEnd :: _, parser => return some parser
  | .other :: rest, parser => parseEvents rest parser
  | .scalar value :: rest, parser =>
      handleScalar value parser >>= unlessReturned (parseEvents rest)

/-- The commit of the last batch, unless the function has returned. -/
def commitLastBatch : Option PackageParser → Program Calls Unit
  | none => return ()
  | some parser =>
      match parser.txn with
      | none => return ()
      | some txn => do
          let _ ← commitBlock txn
          txnDestroy txn

/-- `sysd_add_package_info`. -/
def sysdAddPackageInfo : Program Calls Unit := do
  match ← openVersionDetail with
  | none => return ()
  | some events => parseEvents events .initial >>= commitLastBatch

end OpsSysd.Daemon
