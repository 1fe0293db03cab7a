import OpsSysd.Library.Buffer
import OpsSysd.Library.Sorting

/-! `show system`. Fans and power supplies are copied into an array, sorted there
and printed. The array has as many records as the first subsystem has references,
and the copy goes over all rows of the table. -/
namespace OpsSysd.Cli

open CLib

/-- A row of the table Fan, of Power_supply, and of the others that are shown. -/
structure Fan where
  uuid : Nat
  name : CString
  speed : Option CString
  status : Option CString

structure PowerSupply where
  uuid : Nat
  name : CString
  status : Option CString

structure Led where
  id : CString
  state : Option CString
  status : Option CString

structure TempSensor where
  name : CString
  location : Option CString
  temperature : Int

/-- A row of the table Subsystem: what it refers to, and its map `other_info`. -/
structure Subsystem where
  fans : List Nat
  leds : List Nat
  powerSupplies : List Nat
  tempSensors : List Nat
  otherInfo : List (CString × CString)

/-- The content of the database, each table in the order of its iteration, of a
System row its `switch_version`. -/
structure Database where
  subsystems : List Subsystem
  systems : List (Option CString)
  fans : List Fan
  leds : List Led
  powerSupplies : List PowerSupply
  tempSensors : List TempSensor

/-- What the command gets from the outside: whether each array could be
allocated, and the C library's sort. -/
structure Environment where
  callocFans : Bool
  callocPowerSupplies : Bool
  qsort : Qsort

section Sorting

variable {Row : Type}

/-- The copy of all rows into the array, from an index on. -/
def copyRows : List Row → Nat → List (Option Row) → Option (List (Option Row))
  | [], _, array => some array
  | row :: rows, i, array =>
      if i < array.length then copyRows rows (i + 1) (array.set i (some row)) else none

/-- Allocation of `n` records, copy, sort, and the loop that prints them: the
records in the order in which they are printed, and nothing where it accesses
what is not in the array, or the name of a record that was not copied. -/
def sortRows (calloc : Bool) (qsort : Qsort) (name : Row → CString) (n : Int) (rows : List Row) :
    Option (List Row) := do
  let array ← if 0 < n && calloc then some (List.replicate n.toNat none) else none
  let filled ← copyRows rows 0 array
  let records ← filled.mapM id
  return qsort.sort (fun a b => strcmp (name a) (name b)) records

end Sorting

/-- The fans part of `cli_system_get_all`. -/
def shownFans (env : Environment) (pSys : Subsystem) (db : Database) : Option (List Fan) :=
  let n := toInt pSys.fans.length
  if n ≠ 0 then sortRows env.callocFans env.qsort Fan.name n db.fans else some []

/-- The power supplies part, which asks another question of the count. -/
def shownPowerSupplies (env : Environment) (pSys : Subsystem) (db : Database) :
    Option (List PowerSupply) :=
  let n := toInt pSys.powerSupplies.length
  if 0 < n then sortRows env.callocPowerSupplies env.qsort PowerSupply.name n db.powerSupplies
  else some []

/-- Everything the command shows. -/
structure Screen where
  /-- `other_info` and `switch_version`. -/
  system : Option (List (CString × CString) × Option CString)
  fans : List Fan
  leds : List Led
  powerSupplies : List PowerSupply
  /-- Nothing where the subsystem has no sensors. -/
  tempSensors : Option (List TempSensor)

/-- `cli_system_get_all`, and nothing where it dereferences a null pointer or
accesses what is not in an array. -/
def cliSystemGetAll (env : Environment) (db : Database) : Option Screen := do
  let pVswitch := db.systems.head?
  let system := db.subsystems.head?.bind fun pSys => pVswitch.map (pSys.otherInfo, ·)
  -- without a subsystem an error is logged, and `pSys` is used all the same
  let pSys ← db.subsystems.head?
  let fans ← shownFans env pSys db
  let leds := if toInt pSys.leds.length ≠ 0 then db.leds else []
  let powerSupplies ← shownPowerSupplies env pSys db
  let tempSensors := if toInt pSys.tempSensors.length ≠ 0 then some db.tempSensors else none
  return { system, fans, leds, powerSupplies, tempSensors }

section Text

def spaces (count : Nat) : CString := ⟨List.replicate count 32, by simp [List.mem_replicate]⟩

/-- `%-10s` and the like. -/
def column (width : Nat) (text : CString) : CString := text ++ spaces (width - text.length)

/-- A string column without a value is a null pointer, which the C library prints so. -/
def pointerColumn (width : Nat) (text : Option CString) : CString :=
  column width (text.getD (.lit "(null)"))

def concat : List CString → CString
  | [] => .empty
  | text :: texts => text ++ concat texts

/-- What comes from generated headers, from the session and from the conversion
of a floating-point number. -/
structure Terminal where
  /-- `VTY_NEWLINE`. -/
  newline : CString
  /-- The statuses of a power supply that `format_psu_string` replaces. -/
  powerSupplyStatuses : List (CString × CString)
  /-- `%3.2f` of a whole number. -/
  reading : Int → CString

/-- One line of `format_sys_output`: how it is labelled, which key it shows, how
wide, and what follows. -/
structure InfoLine where
  label : CString
  key : CString
  width : Nat
  unit : CString
  newlines : Nat

def infoLines : List InfoLine :=
  [⟨.lit "Product Name", .lit "Product Name", 30, .lit "", 2⟩,
    ⟨.lit "Vendor", .lit "vendor", 30, .lit "", 1⟩,
    ⟨.lit "Platform", .lit "platform_name", 30, .lit "", 1⟩,
    ⟨.lit "Manufacturer", .lit "manufacturer", 20, .lit "", 1⟩,
    ⟨.lit "Manufacturer Date", .lit "manufacture_date", 20, .lit "", 2⟩,
    ⟨.lit "Serial Number", .lit "serial_number", 20, .lit "", 0⟩,
    ⟨.lit "Label Revision", .lit "label_revision", 10, .lit "", 2⟩,
    ⟨.lit "ONIE Version", .lit "onie_version", 20, .lit "", 0⟩,
    ⟨.lit "DIAG Version", .lit "diag_version", 10, .lit "", 1⟩,
    ⟨.lit "Base MAC Address", .lit "base_mac_address", 20, .lit "", 0⟩,
    ⟨.lit "Number of MACs", .lit "number_of_macs", 5, .lit "", 1⟩,
    ⟨.lit "Interface Count", .lit "interface_count", 20, .lit "", 0⟩,
    ⟨.lit "Max Interface Speed", .lit "max_interface_speed", 6, .lit "Mbps", 1⟩]

variable (terminal : Terminal)

def newlines (count : Nat) : CString := concat (List.replicate count terminal.newline)

def infoText (label : CString) (width : Nat) (value : Option CString) (unit : CString)
    (count : Nat) : CString :=
  column 20 label ++ .lit ": " ++ column width (value.getD (.lit " ")) ++ unit ++
    newlines terminal count

/-- `format_sys_output`. -/
def formatSysOutput (otherInfo : List (CString × CString)) (switchVersion : Option CString) : CString :=
  infoText terminal (.lit "OpenSwitch Version") 30 switchVersion (.lit "") 1 ++
    concat (infoLines.map fun line => infoText terminal line.label line.width
      ((otherInfo.find? fun entry => streq entry.1 line.key).map Prod.snd) line.unit line.newlines)

/-- `format_psu_string`. -/
def formatPsuString (status : Option CString) : Option CString :=
  status.map fun status =>
    ((terminal.powerSupplyStatuses.find? fun entry => streq status entry.1).map Prod.snd).getD status

def fanText (fan : Fan) : CString :=
  column 15 fan.name ++ pointerColumn 10 fan.speed ++ pointerColumn 10 fan.status ++ terminal.newline

def ledText (led : Led) : CString :=
  column 10 led.id ++ pointerColumn 10 led.state ++ pointerColumn 8 led.status ++ terminal.newline

def powerSupplyText (powerSupply : PowerSupply) : CString :=
  column 15 powerSupply.name ++ pointerColumn 10 (formatPsuString terminal powerSupply.status) ++
    terminal.newline

def tempSensorText (sensor : TempSensor) : CString :=
  pointerColumn 50 sensor.location ++ column 10 sensor.name ++
    terminal.reading (sensor.temperature.tdiv 1000) ++ terminal.newline

/-- A section's title, and the heads of its columns over a rule. -/
def title (text : CString) : CString := terminal.newline ++ text ++ newlines terminal 2

def heads (columns : List (Nat × CString)) (rule : CString) : CString :=
  concat (columns.map fun head => column head.1 head.2) ++ terminal.newline ++ rule ++ terminal.newline

/-- What is printed of a screen. -/
def Screen.text (screen : Screen) : CString :=
  (screen.system.elim (.lit "") fun system => formatSysOutput terminal system.1 system.2) ++
    title terminal (.lit "Fan details:") ++
    heads terminal [(15, .lit "Name"), (10, .lit "Speed"), (10, .lit "Status")]
      (.lit "--------------------------------") ++
    concat (screen.fans.map (fanText terminal)) ++
    title terminal (.lit "LED details:") ++
    heads terminal [(10, .lit "Name"), (10, .lit "State"), (8, .lit "Status")]
      (.lit "-------------------------") ++
    concat (screen.leds.map (ledText terminal)) ++
    title terminal (.lit "Power supply details:") ++
    heads terminal [(10, .lit "Name"), (10, .lit "Status")] (.lit "-----------------------") ++
    concat (screen.powerSupplies.map (powerSupplyText terminal)) ++
    title terminal (.lit "Temperature Sensors:") ++
    match screen.tempSensors with
    | some sensors =>
        heads terminal [(50, .lit "Location"), (10, .lit "Name"), (18, .lit "Reading(celsius)")]
          (.lit "---------------------------------------------------------------------------") ++
          concat (sensors.map (tempSensorText terminal))
    | none =>
        heads terminal [(10, .lit "Location"), (10, .lit "Name"), (18, .lit "Reading(celsius)")]
          (.lit "------------------------------------")

/-- `cli_platform_show_system`. -/
def cliPlatformShowSystem (env : Environment) (db : Database) : Option CString :=
  (cliSystemGetAll env db).map (Screen.text terminal)

end Text

section Arrays

variable {Row : Type}

/-- The copy succeeds where the rows fit behind what is copied already. -/
theorem copyRows_eq (rows : List Row) (done rest : List (Option Row)) :
    copyRows rows done.length (done ++ rest) =
      if rows.length ≤ rest.length then some (done ++ (rows.map some ++ rest.drop rows.length))
      else none := by
  induction rows generalizing done rest with
  | nil => simp [copyRows]
  | cons row rows ih =>
      rw [copyRows]
      cases rest with
      | nil => simp
      | cons old rest =>
          have hSet : (done ++ old :: rest).set done.length (some row) =
              (done ++ [some row]) ++ rest := by
            simp
          have hNext := ih (done ++ [some row]) rest
          rw [List.length_append, List.length_singleton] at hNext
          rw [if_pos (by simp), hSet, hNext]
          simp

/-- A record that nothing was copied into has no name. -/
theorem mapM_filled (rows : List Row) (count : Nat) :
    (rows.map some ++ List.replicate count none).mapM id =
      if count = 0 then some rows else none := by
  induction rows with
  | nil => cases count <;> rfl
  | cons row rows ih =>
      rw [List.map_cons, List.cons_append, List.mapM_cons, ih]
      cases count <;> rfl

/-- The array is sorted and printed exactly where it has room for every row and a
row for every record. -/
theorem sortRows_eq_some {calloc : Bool} {qsort : Qsort} {name : Row → CString} {n : Int}
    {rows shown : List Row} :
    sortRows calloc qsort name n rows = some shown ↔
      0 < n ∧ calloc = true ∧ (rows.length : Int) = n ∧
        qsort.sort (fun a b => strcmp (name a) (name b)) rows = shown := by
  by_cases hAlloc : 0 < n ∧ calloc = true
  · have hGuard : (decide (0 < n) && calloc) = true := by simpa using hAlloc
    have hCopy := copyRows_eq rows [] (List.replicate n.toNat none)
    rw [List.nil_append, List.length_nil, List.nil_append, List.length_replicate,
      List.drop_replicate] at hCopy
    simp only [sortRows, hGuard, if_true, Option.bind_eq_bind, Option.bind_some, hCopy]
    by_cases hFits : rows.length ≤ n.toNat
    · simp only [if_pos hFits, Option.bind_some, mapM_filled]
      by_cases hFilled : n.toNat - rows.length = 0
      · have hSame : (rows.length : Int) = n := by omega
        rw [if_pos hFilled]
        simp [hAlloc, hSame]
      · have hDiffer : (rows.length : Int) ≠ n := by omega
        rw [if_neg hFilled]
        simp [hDiffer]
    · have hDiffer : (rows.length : Int) ≠ n := by omega
      rw [if_neg hFits]
      simp [hDiffer]
  · have hGuard : (decide (0 < n) && calloc) = false := by simpa using hAlloc
    rw [sortRows, hGuard, if_neg (by simp)]
    simp only [Option.bind_eq_bind, Option.bind_none, reduceCtorEq, false_iff]
    exact fun h => hAlloc ⟨h.1, h.2.1⟩

/-- The rows shown are those referred to, each once, in the order of their names. -/
structure Listed (name : Row → CString) (uuid : Row → Nat) (refs : List Nat) (rows shown : List Row) :
    Prop where
  fromTable : shown ⊆ rows
  referenced : (shown.map uuid).Perm refs
  ascending : shown.Pairwise fun a b => (name a).Le (name b)

/-- The subsystem refers to nothing, or to every row of the table and nothing
else, few enough for an `int`, and the array can be had. -/
def Settled (calloc : Bool) (uuid : Row → Nat) (refs : List Nat) (rows : List Row) : Prop :=
  refs = [] ∨ (calloc = true ∧ refs.length < 2 ^ 31 ∧ (rows.map uuid).Perm refs)

variable {calloc : Bool} {qsort : Qsort} {name : Row → CString} {uuid : Row → Nat} {refs : List Nat}
  {rows : List Row} {part : Option (List Row)}

theorem settled_of_listed
    (hSort : 0 < toInt refs.length → part = sortRows calloc qsort name (toInt refs.length) rows)
    (hNone : toInt refs.length ≤ 0 → ∀ shown, part = some shown → shown = []) {shown : List Row}
    (hPart : part = some shown) (hListed : Listed name uuid refs rows shown) :
    Settled calloc uuid refs rows := by
  by_cases hPositive : 0 < toInt refs.length
  · rw [hSort hPositive, sortRows_eq_some] at hPart
    obtain ⟨-, hCalloc, hLength, rfl⟩ := hPart
    have hPerm := ((qsort.perm _ rows).map uuid).symm.trans hListed.referenced
    have hSame : rows.length = refs.length := by
      rw [← hPerm.length_eq, List.length_map]
    have hSmall : refs.length < 2 ^ 31 := by
      rcases Nat.lt_or_ge refs.length (2 ^ 31) with hLess | hMore
      · exact hLess
      · have hFar := toInt_of_le hMore
        omega
    exact .inr ⟨hCalloc, hSmall, hPerm⟩
  · have hEmpty := hNone (Int.not_lt.mp hPositive) shown hPart
    have hRefs := hListed.referenced
    rw [hEmpty, List.map_nil, List.nil_perm] at hRefs
    exact .inl hRefs

theorem listed_of_settled
    (hSort : 0 < toInt refs.length → part = sortRows calloc qsort name (toInt refs.length) rows)
    (hZero : toInt refs.length = 0 → part = some []) (hSettled : Settled calloc uuid refs rows) :
    ∃ shown, part = some shown ∧ Listed name uuid refs rows shown := by
  by_cases hRefs : refs = []
  · refine ⟨[], hZero ?_, List.nil_subset _, ?_, List.Pairwise.nil⟩
    · rw [hRefs]
      rfl
    · rw [hRefs, List.map_nil]
  · obtain ⟨hCalloc, hSmall, hPerm⟩ := hSettled.resolve_left hRefs
    have hLength := hPerm.length_eq
    rw [List.length_map] at hLength
    have hFilled := List.length_pos_iff.mpr hRefs
    have hCount := toInt_of_lt hSmall
    have hPositive : 0 < toInt refs.length := by omega
    have hSorted := (@sortRows_eq_some _ calloc qsort name _ rows _).mpr
      ⟨hPositive, hCalloc, by omega, rfl⟩
    refine ⟨_, (hSort hPositive).trans hSorted, ?_, ?_, qsort.ascending name rows⟩
    · exact (qsort.perm _ rows).subset
    · exact ((qsort.perm _ rows).map uuid).trans hPerm

end Arrays

section Command

variable (env : Environment) (db : Database)

/-- The command shows the fans and the power supplies of the first subsystem as it should. -/
def ShowsReferenced : Prop :=
  ∃ pSys screen, db.subsystems.head? = some pSys ∧ cliSystemGetAll env db = some screen ∧
    Listed Fan.name Fan.uuid pSys.fans db.fans screen.fans ∧
    Listed PowerSupply.name PowerSupply.uuid pSys.powerSupplies db.powerSupplies screen.powerSupplies

variable {env db} {pSys : Subsystem}

theorem shownFans_none (h : toInt pSys.fans.length ≤ 0) (shown : List Fan)
    (hShown : shownFans env pSys db = some shown) : shown = [] := by
  by_cases hZero : toInt pSys.fans.length = 0
  · rw [shownFans, if_neg (not_not.mpr hZero)] at hShown
    cases hShown
    rfl
  · rw [shownFans, if_pos hZero, sortRows_eq_some] at hShown
    exact absurd hShown.1 (Int.not_lt.mpr h)

theorem shownPowerSupplies_none (h : toInt pSys.powerSupplies.length ≤ 0) (shown : List PowerSupply)
    (hShown : shownPowerSupplies env pSys db = some shown) : shown = [] := by
  rw [shownPowerSupplies, if_neg (Int.not_lt.mpr h)] at hShown
  cases hShown
  rfl

/-- The two parts decide whether there is a screen, and what it shows of them. -/
theorem cliSystemGetAll_eq_some (hSys : db.subsystems.head? = some pSys) {screen : Screen}
    (h : cliSystemGetAll env db = some screen) :
    shownFans env pSys db = some screen.fans ∧
      shownPowerSupplies env pSys db = some screen.powerSupplies := by
  simp only [cliSystemGetAll, hSys, Option.bind_eq_bind, Option.bind_some, Option.pure_def,
    Option.bind_eq_some_iff, Option.some.injEq] at h
  obtain ⟨fans, hFans, powerSupplies, hSupplies, rfl⟩ := h
  exact ⟨hFans, hSupplies⟩

theorem cliSystemGetAll_of_parts (hSys : db.subsystems.head? = some pSys) {fans : List Fan}
    {powerSupplies : List PowerSupply} (hFans : shownFans env pSys db = some fans)
    (hSupplies : shownPowerSupplies env pSys db = some powerSupplies) :
    ∃ screen, cliSystemGetAll env db = some screen ∧ screen.fans = fans ∧
      screen.powerSupplies = powerSupplies := by
  simp only [cliSystemGetAll, hSys, hFans, hSupplies, Option.bind_eq_bind, Option.bind_some,
    Option.pure_def]
  exact ⟨_, rfl, rfl, rfl⟩

/-- The command is right exactly where there is a subsystem and both tables are
settled with it. -/
theorem showsReferenced_iff (env : Environment) (db : Database) :
    ShowsReferenced env db ↔ ∃ pSys, db.subsystems.head? = some pSys ∧
      Settled env.callocFans Fan.uuid pSys.fans db.fans ∧
      Settled env.callocPowerSupplies PowerSupply.uuid pSys.powerSupplies db.powerSupplies := by
  have hFansSort (pSys : Subsystem) (hPositive : 0 < toInt pSys.fans.length) :
      shownFans env pSys db =
        sortRows env.callocFans env.qsort Fan.name (toInt pSys.fans.length) db.fans :=
    if_pos (Int.ne_of_gt hPositive)
  have hSuppliesSort (pSys : Subsystem) (hPositive : 0 < toInt pSys.powerSupplies.length) :
      shownPowerSupplies env pSys db = sortRows env.callocPowerSupplies env.qsort PowerSupply.name
        (toInt pSys.powerSupplies.length) db.powerSupplies := if_pos hPositive
  constructor
  · intro hShows
    obtain ⟨pSys, screen, hSys, hScreen, hFans, hSupplies⟩ := hShows
    obtain ⟨hFansPart, hSuppliesPart⟩ := cliSystemGetAll_eq_some hSys hScreen
    refine ⟨pSys, hSys, ?_, ?_⟩
    · exact settled_of_listed (hFansSort pSys) shownFans_none hFansPart hFans
    · exact settled_of_listed (hSuppliesSort pSys) shownPowerSupplies_none hSuppliesPart hSupplies
  · intro hSettled
    obtain ⟨pSys, hSys, hFans, hSupplies⟩ := hSettled
    obtain ⟨fans, hFansPart, hFansListed⟩ := listed_of_settled (hFansSort pSys)
      (fun hZero => if_neg (not_not.mpr hZero)) hFans
    obtain ⟨supplies, hSuppliesPart, hSuppliesListed⟩ := listed_of_settled (hSuppliesSort pSys)
      (fun hZero => if_neg (Int.not_lt.mpr (Int.le_of_eq hZero))) hSupplies
    obtain ⟨screen, hScreen, rfl, rfl⟩ :=
      cliSystemGetAll_of_parts hSys hFansPart hSuppliesPart
    exact ⟨pSys, screen, hSys, hScreen, hFansListed, hSuppliesListed⟩

/-- Two subsystems, each with a fan of its own. -/
def twoSubsystems : Database where
  subsystems := [⟨[1], [], [], [], []⟩, ⟨[2], [], [], [], []⟩]
  systems := [none]
  fans := [⟨1, .lit "base-1L", none, none⟩, ⟨2, .lit "card-1L", none, none⟩]
  leds := []
  powerSupplies := []
  tempSensors := []

/-- The second fan is copied behind the array that has room for one. -/
theorem second_fan_overruns : ¬ ShowsReferenced ⟨true, true, .stable⟩ twoSubsystems := by
  intro hShows
  obtain ⟨pSys, screen, hSys, hScreen, -, -⟩ := hShows
  cases hSys
  have hFans := (cliSystemGetAll_eq_some rfl hScreen).1
  rw [shownFans, if_pos (by decide), sortRows_eq_some] at hFans
  exact absurd hFans.2.2.1 (by decide)

end Command
end OpsSysd.Cli
