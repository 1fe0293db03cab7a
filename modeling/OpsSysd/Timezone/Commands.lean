import OpsSysd.Timezone.Walk

/-! The two commands of the CLI that change the timezone, one after the other, and
the law they are to keep: the set form selects a zone of the list, the no form goes
back to the default from the zone that is named, and anything else is refused. -/
namespace OpsSysd.Timezone

open CLib Idl

inductive Command where
  | set (timezoneInfo : CString)
  | setNoForm (timezoneInfo : CString)

/-- `CMD_SUCCESS` and `CMD_ERR_NO_MATCH`. -/
inductive CommandResult where
  | success | errNoMatch
  deriving DecidableEq

/-- `cli_platform_timezone_set`. -/
def cliPlatformTimezoneSet (db : ZoneDb) (timezoneInfo : CString) (ovsdbTimezone : Option CString) :
    Except Fault (Option CString) :=
  cliSetTimezone db timezoneInfo false ovsdbTimezone

/-- `cli_platform_timezone_set_no_form`. -/
def cliPlatformTimezoneSetNoForm (db : ZoneDb) (timezoneInfo : CString)
    (ovsdbTimezone : Option CString) : Except Fault (Option CString) :=
  cliSetTimezone db timezoneInfo true ovsdbTimezone

/-- The value that a command writes. -/
def Command.written (db : ZoneDb) : Command → Option CString → Except Fault (Option CString)
  | .set timezoneInfo => cliPlatformTimezoneSet db timezoneInfo
  | .setNoForm timezoneInfo => cliPlatformTimezoneSetNoForm db timezoneInfo

/-- A command whose transaction commits: its answer, and the timezone afterwards.
Where it is refused the transaction is aborted. -/
def perform (db : ZoneDb) (command : Command) (current : Option CString) :
    Except Fault (CommandResult × Option CString) := do
  match ← command.written db current with
  | some value => return (.success, some value)
  | none => return (.errNoMatch, current)

/-- A zone of the list, and the entry for it. -/
def Entry (db : ZoneDb) (zone value : CString) : Prop :=
  ∃ index : Nat, db.zones[index]? = some zone ∧ db.zonesCaps[index]? = some value

/-- The timezone that a command is to make the current one. -/
def Asks (db : ZoneDb) : Command → Option CString → CString → Prop
  | .set zone, _, value => Entry db zone value
  | .setNoForm zone, current, value =>
      current.map tolower = some zone ∧ Entry db defaultTimezone value

/-- A command does what it is to do, or reports that there is nothing to be done
and leaves the timezone as it was. -/
structure CommandLaw (db : ZoneDb) (command : Command) (current : Option CString) : Prop where
  granted : (∃ value, Asks db command current value) →
    ∃ value, Asks db command current value ∧ perform db command current = .ok (.success, some value)
  refused : (∀ value, ¬ Asks db command current value) →
    perform db command current = .ok (.errNoMatch, current)

/-- Every command of a sequence keeps the law, on the timezone that the ones before
it have left. -/
def CommandsLawful (db : ZoneDb) : Option CString → List Command → Prop
  | _, [] => True
  | current, command :: commands => CommandLaw db command current ∧
      ∀ result after, perform db command current = .ok (result, after) →
        CommandsLawful db after commands

/-- The lower-cased names belong to the others, which fit the array they are in. -/
structure ZoneDb.Consistent (db : ZoneDb) : Prop where
  zones : db.zones = db.zonesCaps.map tolower
  sizes : ∀ value ∈ db.zonesCaps, value.length < maxTimezoneNameSize

/-- The size of `timezone_cmd` in `cli_set_timezone`. -/
def cliTimezoneCmdSize : Nat := 500

/-- What the set forms are given can be copied. -/
def ArgumentsFit (commands : List Command) : Prop :=
  ∀ zone, .set zone ∈ commands → zone.length < cliTimezoneCmdSize

/-- There is no command, or a timezone to start from that can be copied, like all
arguments. -/
def CommandsFit (prior : Option CString) (commands : List Command) : Prop :=
  commands = [] ∨
    (∃ timezone, prior = some timezone ∧ timezone.length < maxTimezoneNameSize) ∧ ArgumentsFit commands

section Lookup

variable {db : ZoneDb} {zone value : CString}

/-- What `cli_set_timezone` writes for a zone. -/
def lookupEntry (db : ZoneDb) (zone : CString) : Option CString :=
  (translateCmdToFilepath db zone).bind fun found => db.zonesCaps[found.1]?

theorem Entry.mem (h : Entry db zone value) : zone ∈ db.zones := by
  obtain ⟨index, hZone, -⟩ := h
  exact List.mem_of_getElem? hZone

theorem Entry.mem_caps (h : Entry db zone value) : value ∈ db.zonesCaps := by
  obtain ⟨index, -, hValue⟩ := h
  exact List.mem_of_getElem? hValue

/-- A zone that is not in the list has no entry. -/
theorem lookupEntry_of_not_mem (hZone : zone ∉ db.zones) : lookupEntry db zone = none := by
  have hNone : db.zones.findIdx? (streq · zone) = none := by
    rw [List.findIdx?_eq_none_iff]
    intro other hOther
    simp only [streq, decide_eq_false_iff_not]
    rintro rfl
    exact hZone hOther
  rw [lookupEntry, translateCmdToFilepath, hNone]
  rfl

/-- One that is has the entry for it. -/
theorem exists_lookupEntry (hDb : db.Consistent) (hZone : zone ∈ db.zones) :
    ∃ value, lookupEntry db zone = some value ∧ Entry db zone value := by
  have hSome : (db.zones.findIdx? (streq · zone)).isSome := by
    rw [List.findIdx?_isSome, List.any_eq_true]
    exact ⟨zone, hZone, (streq_iff _ _).mpr rfl⟩
  obtain ⟨index, hIndex⟩ := Option.isSome_iff_exists.mp hSome
  obtain ⟨hLess, hSame, -⟩ := List.findIdx?_eq_some_iff_getElem.mp hIndex
  have hFound : db.zones[index]? = some zone := by
    rw [List.getElem?_eq_getElem hLess, (streq_iff _ _).mp hSame]
  have hCaps : index < db.zonesCaps.length := by rwa [hDb.zones, List.length_map] at hLess
  refine ⟨db.zonesCaps[index], ?_, index, hFound, List.getElem?_eq_getElem hCaps⟩
  rw [lookupEntry, translateCmdToFilepath, hIndex, Option.bind_some, hFound]
  exact List.getElem?_eq_getElem hCaps

end Lookup

section Perform

variable {db : ZoneDb} {zone current : CString} {command : Command}

/-- What is done with a written value, or without one. -/
def answer (current : Option CString) : Option CString → CommandResult × Option CString
  | some value => (.success, some value)
  | none => (.errNoMatch, current)

/-- A command answers by what it has written. -/
theorem perform_of_written {prior value : Option CString} (h : command.written db prior = .ok value) :
    perform db command prior = .ok (answer prior value) := by
  rw [perform, h]
  cases value with
  | none => rfl
  | some value => rfl

/-- The set form looks up its argument. -/
theorem written_set (hCurrent : current.length < maxTimezoneNameSize)
    (hZone : zone.length < cliTimezoneCmdSize) :
    (Command.set zone).written db (some current) = .ok (lookupEntry db zone) := by
  have hAsked : requestedZone zone false (some current) = .ok (some zone) := by
    rw [requestedZone, strcpy_fits hCurrent, ok_bind]
    exact congrArg (Except.map some) (strcpy_fits hZone)
  rw [Command.written, cliPlatformTimezoneSet, cliSetTimezone, hAsked]
  rfl

/-- The no form looks up the default, if its argument is the current zone. -/
theorem written_setNoForm (hCurrent : current.length < maxTimezoneNameSize) :
    (Command.setNoForm zone).written db (some current) =
      .ok (if tolower current = zone then lookupEntry db defaultTimezone else none) := by
  have hAsked : requestedZone zone true (some current) =
      .ok (if tolower current = zone then some defaultTimezone else none) := by
    rw [requestedZone, strcpy_fits hCurrent, ok_bind]
    simp only [Bool.true_and, streq_iff, Bool.not_true, Bool.false_eq_true, if_false]
    by_cases hSame : tolower current = zone
    · rw [if_pos hSame, if_pos hSame]
      rfl
    · rw [if_neg hSame, if_neg hSame]
      rfl
  rw [Command.written, cliPlatformTimezoneSetNoForm, cliSetTimezone, hAsked, ok_bind]
  by_cases hSame : tolower current = zone
  · rw [if_pos hSame, if_pos hSame]
    rfl
  · rw [if_neg hSame, if_neg hSame]
    rfl

/-- Without a current timezone every command crashes. -/
theorem perform_none : perform db command none = .error .nullPointer := by
  cases command with
  | set zone => rfl
  | setNoForm zone => rfl

theorem strcpy_error {size : Nat} {text : CString} (h : size ≤ text.length) :
    strcpy size text = .error .outOfBounds := if_pos h

theorem perform_long_current (hCurrent : maxTimezoneNameSize ≤ current.length) :
    perform db command (some current) = .error .outOfBounds := by
  have hAsked (noFlags : Bool) (zone : CString) :
      cliSetTimezone db zone noFlags (some current) = .error .outOfBounds := by
    rw [cliSetTimezone, requestedZone, strcpy_error hCurrent]
    rfl
  cases command with
  | set zone => rw [perform, Command.written, cliPlatformTimezoneSet, hAsked]; rfl
  | setNoForm zone => rw [perform, Command.written, cliPlatformTimezoneSetNoForm, hAsked]; rfl

theorem perform_long_argument (hCurrent : current.length < maxTimezoneNameSize)
    (hZone : cliTimezoneCmdSize ≤ zone.length) :
    perform db (.set zone) (some current) = .error .outOfBounds := by
  have hAsked : requestedZone zone false (some current) = .error .outOfBounds := by
    rw [requestedZone, strcpy_fits hCurrent, ok_bind]
    exact congrArg (Except.map some) (strcpy_error hZone)
  rw [perform, Command.written, cliPlatformTimezoneSet, cliSetTimezone, hAsked]
  rfl

end Perform

section Law

variable {db : ZoneDb} {zone current : CString} {command : Command} {commands : List Command}

/-- A command that keeps the law comes to its end. -/
theorem CommandLaw.performs {prior : Option CString} (law : CommandLaw db command prior) :
    ∃ result after, perform db command prior = .ok (result, after) := by
  by_cases hAsks : ∃ value, Asks db command prior value
  · obtain ⟨value, -, hPerform⟩ := law.granted hAsks
    exact ⟨_, _, hPerform⟩
  · exact ⟨_, _, law.refused fun value h => hAsks ⟨value, h⟩⟩

theorem commandLaw_of_written {prior : Option CString}
    (hGranted : (∃ value, Asks db command prior value) →
      ∃ value, Asks db command prior value ∧ command.written db prior = .ok (some value))
    (hRefused : (∀ value, ¬ Asks db command prior value) → command.written db prior = .ok none) :
    CommandLaw db command prior where
  granted hAsks := by
    obtain ⟨value, hValue, hWritten⟩ := hGranted hAsks
    exact ⟨value, hValue, perform_of_written hWritten⟩
  refused hNone := perform_of_written (hRefused hNone)

/-- From a timezone that can be copied, the commands keep the law. -/
theorem commandLaw_some (hDb : db.Consistent) (hCurrent : current.length < maxTimezoneNameSize)
    (hArgument : ∀ zone, command = .set zone → zone.length < cliTimezoneCmdSize) :
    CommandLaw db command (some current) := by
  cases command with
  | set zone =>
      have hWritten := @written_set db zone current hCurrent (hArgument zone rfl)
      refine commandLaw_of_written (fun ⟨_, hEntry⟩ => ?_) fun hNone => ?_
      · obtain ⟨value, hLookup, hValue⟩ := exists_lookupEntry hDb hEntry.mem
        exact ⟨value, hValue, hLookup ▸ hWritten⟩
      · rw [hWritten, lookupEntry_of_not_mem]
        intro hMem
        obtain ⟨value, -, hValue⟩ := exists_lookupEntry hDb hMem
        exact hNone value hValue
  | setNoForm zone =>
      have hWritten := @written_setNoForm db zone current hCurrent
      refine commandLaw_of_written (fun ⟨_, hSame, hEntry⟩ => ?_) fun hNone => ?_
      · obtain ⟨value, hLookup, hValue⟩ := exists_lookupEntry hDb hEntry.mem
        refine ⟨value, ⟨hSame, hValue⟩, ?_⟩
        rw [hWritten, if_pos (Option.some.inj hSame), hLookup]
      · rw [hWritten]
        by_cases hSame : tolower current = zone
        · rw [if_pos hSame, lookupEntry_of_not_mem]
          intro hMem
          obtain ⟨value, -, hValue⟩ := exists_lookupEntry hDb hMem
          exact hNone value ⟨congrArg some hSame, hValue⟩
        · rw [if_neg hSame]

theorem commandLaw_some_iff (hDb : db.Consistent) :
    CommandLaw db command (some current) ↔ current.length < maxTimezoneNameSize ∧
      ∀ zone, command = .set zone → zone.length < cliTimezoneCmdSize := by
  refine ⟨fun law => ?_, fun h => commandLaw_some hDb h.1 h.2⟩
  obtain ⟨result, after, hPerform⟩ := law.performs
  have hCurrent : current.length < maxTimezoneNameSize := by
    by_contra hLong
    rw [perform_long_current (Nat.le_of_not_lt hLong)] at hPerform
    exact nomatch hPerform
  refine ⟨hCurrent, ?_⟩
  rintro zone rfl
  by_contra hLong
  rw [perform_long_argument hCurrent (Nat.le_of_not_lt hLong)] at hPerform
  exact nomatch hPerform

/-- After a command there is a timezone that can be copied, if there was one before. -/
theorem length_of_perform {after : Option CString} {result : CommandResult}
    (hDb : db.Consistent) (law : CommandLaw db command (some current))
    (hCurrent : current.length < maxTimezoneNameSize)
    (hPerform : perform db command (some current) = .ok (result, after)) :
    ∃ timezone, after = some timezone ∧ timezone.length < maxTimezoneNameSize := by
  by_cases hAsks : ∃ value, Asks db command (some current) value
  · obtain ⟨value, hValue, hSuccess⟩ := law.granted hAsks
    rw [hPerform] at hSuccess
    obtain ⟨-, rfl⟩ : result = .success ∧ after = some value := by simpa using hSuccess
    refine ⟨value, rfl, hDb.sizes value ?_⟩
    cases command with
    | set zone => exact Entry.mem_caps hValue
    | setNoForm zone => exact hValue.2.mem_caps
  · have hRefused := law.refused fun value h => hAsks ⟨value, h⟩
    rw [hPerform] at hRefused
    obtain ⟨-, rfl⟩ : result = .errNoMatch ∧ after = some current := by simpa using hRefused
    exact ⟨current, rfl, hCurrent⟩

/-- The arguments fit one by one. -/
theorem argumentsFit_cons : ArgumentsFit (command :: commands) ↔
    (∀ zone, command = .set zone → zone.length < cliTimezoneCmdSize) ∧ ArgumentsFit commands := by
  simp only [ArgumentsFit, List.mem_cons, or_imp, forall_and, eq_comm]

/-- From a timezone that can be copied, a run of commands keeps the law as long as
the arguments can be copied. -/
theorem commandsLawful_some_iff (hDb : db.Consistent)
    (hCurrent : current.length < maxTimezoneNameSize) (commands : List Command) :
    CommandsLawful db (some current) commands ↔ ArgumentsFit commands := by
  induction commands generalizing current with
  | nil => exact ⟨fun _ => nofun, fun _ => trivial⟩
  | cons command commands ih =>
      rw [CommandsLawful, argumentsFit_cons, commandLaw_some_iff hDb, and_iff_right hCurrent]
      refine and_congr_right fun hArgument => ?_
      have law := commandLaw_some hDb hCurrent hArgument
      constructor
      · intro hRest
        obtain ⟨result, after, hPerform⟩ := law.performs
        obtain ⟨timezone, rfl, hLength⟩ := length_of_perform hDb law hCurrent hPerform
        exact (ih hLength).mp (hRest result _ hPerform)
      · intro hRest result after hPerform
        obtain ⟨timezone, rfl, hLength⟩ := length_of_perform hDb law hCurrent hPerform
        exact (ih hLength).mpr hRest

end Law

/-- A sequence of commands keeps the law exactly where it fits the timezone it
starts from. -/
theorem commandsLawful_iff {db : ZoneDb} (hDb : db.Consistent) (prior : Option CString)
    (commands : List Command) : CommandsLawful db prior commands ↔ CommandsFit prior commands := by
  cases commands with
  | nil => exact ⟨fun _ => .inl rfl, fun _ => trivial⟩
  | cons command commands =>
      rw [CommandsFit, or_iff_right (List.cons_ne_nil _ _)]
      cases prior with
      | none =>
          constructor
          · intro hLawful
            obtain ⟨result, after, hPerform⟩ := hLawful.1.performs
            exact nomatch perform_none.symm.trans hPerform
          · rintro ⟨⟨timezone, hNone, -⟩, -⟩
            exact nomatch hNone
      | some timezone =>
          have hCopied : (∃ other, some timezone = some other ∧ other.length < maxTimezoneNameSize) ↔
              timezone.length < maxTimezoneNameSize := by simp
          rw [hCopied]
          constructor
          · intro hLawful
            have hLength := ((commandLaw_some_iff hDb).mp hLawful.1).1
            exact ⟨hLength, (commandsLawful_some_iff hDb hLength _).mp hLawful⟩
          · rintro ⟨hLength, hArguments⟩
            exact (commandsLawful_some_iff hDb hLength _).mpr hArguments

/-- Two zones. -/
def twoZones : ZoneDb :=
  { ZoneDb.initial with
    zones := [.lit "utc", .lit "us/pacific"], zonesCaps := [.lit "UTC", .lit "US/Pacific"] }

theorem twoZones_consistent : twoZones.Consistent := ⟨by decide, by decide⟩

theorem twoZones_commandsLawful_iff :
    CommandsLawful twoZones (some (.lit "UTC")) [.set (.lit "us/pacific")] ↔
      CommandsFit (some (.lit "UTC")) [.set (.lit "us/pacific")] :=
  commandsLawful_iff twoZones_consistent (some (.lit "UTC")) [.set (.lit "us/pacific")]

/-- On a row without a timezone, none can be set. -/
theorem first_timezone_not_set :
    twoZones.Consistent ∧ ¬ CommandsLawful twoZones none [.set (.lit "us/pacific")] := by
  refine ⟨twoZones_consistent, fun hLawful => ?_⟩
  have hEntry : Entry twoZones (.lit "us/pacific") (.lit "US/Pacific") := ⟨1, rfl, rfl⟩
  obtain ⟨value, -, hPerform⟩ := hLawful.1.granted ⟨_, hEntry⟩
  have hCrash : perform twoZones (.set (.lit "us/pacific")) none = .error .nullPointer := rfl
  rw [hCrash] at hPerform
  exact nomatch hPerform

end OpsSysd.Timezone
