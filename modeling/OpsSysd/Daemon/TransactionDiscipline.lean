import OpsSysd.Daemon.Round
import OpsSysd.Daemon.PackageSafety

/-! When every pass keeps to the rules of the IDL. Two things can break them: the
update of the software information on a configured database, which has no
transaction around it, and a document of packages with a value out of its place. -/
namespace OpsSysd.Daemon

open CLib Interaction Interaction.Program Idl

/-- The release file gives nothing to write. -/
def Silent (config : Config) : Option (List (List UInt8)) → Prop
  | none => True
  | some lines =>
      (scanRelease (config.header .systemSoftwareInfoOsName) lines).smap = [] ∧
        ¬ (scanRelease (config.header .systemSoftwareInfoOsName) lines).HasVersion

instance (config : Config) : (release : Option (List (List UInt8))) → Decidable (Silent config release)
  | none => inferInstanceAs (Decidable True)
  | some _ => inferInstanceAs (Decidable (_ ∧ _))

/-- A pass that crashes breaks no rule. -/
def Lawful {World : Type} (state : State World) (request : Request) : Prop :=
  (∃ kind, request = .fault kind) ∨ Disciplined state request

/-- The content of `/etc/os-release`. -/
abbrev Release := Option (List (List UInt8))

/-- Each pass begins with an allowed snapshot and release file, and finds one of
these documents of packages, if any; insertions succeed. -/
def releaseEnv (allowed : Database → Release → Prop) (documents : List YamlEvent → Prop) :
    Environment Release where
  run _ _ release link := allowed link.replica release
  commit _ _ _ _ _ _ := True
  insertFails _ _ := False
  discards _ _ _ _ := True
  symlinkFails _ _ := True
  osRelease release answer := answer = release
  versionDetail _ answer := ∀ events, answer = some events → documents events

/-- Every value has its proper place, or the parser crashes before it names a package. -/
def Placed (events : List YamlEvent) : Prop :=
  WellSequenced (entriesOf events) ∨ SetsNoRow (entriesOf events)

/-- A configured database is met with a silent release file only, and every
document has its values placed. -/
structure Orderly (config : Config) (allowed : Database → Release → Prop)
    (documents : List YamlEvent → Prop) : Prop where
  silent : ∀ (link : Link) (release : Release), allowed link.replica release →
    link.replica.Has .system → Silent config release
  placed : ∀ events, documents events → Placed events

section Lawful

variable {World : Type} {config : Config} {env : Environment World} {state : State World}

theorem lawful_grants : Grants (@Lawful World) where
  loop {state request} hLoop := by
    refine .inr ?_
    cases request <;> first | exact hLoop.elim | trivial
  create hClosed := .inr hClosed
  insert _ hOpen := .inr hOpen
  fill {state txn request} hFilling hOpen := by
    cases request with
    | insert txn' table => exact .inr (hFilling.1 ▸ hOpen)
    | write row column arg =>
        obtain ⟨current, hCurrent, -⟩ := hOpen
        exact .inr fun hNone => nomatch hCurrent.symm.trans hNone
    | fault kind => exact .inl ⟨kind, rfl⟩
    | _ => first | exact hFilling.elim | exact .inr trivial
  commit hOpen _ := .inr ⟨_, hOpen, rfl⟩
  destroy txn hClosed := .inr fun hOpen => by
    obtain ⟨current, hCurrent, -⟩ := hOpen
    exact nomatch hCurrent.symm.trans hClosed

/-- One that is not silent is written with no transaction open. -/
theorem silent_of_safe {post : Unit → State World → Prop} {cfg : RowId}
    (hSafe : Safe (step env) Lawful (sysdUpdateSwInfo config cfg) post state)
    (hClosed : state.txn = none) {release : Release} (hRelease : env.osRelease state.world release) :
    Silent config release := by
  have hUnlawful : ∀ (row : RowId) (column : Column) (arg : column.Arg),
      ¬ Lawful state (.write row column arg) := by
    rintro row column arg (⟨kind, hFault⟩ | hOpen)
    · exact nomatch hFault
    · exact hOpen hClosed
  have hLines := (safe_openOsRelease.mp hSafe).2 release hRelease
  cases release with
  | none => trivial
  | some lines =>
      refine ⟨?_, fun hVersion => ?_⟩
      · by_contra hName
        simp [hName, hUnlawful] at hLines
      · by_cases hName : (scanRelease (config.header .systemSoftwareInfoOsName) lines).smap = []
        · simp [hName, hVersion, hUnlawful] at hLines
        · simp [hName, hUnlawful] at hLines

/-- What a silent release file leads to. -/
theorem after_silent {Result : Type} {permitted : State World → Request → Prop}
    {post : Result → State World → Prop} {cfg : RowId} {next : Unit → Program Calls Result}
    (hSafe : Safe (step env) permitted (sysdUpdateSwInfo config cfg >>= next) post state)
    {release : Release} (hRelease : env.osRelease state.world release) (hSilent : Silent config release) :
    Safe (step env) permitted (next ()) post state := by
  have hLines := (safe_openOsRelease.mp hSafe).2 release hRelease
  cases release with
  | none => exact hLines
  | some lines =>
      obtain ⟨hEmpty, hVersion⟩ := hSilent
      simpa [hEmpty, hVersion] using hLines

end Lawful

section Runs

variable {config : Config} {allowed : Database → Release → Prop}
  {documents : List YamlEvent → Prop} {state : State Release}

theorem lawful_obliges : PackageObliges (@Lawful Release) True where
  create h := h.resolve_left fun ⟨_, hFault⟩ => nomatch hFault
  write h := h.resolve_left fun ⟨_, hFault⟩ => nomatch hFault
  insert h := h.resolve_left fun ⟨_, hFault⟩ => nomatch hFault
  commit h := h.resolve_left fun ⟨_, hFault⟩ => nomatch hFault
  fault _ := trivial

/-- The rules are kept in every run, over all restarts. -/
def KeepsRules (config : Config) (allowed : Database → Release → Prop)
    (documents : List YamlEvent → Prop) (start : Release) : Prop :=
  ∀ request state, LoopReaches (step (releaseEnv allowed documents)) (mainRound config) restart
    (· = State.boot start) request state → Lawful state request

section Necessary

variable {start release : Release} {link : Link}

/-- The first pass of such a run, on a configured database. -/
theorem KeepsRules.check (hRules : KeepsRules config allowed documents start)
    (hAllowed : allowed link.replica release) (hSystem : link.replica.Has .system) :
    ∃ (cfg : RowId) (state : State Release), state.txn = none ∧ state.world = release ∧
      state.link.replica = link.replica ∧ state.hwInitDoneSet = false ∧
      Safe (step (releaseEnv allowed documents)) Lawful (checkHardware config cfg)
        (fun _ => Safe (step (releaseEnv allowed documents)) Lawful restOfPass fun _ _ => True) state := by
  have hSafe : Safe (step (releaseEnv allowed documents)) Lawful (mainRound config) (fun _ _ => True)
      (State.boot start) :=
    safe_iff.mpr ⟨fun request state hReaches => hRules request state ⟨_, .start rfl, hReaches⟩,
      fun _ _ _ => trivial⟩
  have hRun : (releaseEnv allowed documents).run start .initial release
      (delivering link.replica link.distinct) := hAllowed
  have hChange := change_of_safe hSafe hRun rfl Nat.one_ne_zero
  obtain ⟨cfg, others, hIds⟩ := List.exists_cons_of_ne_nil fun hNil =>
    Database.ids_eq_nil.mp hNil hSystem
  refine ⟨cfg, sampled _, rfl, rfl, rfl, rfl, (branch_of_safe hChange rfl hIds).mono ?_⟩
  exact fun _ _ hRest => hRest.mono fun _ _ _ => trivial

/-- The daemon meets configured databases with silent release files only. -/
theorem KeepsRules.silent (hRules : KeepsRules config allowed documents start)
    (hAllowed : allowed link.replica release) (hSystem : link.replica.Has .system) :
    Silent config release := by
  obtain ⟨cfg, state, hClosed, hWorld, -, -, hCheck⟩ := hRules.check hAllowed hSystem
  have hUpdate : Safe _ _ (sysdUpdateSwInfo config cfg) _ _ := safe_bind.mp hCheck
  exact silent_of_safe hUpdate hClosed hWorld.symm

/-- After the check, the pass goes on to its end on the same copy. -/
theorem KeepsRules.rest (hRules : KeepsRules config allowed documents start)
    (hAllowed : allowed link.replica release) (hSystem : link.replica.Has .system) :
    ∃ state : State Release, state.txn = none ∧ state.link.replica = link.replica ∧
      Safe (step (releaseEnv allowed documents)) Lawful restOfPass (fun _ _ => True) state := by
  have hSilent := hRules.silent hAllowed hSystem
  obtain ⟨cfg, state, hClosed, hWorld, hCopy, hUnset, hSafe⟩ := hRules.check hAllowed hSystem
  have hHardware := (safe_loadHwInitDoneSet.mp (after_silent hSafe hWorld.symm hSilent)).2
  change Safe _ _ (if state.hwInitDoneSet = true then _ else _) _ _ at hHardware
  rw [hUnset, if_neg Bool.false_ne_true] at hHardware
  have hCheck := (safe_sysdChkIfHwDaemonsDone lawful_grants hClosed).mp hHardware
  by_cases hReady : Ready config (state.link.replica.rows .daemon)
  · -- the publication is committed, and this copy delivered again
    have hCommit : (releaseEnv allowed documents).commit state.world state.link
      (hwDoneOps (state.link.replica.ids .system)) .success state.world state.link := trivial
    refine ⟨_, ?_, ?_, set_of_safe (hCheck.1 hReady) hClosed hCommit⟩
    · rfl
    · exact hCopy
  · exact ⟨state, hClosed, hCopy, hCheck.2 hReady⟩

/-- A database without packages has the document read to its end. -/
theorem KeepsRules.placed (hRules : KeepsRules config allowed documents start)
    (hAllowed : allowed link.replica release) (hSystem : link.replica.Has .system)
    (hNoPackages : ¬ link.replica.Has .packageInfo) {events : List YamlEvent}
    (hDocument : documents events) : Placed events := by
  have total : (releaseEnv allowed documents).Total := {
    run := fun _ _ => ⟨release, link, hAllowed⟩
    commit := fun world link _ => ⟨.success, world, link, trivial⟩
    osRelease := fun world => ⟨world, rfl⟩
    versionDetail := fun _ => ⟨none, nofun⟩ }
  obtain ⟨state, hClosed, hCopy, hRest⟩ := hRules.rest hAllowed hSystem
  have hPackages : Safe _ _ populatePackages _ state := safe_bind.mp hRest
  rw [populatePackages_eq] at hPackages
  have hIds : state.view.ids .packageInfo = [] := by
    rw [State.view_closed hClosed, hCopy]
    exact Database.ids_eq_nil.mpr hNoPackages
  have hRows := (safe_rows.mp hPackages).2
  rw [hIds] at hRows
  have hRead := (safe_openVersionDetail.mp hRows).2 (some events) fun other hOther =>
    Option.some.inj hOther ▸ hDocument
  change Safe _ _ (parseEvents events .initial >>= commitLastBatch) _ _ at hRead
  rw [parseEvents_eq_parseScalars] at hRead
  have hParsed := (After.start hClosed).sequenced_of_safe total lawful_obliges
    (hRead.mono fun _ _ _ => trivial)
  exact hParsed.imp id And.right

end Necessary

end Runs
end OpsSysd.Daemon
