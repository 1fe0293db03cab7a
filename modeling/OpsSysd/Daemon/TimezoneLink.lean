import OpsSysd.Daemon.Attribution
import OpsSysd.Daemon.NotedRound

/-! The local time follows the System row: whenever the main loop blocks,
`/etc/localtime` is a link to the zone that the row names, whatever was delivered
in the meantime and however often the daemon started. -/
namespace OpsSysd.Daemon

open CLib Interaction Interaction.Program Idl

/-- The time zone of the first System row, if it is set. -/
def firstTimezone (db : Database) : Option CString :=
  (db.ids .system).head?.bind (db.get · .systemTimezone)

/-- The sequence number never goes back, and advances when the time zone of the
first System row is another one. -/
structure Heralds (link link' : Link) : Prop where
  seqno : link.seqno ≤ link'.seqno
  timezone : link'.seqno = link.seqno → firstTimezone link'.replica = firstTimezone link.replica

/-- Whatever the database delivers is heralded so. -/
structure HeraldsTimezone {World : Type} (env : Environment World) : Prop where
  run {world world' : World} {link link' : Link} (hRun : env.run world link world' link') :
    Heralds link link'
  commit {world world' : World} {link link' : Link} {ops : List Op} {status : TxnStatus}
    (hCommit : env.commit world link ops status world' link') : Heralds link link'

/-- What `/etc/localtime` is a link to. A call that fails leaves it as it is. -/
def localtime : (request : Request) → request.Response → Option CString → Option CString
  | .unlink, true, _ => none
  | .symlink target, true, _ => some target
  | _, _, link => link

/-- `symlink` never fails. -/
def SymlinkSucceeds {World : Type} (env : Environment World) : Prop :=
  ∀ world target, ¬ env.symlinkFails world target

/-- The link stands for the time zone of the first System row, if there is one. -/
def LinksTo (db : Database) (link : Option CString) : Prop :=
  ∀ timezone, firstTimezone db = some timezone → link = some (timezoneBasePath ++ timezone)

section Parts

variable {World : Type} {env : Environment World} {config : Config} {state : State World}

/-- Everything a pass does before it makes the link. -/
def Preparing (_ : State World) : Request → Prop
  | .unlink | .symlink _ | .pollBlock => False
  | _ => True

/-- A family of calls without the link's prepares. -/
theorem preparing_of_calls {calls : Request → Prop} (hUnlink : ¬ calls .unlink)
    (hLink : ∀ target, ¬ calls (.symlink target)) (hBlock : ¬ calls .pollBlock) (state : State World)
    (request : Request) (h : calls request) : Preparing state request := by
  cases request with
  | unlink => exact hUnlink h
  | symlink target => exact hLink target h
  | pollBlock => exact hBlock h
  | _ => trivial

theorem preparing_grants : Grants (@Preparing World) where
  loop := preparing_of_calls id (fun _ => id) id _ _
  create _ := trivial
  insert _ _ := trivial
  fill hFilling _ := preparing_of_calls id (fun _ => id) id _ _ hFilling
  commit _ _ := trivial
  destroy _ _ := trivial

/-- Preparing calls leave the link alone. -/
theorem unmarked_of_preparing (state : State World) (request : Request)
    (h : Preparing state request) : @Unmarked Calls _ localtime request := by
  intro answer link
  cases request with
  | unlink | symlink _ => exact h.elim
  | _ => rfl

/-- What has been examined is not ahead of the connection. -/
structure Sampled (state : State World) : Prop where
  closed : state.txn = none
  bound : state.idlSeqno ≤ state.link.seqno

/-- The initial configuration leaves the pass at or behind the connection. -/
theorem Sampled.configureFirst (h : Sampled state) (heralds : HeraldsTimezone env) :
    Safe (step env) Preparing (Daemon.configureFirst config) (fun _ => Sampled) state := by
  refine safe_configureFirst preparing_grants h.closed (fun _ _ _ => trivial) ?_
  intro system more status world link _ hCommit
  exact ⟨rfl, h.bound.trans (heralds.commit hCommit).seqno⟩

/-- So does the check of the hardware. -/
theorem Sampled.checkHardware (h : Sampled state) (heralds : HeraldsTimezone env) (cfg : RowId) :
    Safe (step env) Preparing (Daemon.checkHardware config cfg) (fun _ => Sampled) state := by
  have hFilling : ∀ request, Filling 0 request → Preparing state request :=
    preparing_of_calls id (fun _ => id) id state
  refine safe_checkHardware preparing_grants (safe_sysdUpdateSwInfo_closed h.closed cfg hFilling)
    (fun _ => h) fun _ => ?_
  refine (safe_sysdChkIfHwDaemonsDone preparing_grants h.closed).mpr ⟨fun _ => ?_, fun _ => h⟩
  refine safe_sysdSetHwDone preparing_grants h.closed (fun _ _ _ _ _ _ _ => trivial) ?_
  intro status world link hCommit
  exact ⟨rfl, h.bound.trans (heralds.commit hCommit).seqno⟩

/-- And so do the packages. -/
theorem Sampled.populatePackages (h : Sampled state) (heralds : HeraldsTimezone env) :
    Safe (step env) Preparing Daemon.populatePackages (fun _ => Sampled) state := by
  have hCommit : CommitKeeps env fun _ link => state.idlSeqno ≤ link.seqno :=
    fun _ _ _ _ _ _ _ hBound hCommit => hBound.trans (heralds.commit hCommit).seqno
  have hOrdinary : Safe (step env) anyCall Daemon.populatePackages _ state :=
    safe_ordinary populatePackages_ordinary hCommit (.of_closed h.closed) h.bound
      fun _ _ _ _ => trivial
  have hKept := hOrdinary.and (safe_populatePackages_closed h.closed)
  refine (hKept.permit_issued populatePackages_calls (preparing_of_calls id (fun _ => id) id)).mono ?_
  exact fun _ after hAfter => ⟨hAfter.2, hAfter.1.loop.idlSeqno.symm ▸ hAfter.1.kept⟩

/-- What a pass with a change does before it looks at the time zone. -/
def untilTimezone (config : Config) : Program Calls Unit :=
  .call .startPass fun _ => .call .getSeqno fun seqno => .call (.storeIdlSeqno seqno) fun _ =>
    .call (.rows .system) fun ids =>
      ids.head?.elim (configureFirst config) (checkHardware config) >>= fun _ => populatePackages

/-- The link comes last in a pass. -/
theorem processChange_untilTimezone (config : Config) : processChange config =
    untilTimezone config >>= fun _ => sysdHandleTimezoneUpdate := by
  simp only [processChange_eq, untilTimezone, restOfPass, call_bind, bind_assoc]

/-- Up to it the pass stays at or behind the connection. -/
theorem safe_untilTimezone (hClosed : state.txn = none) (heralds : HeraldsTimezone env) :
    Safe (step env) Preparing (untilTimezone config) (fun _ => Sampled) state := by
  refine safe_startPass.mpr ⟨trivial, safe_getSeqno.mpr ⟨trivial, safe_storeIdlSeqno.mpr ⟨trivial, ?_⟩⟩⟩
  refine safe_rows.mpr ⟨trivial, ?_⟩
  have hSampled : Sampled (sampled state) := ⟨hClosed, le_rfl⟩
  change Safe _ _ (((sampled state).view.ids .system).head?.elim _ _ >>= _) _ (sampled state)
  have hBranch : Safe (step env) Preparing
      (((sampled state).view.ids .system).head?.elim (configureFirst config) (checkHardware config))
      (fun _ => Sampled) (sampled state) := by
    cases ((sampled state).view.ids .system).head? with
    | none => exact hSampled.configureFirst heralds
    | some cfg => exact hSampled.checkHardware heralds cfg
  exact hBranch.bind fun _ after hAfter => hAfter.populatePackages heralds

end Parts

section Runs

variable {World : Type} {env : Environment World} {config : Config} {state : State World}
  {link : Option CString}

abbrev linking (env : Environment World) : Semantics Calls (State World × Option CString) :=
  noted localtime (step env)

/-- Between two rounds the link lags behind only if there is a change to examine. -/
structure LinkFollows (current : State World × Option CString) : Prop where
  sampled : Sampled current.1
  linked : current.1.idlSeqno = current.1.link.seqno → LinksTo current.1.link.replica current.2

/-- The main loop blocks only where the link is up to date. -/
def BlocksLinked (current : State World × Option CString) (request : Request) : Prop :=
  request = .pollBlock → LinksTo current.1.link.replica current.2

/-- A change that is heralded leaves the link right or is still to be examined. -/
theorem LinkFollows.delivers (h : LinkFollows (state, link)) {world : World} {link' : Link}
    (hHeralds : Heralds state.link link') : LinkFollows ({ state with world, link := link' }, link) where
  sampled := ⟨h.sampled.closed, h.sampled.bound.trans hHeralds.seqno⟩
  linked hSame := by
    have hExamined : state.idlSeqno = link'.seqno := hSame
    have hStill : link'.seqno = state.link.seqno :=
      le_antisymm (hExamined ▸ h.sampled.bound) hHeralds.seqno
    intro timezone hTimezone
    exact h.linked (hExamined.trans hStill) timezone ((hHeralds.timezone hStill).symm.trans hTimezone)

/-- The last thing a pass does is to make the link for what it then sees. -/
theorem Sampled.sysdHandleTimezoneUpdate (h : Sampled state) (links : SymlinkSucceeds env) :
    Safe (linking env) BlocksLinked Daemon.sysdHandleTimezoneUpdate (fun _ => LinkFollows)
      (state, link) := by
  have hQuiet : ∀ request, Ordinary request → BlocksLinked (state, link) request := by
    rintro _ hRequest rfl
    exact hRequest.elim
  rw [Daemon.sysdHandleTimezoneUpdate, first_bind]
  refine safe_noted_call.mpr ⟨hQuiet _ trivial, ?_⟩
  rintro _ after ⟨rfl, hAfter⟩
  obtain rfl := Eq.symm hAfter
  rw [State.view_closed h.closed]
  cases hSystem : (state.link.replica.ids .system).head? with
  | none =>
      refine ⟨h, fun _ timezone hTimezone => ?_⟩
      rw [firstTimezone, hSystem] at hTimezone
      cases hTimezone
  | some cfg =>
      refine safe_noted_call.mpr ⟨hQuiet _ trivial, ?_⟩
      rintro _ after ⟨rfl, hAfter⟩
      obtain rfl := Eq.symm hAfter
      rw [State.view_closed h.closed]
      cases hZone : state.link.replica.get cfg .systemTimezone with
      | none => exact safe_noted_call.mpr ⟨hQuiet _ trivial, fun answer => answer.elim⟩
      | some timezone =>
          change Safe _ _ (if _ then _ else _) _ _
          split
          · exact safe_noted_call.mpr ⟨hQuiet _ trivial, fun answer => answer.elim⟩
          refine safe_noted_call.mpr ⟨hQuiet _ trivial, ?_⟩
          rintro unlinked after hAfter
          obtain rfl := (show state = after from hAfter.symm)
          -- whatever is there now, the link that is made replaces it
          refine safe_noted_call.mpr ⟨(by rintro ⟨⟩), ?_⟩
          rintro made after ⟨hFails, hAfter⟩
          obtain rfl := (show state = after from hAfter.symm)
          refine ⟨h, fun _ timezone' hTimezone => ?_⟩
          rw [firstTimezone, hSystem, Option.bind_some, hZone] at hTimezone
          obtain rfl := Option.some.inj hTimezone
          cases made with
          | true => rfl
          | false => exact absurd (hFails rfl) (links _ _)

/-- A pass makes the link. -/
theorem LinkFollows.processChange (h : LinkFollows (state, link)) (heralds : HeraldsTimezone env)
    (links : SymlinkSucceeds env) :
    Safe (linking env) BlocksLinked (Daemon.processChange config) (fun _ => LinkFollows) (state, link) := by
  rw [processChange_untilTimezone]
  have hUntil : Safe (step env) Preparing (untilTimezone config) (fun _ => Sampled) state :=
    safe_untilTimezone h.sampled.closed heralds
  refine ((hUntil.unnoted unmarked_of_preparing link).permit ?_).bind ?_
  · rintro current _ hPreparing rfl
    exact hPreparing.elim
  · rintro - ⟨after, _⟩ ⟨hSampled, rfl⟩
    exact hSampled.sysdHandleTimezoneUpdate links

/-- A round that ends blocks only with the link made. -/
theorem LinkFollows.notedEnd {current : State World × Option CString} (h : LinkFollows current) :
    NotedEnd BlocksLinked LinkFollows current where
  serves := nofun
  blocks hSame _ := h.linked hSame
  kept := h

theorem localtime_overlooks : Overlooks localtime := by
  intro request hCall answer link
  cases request with
  | unlink | symlink _ => simp [RoundCall, PassCall] at hCall
  | _ => rfl

/-- Every round keeps the link following. -/
theorem LinkFollows.mainRound (h : LinkFollows (state, link)) (heralds : HeraldsTimezone env)
    (links : SymlinkSucceeds env) :
    Safe (linking env) BlocksLinked (Daemon.mainRound config) (fun _ => LinkFollows) (state, link) := by
  refine safe_noted_mainRound localtime_overlooks ?_ nofun ?_ ?_
  · rintro current _ hCall rfl
    exact hCall.elim
  · intro world link' hRun
    exact (h.delivers (heralds.run hRun)).notedEnd
  · intro world link' hRun
    exact ((h.delivers (heralds.run hRun)).processChange heralds links).mono
      fun _ _ => LinkFollows.notedEnd

/-- A daemon that is started has everything to examine. -/
theorem linkFollows_boot (world : World) (link : Option CString) : LinkFollows (State.boot world, link) where
  sampled := ⟨rfl, le_rfl⟩
  linked _ timezone hTimezone := by cases hTimezone

/-- The daemon is started again, and finds the link as it was. -/
def restartLinked (before after : State World × Option CString) : Prop :=
  restart before.1 after.1 ∧ after.2 = before.2

/-- Whenever the main loop blocks while a System row names a time zone, the link
is to that zone. -/
theorem timezone_linked (heralds : HeraldsTimezone env) (links : SymlinkSucceeds env)
    {current : State World × Option CString}
    (hBlock : LoopReaches (linking env) (mainRound config) restartLinked
      (fun start => Booted start.1) .pollBlock current) :
    LinksTo current.1.link.replica current.2 := by
  refine hBlock.allowed LinkFollows ?_ ?_ (fun before h => h.mainRound heralds links) rfl
  · rintro ⟨_, link⟩ ⟨world, rfl⟩
    exact linkFollows_boot world link
  · rintro before ⟨_, _⟩ - ⟨rfl, rfl⟩
    exact linkFollows_boot before.1.world before.2

/-- An environment that delivers whatever is heralded. -/
def heraldingEnv : Environment Unit where
  run _ link _ link' := Heralds link link'
  commit _ link _ _ _ link' := Heralds link link'
  insertFails _ _ := False
  discards _ _ _ _ := True
  symlinkFails _ _ := False
  osRelease _ lines := lines = none
  versionDetail _ events := events = none

theorem heraldingEnv_heralds : HeraldsTimezone heraldingEnv where
  run := id
  commit := id

theorem heraldingEnv_links : SymlinkSucceeds heraldingEnv := fun _ _ => id

/-- A restart on a configured switch makes the link again. -/
theorem timezone_linked_pmdDone : ∃ current : State Unit × Option CString,
    LoopReaches (linking heraldingEnv) (mainRound pmdConfig) restartLinked
      (fun start => Booted start.1) .pollBlock current ∧
      current.2 = some (timezoneBasePath ++ dfltTimezone) := by
  have hRun : heraldingEnv.run () .initial () pmdLink := ⟨by decide, fun hSame => by cases hSame⟩
  have hCommit : heraldingEnv.commit () pmdLink (hwDoneOps (pmdLink.replica.ids .system)) .success ()
      pmdLink := ⟨le_rfl, fun _ => rfl⟩
  obtain ⟨state, hReaches, -, hLink, -⟩ := exists_block_after_report restart Booted ⟨(), rfl⟩ hRun rfl
    Nat.one_ne_zero rfl rfl rfl rfl pmdDone_ready hCommit
  obtain ⟨link, hNoted⟩ := hReaches.exists_noted (none : Option CString)
  have hTimezone : firstTimezone state.link.replica = some dfltTimezone := by rw [hLink]; rfl
  have hLinked := timezone_linked heraldingEnv_heralds heraldingEnv_links hNoted
  exact ⟨(state, link), hNoted, hLinked _ hTimezone⟩

end Runs
end OpsSysd.Daemon
