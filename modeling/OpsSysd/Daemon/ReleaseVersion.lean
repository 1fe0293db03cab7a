import OpsSysd.Daemon.SoftwareInfo
import OpsSysd.Idl.Transforms
import Mathlib.Data.List.Basic

/-! What the release file says, line by line, and what `sysd_update_sw_info`
makes of it through its buffers of eighty bytes. -/
namespace OpsSysd.Daemon

open CLib Interaction Interaction.Program Idl

/-- `=`. -/
def equals : UInt8 := '='.toNat.toUInt8

/-- The text before the first `=` of the line is this key. -/
def Keyed (key : CString) (line : List UInt8) : Prop :=
  equals ∈ line ∧ line.takeWhile (· ≠ equals) = key.bytes

instance (key : CString) (line : List UInt8) : Decidable (Keyed key line) :=
  inferInstanceAs (Decidable (_ ∧ _))

/-- The text after that, without trailing white space. -/
def lineValue (key : CString) (line : List UInt8) : List UInt8 :=
  (line.drop (key.length + 1)).rdropWhile isspace

/-- The values of a key, in the order of the lines. -/
def valuesOf (key : CString) (lines : List (List UInt8)) : List (List UInt8) :=
  (lines.filter (Keyed key)).map (lineValue key)

/-- The value of the last line with this key, or nothing. -/
def lastValue (key : CString) (lines : List (List UInt8)) : List UInt8 :=
  (valuesOf key lines).getLastD []

/-- The text of the switch version, with nothing cut off. -/
def versionText (version build : List UInt8) : List UInt8 :=
  version ++ (CString.lit " (Build: ").bytes ++ build ++ (CString.lit ")").bytes

/-- A line with one of the three keys. -/
def Counts (line : List UInt8) : Prop :=
  Keyed osReleaseName line ∨ Keyed osReleaseVersionName line ∨ Keyed osReleaseBuildName line

instance (line : List UInt8) : Decidable (Counts line) :=
  inferInstanceAs (Decidable (_ ∨ _ ∨ _))

section Lines

variable {key other : CString} {line : List UInt8} {lines : List (List UInt8)}

/-- A line under the key adds its value. -/
theorem valuesOf_concat_keyed (h : Keyed key line) :
    valuesOf key (lines ++ [line]) = valuesOf key lines ++ [lineValue key line] := by
  simp [valuesOf, List.filter_append, h]

/-- Another line adds none. -/
theorem valuesOf_concat_other (h : ¬ Keyed key line) :
    valuesOf key (lines ++ [line]) = valuesOf key lines := by
  simp [valuesOf, List.filter_append, h]

/-- The last line under a key counts. -/
theorem lastValue_concat_keyed (h : Keyed key line) :
    lastValue key (lines ++ [line]) = lineValue key line := by
  rw [lastValue, valuesOf_concat_keyed h, List.getLastD_concat]

/-- Lines under other keys do not. -/
theorem lastValue_concat_other (h : ¬ Keyed key line) :
    lastValue key (lines ++ [line]) = lastValue key lines := by
  rw [lastValue, valuesOf_concat_other h, lastValue]

/-- A line has one key. -/
theorem Keyed.unique (first : Keyed key line) (second : Keyed other line) : key = other :=
  CString.ext (first.2.symm.trans second.2)

/-- Without a NUL nothing is cut off. -/
theorem cut_bytes_of_noNul {bytes : List UInt8} (hNul : 0 ∉ bytes) :
    (CString.cut bytes).bytes = bytes :=
  congrArg CString.bytes (CString.cut_bytes_self ⟨bytes, hNul⟩)

/-- A value has no more NULs than its line. -/
theorem lineValue_noNul (hNul : 0 ∉ line) : 0 ∉ lineValue key line := fun hMem =>
  hNul (List.mem_of_mem_drop ((List.rdropWhile_prefix _ _).subset hMem))

/-- How a line without NUL is taken apart. -/
theorem splitLine_keyed (hNul : 0 ∉ line) (h : Keyed key line) :
    splitLine line = some (key, .cut (lineValue key line)) := by
  have hText := cut_bytes_of_noNul hNul
  have hName : CString.cut (line.takeWhile (· ≠ equals)) = key := by
    rw [h.2, CString.cut_bytes_self]
  have hLength : (line.takeWhile (· ≠ equals)).length = key.length := by
    rw [h.2]
    rfl
  simp only [splitLine, hText]
  change (if equals ∈ line then some (CString.cut (line.takeWhile (· ≠ equals)), CString.cut
    ((line.drop ((line.takeWhile (· ≠ equals)).length + 1)).rdropWhile isspace)) else none) = _
  rw [if_pos h.1, hName, hLength, lineValue]

/-- A line that is taken apart has a key. -/
theorem keyed_of_splitLine {name value : CString} (hNul : 0 ∉ line)
    (h : splitLine line = some (name, value)) : Keyed name line := by
  have hText := cut_bytes_of_noNul hNul
  have hKeyNul : 0 ∉ line.takeWhile (· ≠ equals) := fun hMem =>
    hNul ((List.takeWhile_prefix _).subset hMem)
  simp only [splitLine, hText] at h
  change (if equals ∈ line then some (CString.cut (line.takeWhile (· ≠ equals)), CString.cut
    ((line.drop ((line.takeWhile (· ≠ equals)).length + 1)).rdropWhile isspace)) else none) = _ at h
  split at h
  case isFalse => exact nomatch h
  case isTrue hMem =>
    obtain ⟨rfl, rfl⟩ := Prod.mk.inj (Option.some.inj h)
    exact ⟨hMem, (cut_bytes_of_noNul hKeyNul).symm⟩

end Lines

section Scan

variable {osName : CString} {line : List UInt8} {lines : List (List UInt8)}

/-- The non-empty names, in order. -/
def namesOf (lines : List (List UInt8)) : List (List UInt8) :=
  (valuesOf osReleaseName lines).filter (· ≠ [])

/-- What has been collected from these lines. -/
structure Scanned (osName : CString) (lines : List (List UInt8)) (info : ReleaseInfo) : Prop where
  smap : info.smap = (namesOf lines).map fun name => (osName, CString.cut name)
  versionId : info.versionId.bytes = (lastValue osReleaseVersionName lines).take (nstr - 1)
  buildId : info.buildId.bytes = (lastValue osReleaseBuildName lines).take (nstr - 1)

/-- Nothing has been read before the first line. -/
theorem Scanned.initial (osName : CString) : Scanned osName [] .initial := ⟨rfl, rfl, rfl⟩

theorem namesOf_concat_other (h : ¬ Keyed osReleaseName line) :
    namesOf (lines ++ [line]) = namesOf lines := by
  rw [namesOf, valuesOf_concat_other h, namesOf]

theorem namesOf_concat_keyed (h : Keyed osReleaseName line) :
    namesOf (lines ++ [line]) = namesOf lines ++
      [lineValue osReleaseName line].filter (· ≠ []) := by
  rw [namesOf, valuesOf_concat_keyed h, List.filter_append, namesOf]

/-- A line with none of the keys adds nothing. -/
theorem Scanned.skip {info : ReleaseInfo} (h : Scanned osName lines info) (hLine : ¬ Counts line) :
    Scanned osName (lines ++ [line]) info := by
  obtain ⟨hName, hVersion, hBuild⟩ : ¬ Keyed osReleaseName line ∧
      ¬ Keyed osReleaseVersionName line ∧ ¬ Keyed osReleaseBuildName line := by
    simpa only [Counts, not_or] using hLine
  refine ⟨?_, ?_, ?_⟩
  · rw [namesOf_concat_other hName, h.smap]
  · rw [lastValue_concat_other hVersion, h.versionId]
  · rw [lastValue_concat_other hBuild, h.buildId]

/-- A line with the name is taken. -/
theorem Scanned.name {info : ReleaseInfo} (h : Scanned osName lines info) (hNul : 0 ∉ line)
    (hLine : Keyed osReleaseName line) :
    Scanned osName (lines ++ [line]) (scanLine osName info line) := by
  have hValue := cut_bytes_of_noNul (@lineValue_noNul osReleaseName line hNul)
  have hVersion : ¬ Keyed osReleaseVersionName line := fun hKeyed =>
    absurd (hLine.unique hKeyed) (by decide)
  have hBuild : ¬ Keyed osReleaseBuildName line := fun hKeyed =>
    absurd (hLine.unique hKeyed) (by decide)
  have hNotVersion : streq osReleaseName osReleaseVersionName = false := by decide
  have hNotBuild : streq osReleaseName osReleaseBuildName = false := by decide
  by_cases hBlank : lineValue osReleaseName line = []
  · have hEmpty : CString.cut (lineValue osReleaseName line) = .lit "" := by
      rw [hBlank]
      rfl
    simp only [scanLine, splitLine_keyed hNul hLine, hEmpty, hNotVersion, hNotBuild, ne_eq,
      not_true_eq_false, decide_false, Bool.and_false, Bool.false_eq_true, if_false]
    refine ⟨?_, ?_, ?_⟩
    · rw [namesOf_concat_keyed hLine, hBlank, h.smap]
      simp
    · rw [lastValue_concat_other hVersion, h.versionId]
    · rw [lastValue_concat_other hBuild, h.buildId]
  · have hSome : CString.cut (lineValue osReleaseName line) ≠ .lit "" := fun hEmpty =>
      hBlank (hValue.symm.trans (congrArg CString.bytes hEmpty))
    simp only [scanLine, splitLine_keyed hNul hLine, hSome, streq_iff, ne_eq, not_false_eq_true,
      decide_true, Bool.and_true, if_true]
    refine ⟨?_, ?_, ?_⟩
    · rw [namesOf_concat_keyed hLine, Smap.add, h.smap]
      simp [hBlank]
    · rw [lastValue_concat_other hVersion, h.versionId]
    · rw [lastValue_concat_other hBuild, h.buildId]

/-- One with the version. -/
theorem Scanned.version {info : ReleaseInfo} (h : Scanned osName lines info) (hNul : 0 ∉ line)
    (hLine : Keyed osReleaseVersionName line) :
    Scanned osName (lines ++ [line]) (scanLine osName info line) := by
  have hValue := cut_bytes_of_noNul (@lineValue_noNul osReleaseVersionName line hNul)
  have hName : ¬ Keyed osReleaseName line := fun hKeyed => absurd (hLine.unique hKeyed) (by decide)
  have hBuild : ¬ Keyed osReleaseBuildName line := fun hKeyed =>
    absurd (hLine.unique hKeyed) (by decide)
  have hNotName : streq osReleaseVersionName osReleaseName = false := by decide
  simp only [scanLine, splitLine_keyed hNul hLine, hNotName, Bool.false_and, Bool.false_eq_true,
    if_false, streq_iff, if_true]
  refine ⟨?_, ?_, ?_⟩
  · rw [namesOf_concat_other hName, h.smap]
  · rw [lastValue_concat_keyed hLine, CString.take_bytes, hValue]
  · rw [lastValue_concat_other hBuild, h.buildId]

/-- And one with the build. -/
theorem Scanned.build {info : ReleaseInfo} (h : Scanned osName lines info) (hNul : 0 ∉ line)
    (hLine : Keyed osReleaseBuildName line) :
    Scanned osName (lines ++ [line]) (scanLine osName info line) := by
  have hValue := cut_bytes_of_noNul (@lineValue_noNul osReleaseBuildName line hNul)
  have hName : ¬ Keyed osReleaseName line := fun hKeyed => absurd (hLine.unique hKeyed) (by decide)
  have hVersion : ¬ Keyed osReleaseVersionName line := fun hKeyed =>
    absurd (hLine.unique hKeyed) (by decide)
  have hNotName : streq osReleaseBuildName osReleaseName = false := by decide
  have hNotVersion : streq osReleaseBuildName osReleaseVersionName = false := by decide
  simp only [scanLine, splitLine_keyed hNul hLine, hNotName, hNotVersion, Bool.false_and,
    Bool.false_eq_true, if_false, streq_iff, if_true]
  refine ⟨?_, ?_, ?_⟩
  · rw [namesOf_concat_other hName, h.smap]
  · rw [lastValue_concat_other hVersion, h.versionId]
  · rw [lastValue_concat_keyed hLine, CString.take_bytes, hValue]

/-- A line with none of the keys is passed over. -/
theorem scanLine_of_not_counts (hNul : 0 ∉ line) (hLine : ¬ Counts line) (info : ReleaseInfo) :
    scanLine osName info line = info := by
  cases hSplit : splitLine line with
  | none => simp only [scanLine, hSplit]
  | some pair =>
      obtain ⟨name, value⟩ := pair
      have hKeyed := keyed_of_splitLine hNul hSplit
      have hName : streq name osReleaseName = false :=
        decide_eq_false fun hSame => hLine (.inl (hSame ▸ hKeyed))
      have hVersion : streq name osReleaseVersionName = false :=
        decide_eq_false fun hSame => hLine (.inr (.inl (hSame ▸ hKeyed)))
      have hBuild : streq name osReleaseBuildName = false :=
        decide_eq_false fun hSame => hLine (.inr (.inr (hSame ▸ hKeyed)))
      simp only [scanLine, hSplit, hName, hVersion, hBuild, Bool.false_and, Bool.false_eq_true,
        if_false]

/-- One line more. -/
theorem Scanned.step {info : ReleaseInfo} (h : Scanned osName lines info) (hNul : 0 ∉ line) :
    Scanned osName (lines ++ [line]) (scanLine osName info line) := by
  by_cases hCounts : Counts line
  · rcases hCounts with hName | hVersion | hBuild
    · exact h.name hNul hName
    · exact h.version hNul hVersion
    · exact h.build hNul hBuild
  · rw [scanLine_of_not_counts hNul hCounts]
    exact h.skip hCounts

/-- The scan collects the values of the whole file. -/
theorem scanned_scanRelease (osName : CString) (hLines : ∀ line ∈ lines, 0 ∉ line) :
    Scanned osName lines (scanRelease osName lines) := by
  induction lines using List.reverseRecOn with
  | nil => exact .initial osName
  | append_singleton lines line ih =>
      rw [scanRelease, List.foldl_append]
      have hEarlier := ih fun other hOther => hLines other (List.mem_append_left _ hOther)
      exact hEarlier.step (hLines line (by simp))

/-- The other lines may as well be left out. -/
theorem scanRelease_filter_counts (osName : CString) (hLines : ∀ line ∈ lines, 0 ∉ line) :
    scanRelease osName (lines.filter Counts) = scanRelease osName lines := by
  induction lines using List.reverseRecOn with
  | nil => rfl
  | append_singleton lines line ih =>
      have hEarlier := ih fun other hOther => hLines other (List.mem_append_left _ hOther)
      have hLine := hLines line (by simp)
      simp only [scanRelease] at hEarlier ⊢
      rw [List.filter_append, List.foldl_append, List.foldl_append, hEarlier]
      by_cases hCounts : Counts line
      · simp [hCounts]
      · simp [hCounts, scanLine_of_not_counts hLine hCounts]

end Scan

section Version

variable {osName : CString} {lines : List (List UInt8)} {info : ReleaseInfo}

theorem eq_lit_empty {text : CString} : text = .lit "" ↔ text.bytes = [] := CString.ext_iff

theorem take_eq_nil {bytes : List UInt8} : bytes.take (nstr - 1) = [] ↔ bytes = [] := by
  simp [nstr]

/-- Both parts are there exactly when their values are not empty: nothing is
lost of the first byte. -/
theorem Scanned.hasVersion (h : Scanned osName lines info) :
    info.HasVersion ↔ lastValue osReleaseVersionName lines ≠ [] ∧
      lastValue osReleaseBuildName lines ≠ [] := by
  rw [ReleaseInfo.HasVersion, Ne, Ne, eq_lit_empty, eq_lit_empty, h.versionId, h.buildId,
    take_eq_nil, take_eq_nil, and_comm]

/-- Cutting the parts first cuts nothing that the last cut would keep. -/
theorem take_versionText (version build : List UInt8) (bound : Nat) :
    (versionText (version.take bound) (build.take bound)).take bound =
      (versionText version build).take bound := by
  simp only [versionText, List.append_assoc, List.take_append, List.take_take, List.length_take,
    Nat.min_self]
  by_cases hVersion : version.length ≤ bound
  · rw [Nat.min_eq_right hVersion]
    congr 3
    · rw [Nat.min_eq_left (by omega)]
    · by_cases hShort : build.length ≤ bound
      · rw [Nat.min_eq_right hShort]
      · simp only [Nat.min_eq_left (Nat.le_of_not_le hShort)]
        have hLeft (room : Nat) : bound - version.length - room - bound = 0 := by omega
        have hLeft' (room : Nat) : bound - version.length - room - build.length = 0 := by omega
        rw [hLeft, hLeft']
  · have hFull : bound - version.length = 0 := by omega
    simp [Nat.min_eq_left (Nat.le_of_not_le hVersion), hFull]

/-- The truncations of the parts do not show in the whole. -/
theorem Scanned.switchVersion (h : Scanned osName lines info) :
    (switchVersion info).bytes = (versionText (lastValue osReleaseVersionName lines)
      (lastValue osReleaseBuildName lines)).take (nstr - 1) := by
  rw [← take_versionText, ← h.versionId, ← h.buildId]
  rfl

end Version

section Publication

variable {World : Type} {env : Environment World} {config : Config} {cfg : RowId}
  {state : State World} {lines : List (List UInt8)} {info : ReleaseInfo}

/-- `sysd_update_sw_info` once the file has been read. -/
def publishRelease (cfg : RowId) (info : ReleaseInfo) : Program Calls Unit := do
  if info.smap ≠ [] then write cfg .systemSoftwareInfo info.smap
  if info.HasVersion then write cfg .systemSwitchVersion (switchVersion info)

theorem sysdUpdateSwInfo_eq :
    sysdUpdateSwInfo config cfg = .call .openOsRelease fun answer =>
      match answer with
      | none => .done ()
      | some lines =>
          publishRelease cfg (scanRelease (config.header .systemSoftwareInfoOsName) lines) := by
  refine congrArg (@Program.call Calls Unit .openOsRelease) (funext fun answer => ?_)
  cases answer with
  | none => rfl
  | some lines => rfl

/-- A write is issued, and there is something after it. -/
theorem reaches_write {column : Column} {arg : column.Arg} {next : Program Calls Unit}
    {target : Request} :
    (∃ middle, Reaches (step env) (write cfg column arg >>= fun _ => next) state target middle) ↔
      target = .write cfg column arg ∨ ∃ after, step env state (.write cfg column arg) () after ∧
        ∃ middle, Reaches (step env) next after target middle := by
  simp only [call_bind, done_bind, reaches_call]
  constructor
  · rintro ⟨middle, ⟨hTarget, -⟩ | ⟨answer, after, hStep, hReaches⟩⟩
    · exact .inl hTarget
    · exact .inr ⟨after, hStep, middle, hReaches⟩
  · rintro (hTarget | ⟨after, hStep, middle, hReaches⟩)
    · exact ⟨state, .inl ⟨hTarget, rfl⟩⟩
    · exact ⟨middle, .inr ⟨(), after, hStep, hReaches⟩⟩

/-- The daemon gets past its first write: a transaction is open, or the IDL skips
what changes nothing. -/
def WritesSoftwareInfo (env : Environment World) (cfg : RowId) (state : State World) : Prop :=
  state.txn = none → ∀ info, env.discards state.world cfg .systemSoftwareInfo info

/-- The write has an answer. -/
theorem WritesSoftwareInfo.exists_step (h : WritesSoftwareInfo env cfg state) (smap : Smap) :
    ∃ after, step env state (.write cfg .systemSoftwareInfo smap) () after := by
  cases hTxn : state.txn with
  | none =>
      refine ⟨state, ?_⟩
      simp only [step, hTxn, and_true]
      exact h hTxn smap
  | some current =>
      refine ⟨state.push current (.write cfg .systemSoftwareInfo smap), ?_⟩
      simp only [step, hTxn]
      exact ⟨smap, rfl, rfl⟩

/-- The version is written if both parts are there. -/
theorem reaches_version {target : Request} :
    (∃ middle, Reaches (step env) (if info.HasVersion then
      write cfg .systemSwitchVersion (switchVersion info) else pure ()) state target middle) ↔
      info.HasVersion ∧ target = .write cfg .systemSwitchVersion (switchVersion info) := by
  by_cases hVersion : info.HasVersion
  · simp [hVersion, reaches_call]
  · simp [hVersion]

/-- The two writes, and when they are made. -/
theorem reaches_publishRelease (hWrites : WritesSoftwareInfo env cfg state) {target : Request} :
    (∃ middle, Reaches (step env) (publishRelease cfg info) state target middle) ↔
      info.smap ≠ [] ∧ target = .write cfg .systemSoftwareInfo info.smap ∨
        info.HasVersion ∧ target = .write cfg .systemSwitchVersion (switchVersion info) := by
  by_cases hMap : info.smap = []
  · have hRest : publishRelease cfg info = if info.HasVersion then
        write cfg .systemSwitchVersion (switchVersion info) else pure () := by
      simp [publishRelease, hMap]
    rw [hRest, reaches_version]
    simp [hMap]
  · have hRest : publishRelease cfg info =
        write cfg .systemSoftwareInfo info.smap >>= fun _ => if info.HasVersion then
          write cfg .systemSwitchVersion (switchVersion info) else pure () := by
      simp [publishRelease, hMap]
    obtain ⟨after, hStep⟩ := hWrites.exists_step info.smap
    rw [hRest, reaches_write]
    simp only [reaches_version, hMap, ne_eq, not_false_eq_true, true_and]
    exact or_congr_right ⟨fun ⟨_, _, hTarget⟩ => hTarget, fun hTarget => ⟨after, hStep, hTarget⟩⟩

/-- `/etc/os-release` consists of these lines. -/
def Released (env : Environment World) (state : State World) (lines : List (List UInt8)) : Prop :=
  ∀ answer, env.osRelease state.world answer ↔ answer = some lines

/-- `sysd_update_sw_info` makes this request. -/
def Requests (env : Environment World) (config : Config) (cfg : RowId) (state : State World)
    (target : Request) : Prop :=
  ∃ middle, Reaches (step env) (sysdUpdateSwInfo config cfg) state target middle

/-- The requests are those of the release file that is read. -/
theorem requests_iff (hRelease : Released env state lines) {target : Request} :
    Requests env config cfg state target ↔ target = .openOsRelease ∨
      ∃ middle, Reaches (step env)
        (publishRelease cfg (scanRelease (config.header .systemSoftwareInfoOsName) lines)) state
        target middle := by
  have hStep : ∀ answer after, step env state .openOsRelease answer after ↔
      answer = some lines ∧ after = state := fun answer after => and_congr_left' (hRelease answer)
  rw [Requests, sysdUpdateSwInfo_eq]
  simp only [reaches_call, hStep]
  constructor
  · rintro ⟨middle, ⟨hTarget, -⟩ | ⟨answer, after, ⟨rfl, rfl⟩, hReaches⟩⟩
    · exact .inl hTarget
    · exact .inr ⟨middle, hReaches⟩
  · rintro (hTarget | ⟨middle, hReaches⟩)
    · exact ⟨state, .inl ⟨hTarget, rfl⟩⟩
    · exact ⟨middle, .inr ⟨_, state, ⟨rfl, rfl⟩, hReaches⟩⟩

/-- When the switch version is set, and to what. -/
theorem requests_switchVersion (hLines : ∀ line ∈ lines, 0 ∉ line)
    (hRelease : Released env state lines) (hWrites : WritesSoftwareInfo env cfg state) (version : CString) :
    Requests env config cfg state (.write cfg .systemSwitchVersion version) ↔
      lastValue osReleaseVersionName lines ≠ [] ∧ lastValue osReleaseBuildName lines ≠ [] ∧
        version.bytes = (versionText (lastValue osReleaseVersionName lines)
          (lastValue osReleaseBuildName lines)).take (nstr - 1) := by
  have hScanned := scanned_scanRelease (config.header .systemSoftwareInfoOsName) hLines
  rw [requests_iff hRelease, reaches_publishRelease hWrites, hScanned.hasVersion, ← hScanned.switchVersion,
    ← CString.ext_iff, and_assoc]
  simp

/-- What the software information is set to when there is one name. -/
theorem requests_softwareInfo (hLines : ∀ line ∈ lines, 0 ∉ line)
    (hRelease : Released env state lines) (hWrites : WritesSoftwareInfo env cfg state) {name : List UInt8} (hName : namesOf lines = [name])
    (info : Smap) :
    Requests env config cfg state (.write cfg .systemSoftwareInfo info) ↔
      ∃ text : CString, text.bytes = name ∧
        info = [(config.header .systemSoftwareInfoOsName, text)] := by
  have hScanned := scanned_scanRelease (config.header .systemSoftwareInfoOsName) hLines
  have hNul : 0 ∉ name := by
    have hMem : name ∈ namesOf lines := by simp [hName]
    obtain ⟨line, hLine, rfl⟩ := List.mem_map.mp (List.mem_of_mem_filter hMem)
    exact lineValue_noNul (hLines line (List.mem_of_mem_filter hLine))
  have hMap := hScanned.smap
  rw [hName, List.map_singleton] at hMap
  rw [requests_iff hRelease, reaches_publishRelease hWrites, hMap]
  constructor
  · intro hTarget
    exact ⟨.cut name, cut_bytes_of_noNul hNul, by simpa using hTarget⟩
  · rintro ⟨text, rfl, rfl⟩
    simp

/-- Only the lines that count decide what is requested. -/
theorem requests_congr {World' : Type} {env' : Environment World'} {state' : State World'}
    {lines' : List (List UInt8)} (hLines : ∀ line ∈ lines, 0 ∉ line)
    (hLines' : ∀ line ∈ lines', 0 ∉ line) (hRelease : Released env state lines)
    (hRelease' : Released env' state' lines') (hWrites : WritesSoftwareInfo env cfg state)
    (hWrites' : WritesSoftwareInfo env' cfg state') (hCounts : lines'.filter Counts = lines.filter Counts)
    (target : Request) :
    Requests env' config cfg state' target ↔ Requests env config cfg state target := by
  have hSame : scanRelease (config.header .systemSoftwareInfoOsName) lines' =
      scanRelease (config.header .systemSoftwareInfoOsName) lines := by
    rw [← scanRelease_filter_counts _ hLines, ← scanRelease_filter_counts _ hLines', hCounts]
  rw [requests_iff hRelease, requests_iff hRelease', hSame, reaches_publishRelease hWrites,
    reaches_publishRelease hWrites']

/-- The System row gets the version and the name that the release file gives
last, and no other line of the file matters. -/
theorem release_published (env : Environment World) (config : Config) (cfg : RowId)
    (state : State World) (lines : List (List UInt8)) (hLines : ∀ line ∈ lines, 0 ∉ line)
    (hRelease : Released env state lines) (hWrites : WritesSoftwareInfo env cfg state) :
    (∀ version, Requests env config cfg state (.write cfg .systemSwitchVersion version) ↔
      lastValue osReleaseVersionName lines ≠ [] ∧ lastValue osReleaseBuildName lines ≠ [] ∧
        version.bytes = (versionText (lastValue osReleaseVersionName lines)
          (lastValue osReleaseBuildName lines)).take 79) ∧
    (∀ name, namesOf lines = [name] → ∀ info,
      Requests env config cfg state (.write cfg .systemSoftwareInfo info) ↔
        ∃ text : CString, text.bytes = name ∧
          info = [(config.header .systemSoftwareInfoOsName, text)]) ∧
    ∀ (World' : Type) (env' : Environment World') (state' : State World')
      (lines' : List (List UInt8)), (∀ line ∈ lines', 0 ∉ line) → Released env' state' lines' →
        WritesSoftwareInfo env' cfg state' → lines'.filter Counts = lines.filter Counts →
          ∀ target, Requests env' config cfg state' target ↔ Requests env config cfg state target :=
  ⟨requests_switchVersion hLines hRelease hWrites,
    fun _ hName => requests_softwareInfo hLines hRelease hWrites hName,
    fun _ _ _ _ hLines' hRelease' hWrites' hCounts =>
      requests_congr hLines hLines' hRelease hRelease' hWrites hWrites' hCounts⟩

end Publication

section File

/-- A system whose release file has these lines. -/
def osReleaseEnv (lines : List (List UInt8)) : Environment Unit :=
  { anyEnv with osRelease := fun _ answer => answer = some lines }

/-- The lines of a file given by its text. -/
def releaseLine (text : String) : List UInt8 := text.toList.map fun c => c.toNat.toUInt8

/-- A name, a version with white space after it, and a build. -/
def releaseFile : List (List UInt8) :=
  [releaseLine "NAME=OpenSwitch\n", releaseLine "VERSION_ID=0.4.0 \n",
    releaseLine "BUILD_ID=2016\n", releaseLine "# NAME\n"]

theorem release_published_of_file :
    Requests (osReleaseEnv releaseFile) (.onePort []) 0 configuring
      (.write 0 .systemSwitchVersion (.lit "0.4.0 (Build: 2016)")) ∧
    Requests (osReleaseEnv releaseFile) (.onePort []) 0 configuring
      (.write 0 .systemSoftwareInfo [(.lit "", .lit "OpenSwitch")]) := by
  have hPublished := release_published (osReleaseEnv releaseFile) (.onePort []) 0 configuring
    releaseFile (by decide) (fun _ => Iff.rfl) (fun _ _ => trivial)
  refine ⟨(hPublished.1 _).mpr (by decide +kernel), ?_⟩
  exact (hPublished.2.1 (CString.lit "OpenSwitch").bytes (by decide +kernel) _).mpr ⟨_, rfl, rfl⟩

/-- An `=` inside a value is part of it, and is published with it. -/
theorem equals_in_value_published :
    equals ∈ lineValue osReleaseVersionName (releaseLine "VERSION_ID=1=2\n") ∧
    Requests (osReleaseEnv [releaseLine "VERSION_ID=1=2\n", releaseLine "BUILD_ID=3\n"])
      (.onePort []) 0 configuring (.write 0 .systemSwitchVersion (.lit "1=2 (Build: 3)")) ∧
    ¬ Requests (osReleaseEnv [releaseLine "BUILD_ID=3\n"]) (.onePort []) 0 configuring
      (.write 0 .systemSwitchVersion (.lit "1=2 (Build: 3)")) := by
  refine ⟨by decide +kernel, ?_, ?_⟩
  · exact (requests_switchVersion (by decide) (fun _ => Iff.rfl) (fun _ _ => trivial) _).mpr (by decide +kernel)
  · intro hRequests
    have hVersion := ((requests_switchVersion (by decide) (fun _ => Iff.rfl) (fun _ _ => trivial) _).mp hRequests).1
    exact hVersion (by decide +kernel)

end File
end OpsSysd.Daemon
