import OpsSysd.Daemon.Description
import OpsSysd.Library.Agreement

/-! The support dump. Every piece of it is appended with what room is left, so
that at any time the buffer holds the start of the text put together so far. The
loop over the daemons counts to the number of those that are hardware daemons. -/
namespace OpsSysd.Daemon

open CLib Manifest

/-- `REM_BUF_LEN`, a `size_t`. -/
def remBufLen (buflen : Nat) (buf : CString) : Nat := (((buflen : Int) - 1 - buf.length) % 2 ^ 64).toNat

/-- `strncat(buf, text, REM_BUF_LEN)`. -/
def catRem (buflen : Nat) (buf text : CString) : CString := strncat buf text (remBufLen buflen buf)

def dumpHeading : CString := .lit "=============== Daemon Info =========================\n"
def dumpColumns : CString := .lit "Name\t\t\tis_hw_handler\t\t\tcur_hw\n"
def mgmtIntfHeading : CString := .lit "=============== Mgmt_intf Info ==========================\n"
def dumpTabs : CString := .lit "\t\t\t"
def dumpNewline : CString := .lit "\n"

/-- The body of the loop in `sysd_dump`. -/
def dumpDaemon (buflen : Nat) (daemon : DaemonInfo) (buf : CString) : CString :=
  let buf := catRem buflen buf daemon.name
  let buf := catRem buflen buf dumpTabs
  let buf := catRem buflen buf (decimal (if daemon.isHwHandler then 1 else 0))
  let buf := catRem buflen buf dumpTabs
  let buf := catRem buflen buf (decimal daemon.curHw)
  catRem buflen buf dumpNewline

/-- The loop from an index on, and nothing where it reads outside the array. -/
def dumpDaemons (state : State) (buflen i : Nat) (buf : CString) : Option CString :=
  if i < state.numHwDaemons then do
    let daemon ← state.daemons[i]?
    dumpDaemons state buflen (i + 1) (dumpDaemon buflen daemon buf)
  else some buf
  termination_by state.numHwDaemons - i

/-- `sysd_dump`. -/
def sysdDump (state : State) (buflen : Nat) : Option CString := do
  let buf := dumpHeading
  let buf := catRem buflen buf dumpColumns
  let buf ← dumpDaemons state buflen 0 buf
  let buf := catRem buflen buf mgmtIntfHeading
  let name ← state.mgmtIntf
  let buf := catRem buflen buf name
  return catRem buflen buf dumpNewline

/-- What the dump is to say of a daemon. -/
def daemonLine (daemon : DaemonInfo) : CString :=
  daemon.name ++ dumpTabs ++ decimal (if daemon.isHwHandler then 1 else 0) ++ dumpTabs ++
    decimal daemon.curHw ++ dumpNewline

def daemonLines : List DaemonInfo → CString
  | [] => .empty
  | daemon :: daemons => daemonLine daemon ++ daemonLines daemons

def mgmtIntfSection (name : CString) : CString := mgmtIntfHeading ++ name ++ dumpNewline

/-- The whole text: the headings, a line for each daemon, and the management interface. -/
def dumpText (daemons : List DaemonInfo) (name : CString) : CString :=
  dumpHeading ++ dumpColumns ++ daemonLines daemons ++ mgmtIntfSection name

section Truncation

variable {buflen : Nat}

/-- The buffer holds as much of the text as fits, and so it does when a piece is added. -/
theorem catRem_take (hRoom : 0 < buflen) (hInt : buflen < 2 ^ 31) (done text : CString) :
    catRem buflen (done.take (buflen - 1)) text = (done ++ text).take (buflen - 1) := by
  have hLength := CString.length_take (buflen - 1) done
  have hRem : remBufLen buflen (done.take (buflen - 1)) = buflen - 1 - done.length := by
    rw [remBufLen, hLength]
    omega
  apply CString.ext
  rw [catRem, hRem]
  exact List.take_append.symm

theorem dumpDaemon_take (hRoom : 0 < buflen) (hInt : buflen < 2 ^ 31) (daemon : DaemonInfo)
    (done : CString) :
    dumpDaemon buflen daemon (done.take (buflen - 1)) =
      (done ++ daemonLine daemon).take (buflen - 1) := by
  simp only [dumpDaemon, catRem_take hRoom hInt, daemonLine, CString.append_assoc]

/-- The loop reads inside the array, and adds a line for each daemon it counts to. -/
theorem dumpDaemons_take (hRoom : 0 < buflen) (hInt : buflen < 2 ^ 31) {state : State}
    (hInside : state.numHwDaemons ≤ state.daemons.length) (i : Nat) (done : CString) :
    dumpDaemons state buflen i (done.take (buflen - 1)) =
      some ((done ++ daemonLines ((state.daemons.take state.numHwDaemons).drop i)).take
        (buflen - 1)) := by
  induction hLeft : state.numHwDaemons - i generalizing i done with
  | zero =>
      have hEnd : (state.daemons.take state.numHwDaemons).drop i = [] := by
        rw [List.drop_eq_nil_iff, List.length_take]
        omega
      rw [dumpDaemons, if_neg (by omega), hEnd, daemonLines]
      exact congrArg (fun text => some (CString.take _ text))
        (CString.ext (List.append_nil done.bytes).symm)
  | succ left ih =>
      have hBefore : i < state.numHwDaemons := by omega
      have hIndex : i < state.daemons.length := by omega
      have hNext : (state.daemons.take state.numHwDaemons).drop i = state.daemons[i] ::
          (state.daemons.take state.numHwDaemons).drop (i + 1) := by
        rw [List.drop_eq_getElem_cons (by rw [List.length_take]; omega), List.getElem_take]
      rw [dumpDaemons, if_pos hBefore, List.getElem?_eq_getElem hIndex]
      simp only [Option.bind_eq_bind, Option.bind_some]
      rw [dumpDaemon_take hRoom hInt, ih (i + 1) _ (by omega), hNext, daemonLines,
        CString.append_assoc]

/-- The dump lists as many daemons as there are hardware daemons. -/
theorem sysdDump_eq (hRoom : dumpHeading.length < buflen) (hInt : buflen < 2 ^ 31) {state : State}
    (hInside : state.numHwDaemons ≤ state.daemons.length) {name : CString}
    (hName : state.mgmtIntf = some name) :
    sysdDump state buflen =
      some ((dumpText (state.daemons.take state.numHwDaemons) name).take (buflen - 1)) := by
  have hSome : 0 < buflen := Nat.zero_lt_of_lt hRoom
  have hHeading : dumpHeading = dumpHeading.take (buflen - 1) :=
    (CString.take_of_length_le (Nat.le_sub_one_of_lt hRoom)).symm
  rw [sysdDump, hHeading, catRem_take hSome hInt, dumpDaemons_take hSome hInt hInside, hName]
  simp only [Option.bind_eq_bind, Option.bind_some, Option.pure_def, catRem_take hSome hInt,
    List.drop_zero, dumpText, mgmtIntfSection, CString.append_assoc]

end Truncation

/-- The dump is the start of the whole text, and as much of it as fits. -/
def ListsEveryDaemon (state : State) (name : CString) (buflen : Nat) : Prop :=
  sysdDump state buflen = some ((dumpText state.daemons name).take (buflen - 1))

/-- The lines that are missed. -/
def missedLines (state : State) : CString := daemonLines (state.daemons.drop state.numHwDaemons)

/-- How much of the dump is right in a buffer that is long enough: the lines that
are there, and then as far as the next section agrees with the first line missed. -/
def rightLength (state : State) (name : CString) : Nat :=
  (dumpHeading ++ dumpColumns ++ daemonLines (state.daemons.take state.numHwDaemons)).length +
    agreeLength (mgmtIntfSection name).bytes (missedLines state ++ mgmtIntfSection name).bytes

section Condition

theorem daemonLines_append (first rest : List DaemonInfo) :
    daemonLines (first ++ rest) = daemonLines first ++ daemonLines rest := by
  induction first with
  | nil => rfl
  | cons daemon first ih => rw [List.cons_append, daemonLines, daemonLines, ih, CString.append_assoc]

theorem daemonLine_filled (daemon : DaemonInfo) : 0 < (daemonLine daemon).length := by
  have hNewline : dumpNewline.length = 1 := by decide
  rw [daemonLine, CString.length_append, hNewline]
  exact Nat.succ_pos _

theorem daemonLines_eq_nil (daemons : List DaemonInfo) :
    (daemonLines daemons).bytes = [] ↔ daemons = [] := by
  cases daemons with
  | nil => exact iff_of_true rfl rfl
  | cons daemon daemons =>
      have hLine := List.length_pos_iff.mp (daemonLine_filled daemon)
      refine iff_of_false ?_ (List.cons_ne_nil _ _)
      intro hNone
      exact hLine (List.append_eq_nil_iff.mp hNone).1

/-- The two texts of which the dump takes the same number of characters. -/
theorem dumpText_bytes (state : State) (name : CString) :
    (dumpText (state.daemons.take state.numHwDaemons) name).bytes =
      (dumpHeading ++ dumpColumns ++ daemonLines (state.daemons.take state.numHwDaemons)).bytes ++
        (mgmtIntfSection name).bytes ∧
    (dumpText state.daemons name).bytes =
      (dumpHeading ++ dumpColumns ++ daemonLines (state.daemons.take state.numHwDaemons)).bytes ++
        (missedLines state ++ mgmtIntfSection name).bytes := by
  constructor
  · rfl
  · have hSplit := daemonLines_append (state.daemons.take state.numHwDaemons)
      (state.daemons.drop state.numHwDaemons)
    rw [List.take_append_drop] at hSplit
    rw [dumpText, hSplit, missedLines]
    simp only [CString.append_bytes, List.append_assoc]

theorem listsEveryDaemon_iff {state : State} {name : CString} {buflen : Nat}
    (hRoom : dumpHeading.length < buflen) (hInt : buflen < 2 ^ 31)
    (hInside : state.numHwDaemons ≤ state.daemons.length) (hName : state.mgmtIntf = some name) :
    ListsEveryDaemon state name buflen ↔
      state.daemons.length ≤ state.numHwDaemons ∨ buflen - 1 ≤ rightLength state name := by
  obtain ⟨hDumped, hWhole⟩ := dumpText_bytes state name
  have hMissed : (missedLines state).bytes = [] ↔ state.daemons.length ≤ state.numHwDaemons := by
    rw [missedLines, daemonLines_eq_nil, List.drop_eq_nil_iff]
  rw [ListsEveryDaemon, sysdDump_eq hRoom hInt hInside hName, Option.some.injEq, CString.ext_iff,
    CString.take_bytes, CString.take_bytes, hDumped, hWhole, take_eq_take_iff,
    List.append_cancel_left_eq, agreeLength_append, ← hMissed, CString.append_bytes,
    List.self_eq_append_left]
  rfl

end Condition

/-- Of the daemons of the manifest the dump lists all exactly where all are hardware
daemons, or where the buffer ends before the first line that is missed would show. -/
theorem sysdDump_lists_iff (state : State) (name : CString) (hName : state.mgmtIntf = some name)
    (buflen : Nat) (hRoom : dumpHeading.length < buflen) (hInt : buflen < 2 ^ 31) :
    ListsEveryDaemon (sysdSetNumHwDaemons state) name buflen ↔
      (∀ daemon ∈ state.daemons, daemon.isHwHandler = true) ∨
        buflen - 1 ≤ rightLength (sysdSetNumHwDaemons state) name := by
  have hCount : (sysdSetNumHwDaemons state).numHwDaemons ≤ state.daemons.length :=
    List.length_filter_le _ _
  have hAll : state.daemons.length ≤ (sysdSetNumHwDaemons state).numHwDaemons ↔
      ∀ daemon ∈ state.daemons, daemon.isHwHandler = true := by
    rw [← List.length_filter_eq_length_iff]
    exact ⟨fun hLe => Nat.le_antisymm hCount hLe, fun hSame => hSame.ge⟩
  rw [listsEveryDaemon_iff hRoom hInt hCount hName]
  exact or_congr_left hAll

/-- The globals for these daemons and the interface `eth0`. -/
def dumpState (daemons : List DaemonInfo) : State :=
  { State.initial with daemons := daemons, mgmtIntf := some (.lit "eth0"), isMgmtIntfPresent := true }

theorem hardware_daemons_listed :
    ListsEveryDaemon (sysdSetNumHwDaemons (dumpState
      [⟨.lit "ops-switchd", true, 0⟩, ⟨.lit "ops-ledd", true, 1⟩])) (.lit "eth0") 16000 := by
  refine (sysdDump_lists_iff _ (.lit "eth0") rfl 16000 (by decide +kernel) (by decide)).mpr (.inl ?_)
  intro daemon hDaemon
  simp only [dumpState, List.mem_cons, List.not_mem_nil, or_false] at hDaemon
  cases hDaemon with
  | inl hFirst => rw [hFirst]
  | inr hSecond => rw [hSecond]

/-- A daemon that is no hardware daemon keeps the last one from being listed. -/
theorem last_daemon_missed :
    ¬ ListsEveryDaemon (sysdSetNumHwDaemons (dumpState
      [⟨.lit "ops-switchd", true, 0⟩, ⟨.lit "ops-sysd", false, 0⟩])) (.lit "eth0") 16000 := by
  intro hLists
  have hCondition := (listsEveryDaemon_iff (by decide +kernel) (by decide) (by decide) rfl).mp hLists
  revert hCondition
  decide +kernel

end OpsSysd.Daemon
