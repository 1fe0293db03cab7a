import OpsSysd.Platform.Identification
import OpsSysd.Library.Attempts

/-! The link to the hardware description files. It is removed before it is made
again, so a start that fails or is cut short may leave none behind, but never
one to another directory. -/
namespace OpsSysd.Platform

open CLib Interaction Interaction.Program

/-- `HWDESC_FILES_PATH`. -/
def hwdescFilesPath : CString := .lit "/etc/openswitch/platform"

/-- The size of `hw_desc_dir`. -/
def hwDescDirSize : Nat := 1024

/-- How `mkdir` ends. -/
inductive Mkdir where
  | made | exists | failed
  deriving DecidableEq

/-- What a start asks of the file system and of the system status LED. Paths that
are the same in every call are left out. -/
inductive Request where
  | stat (path : CString)
  | remove
  | mkdir
  | symlink (target : CString)
  | i2cRegWrite (value : Nat)
  | fault

@[reducible] def Request.Response : Request → Type
  | .stat _ | .symlink _ => Bool
  | .mkdir => Mkdir
  | .fault => Empty
  | _ => Unit

abbrev Calls : Interface := ⟨Request, Request.Response⟩

abbrev stat (path : CString) : Program Calls Bool := .call (.stat path) .done
abbrev remove : Program Calls Unit := .call .remove .done
abbrev mkdir : Program Calls Mkdir := .call .mkdir .done
abbrev symlink (target : CString) : Program Calls Bool := .call (.symlink target) .done
abbrev i2cRegWrite (value : Nat) : Program Calls Unit := .call (.i2cRegWrite value) .done

/-- The target of the link, if there is one, and the last value of the LED. -/
structure Host where
  link : Option CString
  led : Option Nat

/-- A link is made only where there is none; any call may fail. -/
def step (directory : CString → Prop) : Semantics Calls Host :=
  fun before request =>
    match request with
    | .stat path => fun answer after => (answer = true → directory path) ∧ after = before
    | .remove => fun _ after => after = before ∨ after = { before with link := none }
    | .mkdir => fun _ after => after = before
    | .symlink target => fun answer after =>
        (answer = false ∧ after = before) ∨
          (answer = true ∧ before.link = none ∧ after = { before with link := some target })
    | .i2cRegWrite value => fun _ after => after = { before with led := some value }
    | .fault => fun answer _ => answer.elim

/-- Where the two names come from: they are built in for a simulation, and read
from the output of two commands otherwise. -/
inductive Source where
  | simulation
  | commands (manufacturerCmd productNameCmd : Option (List UInt8))

def genericX86Manufacturer : CString := .lit "Generic-x86"
def genericX86ProductName : CString := .lit "X86-64"

/-- The string in a buffer. -/
def bufferString (buffer : List UInt8) : CString := stringAt buffer 0

/-- The path that `snprintf` puts together. -/
def hwDescPath (manufacturer productName : CString) : CString :=
  (hwdescFilesPath ++ .lit "/" ++ manufacturer ++ .lit "/" ++ productName).take (hwDescDirSize - 1)

/-- `create_link_to_desc_files`, with what it leaves in `g_hw_desc_dir`. -/
def createLinkToDescFiles (manufacturer productName : CString) : Program Calls (Int × CString) := do
  let hwDescDir := hwDescPath manufacturer productName
  if !(← stat hwDescDir) then return (-1, hwDescDir)
  else
    remove
    if (← mkdir) = .failed then return (-1, hwDescDir)
    else if !(← symlink hwDescDir) then return (-1, hwDescDir)
    else return (0, hwDescDir)

/-- The names, `none` for a null pointer. -/
def manufAndProdname : Source → Program Calls (Option CString × Option CString)
  | .simulation => return (some genericX86Manufacturer, some genericX86ProductName)
  | .commands manufacturerCmd productNameCmd =>
      match getManufAndProdname manufacturerCmd productNameCmd with
      | none => .call .fault Empty.elim
      | some names => return (names.1.map bufferString, names.2.map bufferString)

/-- `g_hw_desc_dir` before it is set. -/
def initialHwDescDir : CString := .lit "/"

/-- `sysd_create_link_to_hwdesc_files`. -/
def sysdCreateLinkToHwdescFiles (source : Source) : Program Calls (Int × CString) := do
  match ← manufAndProdname source with
  | (some manufacturer, some productName) =>
      let created ← createLinkToDescFiles manufacturer productName
      if created.1 ≠ 0 then return (-1, created.2) else return (0, created.2)
  | _ => return (-1, initialHwDescDir)

/-- The directory that the names stand for, if both are there. -/
def sourceDir : Source → Option CString
  | .simulation => some (hwDescPath genericX86Manufacturer genericX86ProductName)
  | .commands manufacturerCmd productNameCmd => do
      let names ← getManufAndProdname manufacturerCmd productNameCmd
      return hwDescPath (bufferString (← names.1)) (bufferString (← names.2))

section Names

/-- Where the commands are read right and the names are not too long, the directory is
named by the first lines of their outputs. -/
def NamesPlatform (source : Source) : Prop :=
  ∀ manufacturerCmd productNameCmd (manufacturer productName : Line),
    source = .commands (some manufacturerCmd) (some productNameCmd) →
    realLine manufacturerCmd = some manufacturer → realLine productNameCmd = some productName →
    TakesFirstLine manufacturerCmd → TakesFirstLine productNameCmd →
    (CString.cut (unquote manufacturer.text)).length + (CString.cut (unquote productName.text)).length +
      26 < hwDescDirSize →
    sourceDir source = some (hwdescFilesPath ++ .lit "/" ++ CString.cut (unquote manufacturer.text) ++
      .lit "/" ++ CString.cut (unquote productName.text))

/-- Names that are not too long are in the path whole. -/
theorem hwDescPath_eq {manufacturer productName : CString}
    (hFits : manufacturer.length + productName.length + 26 < hwDescDirSize) :
    hwDescPath manufacturer productName =
      hwdescFilesPath ++ .lit "/" ++ manufacturer ++ .lit "/" ++ productName := by
  refine CString.take_of_length_le ?_
  have hPath : hwdescFilesPath.length = 24 := by decide
  have hSlash : (CString.lit "/").length = 1 := by decide
  simp only [CString.length_append, hPath, hSlash]
  omega

/-- The directory of a platform whose commands are read right is named by the
first lines of their outputs. -/
theorem sourceDir_commands {manufacturerCmd productNameCmd : List UInt8}
    {manufacturer productName : Line}
    (hManufacturer : realLine manufacturerCmd = some manufacturer)
    (hProductName : realLine productNameCmd = some productName)
    (takesManufacturer : TakesFirstLine manufacturerCmd)
    (takesProductName : TakesFirstLine productNameCmd) :
    sourceDir (.commands (some manufacturerCmd) (some productNameCmd)) =
      some (hwDescPath (CString.cut (unquote manufacturer.text))
        (CString.cut (unquote productName.text))) := by
  have hNames := getManufAndProdname_names hManufacturer hProductName takesManufacturer takesProductName
  obtain ⟨⟨first, second⟩, hRead, hBoth⟩ := Option.map_eq_some_iff.mp hNames
  obtain ⟨hFirst, hSecond⟩ := Prod.mk.inj hBoth
  obtain ⟨firstBuffer, rfl, hFirstText⟩ := Option.map_eq_some_iff.mp hFirst
  obtain ⟨secondBuffer, rfl, hSecondText⟩ := Option.map_eq_some_iff.mp hSecond
  rw [← hFirstText, ← hSecondText, CString.cut_bytes_self, CString.cut_bytes_self]
  simp [sourceDir, hRead, bufferString]

/-- So the directory is the platform's. -/
theorem namesPlatform (source : Source) : NamesPlatform source := by
  rintro manufacturerCmd productNameCmd manufacturer productName rfl hManufacturer hProductName
    takesManufacturer takesProductName hFits
  rw [sourceDir_commands hManufacturer hProductName takesManufacturer takesProductName,
    hwDescPath_eq hFits]

end Names

section Link

variable {directory : CString → Prop} {state : Host} {initial : Option CString}

/-- Where the link may point to once it has been seen to point to the first of
these. -/
def LinkAmong (initial dir link : Option CString) : Prop := link = initial ∨ link = none ∨ link = dir

/-- How a start leaves the link. -/
structure Linked (directory : CString → Prop) (dir : Option CString) (before : Host)
    (result : Int × CString) (after : Host) : Prop where
  made : result.1 = 0 → dir = some result.2 ∧ after.link = some result.2 ∧ directory result.2
  failed : result.1 ≠ 0 → result.1 = -1 ∧ (after.link = before.link ∨ after.link = none)
  unnamed : dir = none → after.link = before.link
  led : after.led = before.led

/-- One start, at every point of it and at its end. -/
theorem safe_createLinkToDescFiles (manufacturer productName : CString)
    (hLink : LinkAmong initial (some (hwDescPath manufacturer productName)) state.link) :
    Safe (step directory)
      (fun middle _ => LinkAmong initial (some (hwDescPath manufacturer productName)) middle.link)
      (createLinkToDescFiles manufacturer productName)
      (fun result after => LinkAmong initial (some (hwDescPath manufacturer productName)) after.link ∧
        Linked directory (some (hwDescPath manufacturer productName)) state result after) state := by
  have hFailed : ∀ after : Host, after.led = state.led →
      (after.link = state.link ∨ after.link = none) →
      Linked directory (some (hwDescPath manufacturer productName)) state
        (-1, hwDescPath manufacturer productName) after :=
    fun after hLed hAfter => ⟨nofun, fun _ => ⟨rfl, hAfter⟩, nofun, hLed⟩
  refine ⟨hLink, ?_⟩
  rintro found after ⟨hFound, hAfter⟩
  obtain rfl := Eq.symm hAfter
  cases found with
  | false => exact ⟨hLink, hFailed state rfl (.inl rfl)⟩
  | true =>
      refine ⟨hLink, ?_⟩
      rintro _ removed hRemoved
      have hRemovedLink : removed.link = state.link ∨ removed.link = none :=
        hRemoved.imp (congrArg Host.link) (congrArg Host.link)
      have hLed : removed.led = state.led := hRemoved.elim (congrArg Host.led) (congrArg Host.led)
      have hAmong : LinkAmong initial (some (hwDescPath manufacturer productName)) removed.link :=
        hRemovedLink.elim (fun hSame => hSame ▸ hLink) fun hNone => .inr (.inl hNone)
      refine ⟨hAmong, ?_⟩
      rintro answer after hAfter
      obtain rfl := (show removed = after from hAfter.symm)
      change Safe _ _ (if answer = .failed then _ else _) _ _
      split
      · exact ⟨hAmong, hFailed removed hLed hRemovedLink⟩
      · refine ⟨hAmong, ?_⟩
        rintro linked after (⟨rfl, hAfter⟩ | ⟨rfl, -, rfl⟩)
        · obtain rfl := Eq.symm hAfter
          exact ⟨hAmong, hFailed removed hLed hRemovedLink⟩
        · refine ⟨.inr (.inr rfl), fun _ => ⟨rfl, rfl, hFound rfl⟩, ?_, ?_, hLed⟩
          · exact fun hFailure => absurd rfl hFailure
          · exact fun hUnnamed => by cases hUnnamed

/-- The names are read before anything is asked for. -/
theorem safe_manufAndProdname {Result : Type} {source : Source}
    {permitted : Host → Request → Prop} {post : Result → Host → Prop}
    {next : Option CString × Option CString → Program Calls Result}
    (hFault : permitted state .fault)
    (hNamed : ∀ manufacturer productName, sourceDir source = some (hwDescPath manufacturer productName) →
      Safe (step directory) permitted (next (some manufacturer, some productName)) post state)
    (hUnnamed : ∀ names : Option CString × Option CString, sourceDir source = none →
      names.1 = none ∨ names.2 = none → Safe (step directory) permitted (next names) post state) :
    Safe (step directory) permitted (manufAndProdname source >>= next) post state := by
  cases source with
  | simulation => exact hNamed _ _ rfl
  | commands manufacturerCmd productNameCmd =>
      rw [manufAndProdname]
      cases hNames : getManufAndProdname manufacturerCmd productNameCmd with
      | none => exact ⟨hFault, fun answer => answer.elim⟩
      | some names =>
          obtain ⟨manufacturer, productName⟩ := names
          cases manufacturer with
          | none => exact hUnnamed _ (by simp [sourceDir, hNames]) (.inl rfl)
          | some manufacturer =>
              cases productName with
              | none => exact hUnnamed _ (by simp [sourceDir, hNames]) (.inr rfl)
              | some productName => exact hNamed _ _ (by simp [sourceDir, hNames])

theorem safe_sysdCreateLinkToHwdescFiles (source : Source)
    (hLink : LinkAmong initial (sourceDir source) state.link) :
    Safe (step directory) (fun middle _ => LinkAmong initial (sourceDir source) middle.link)
      (sysdCreateLinkToHwdescFiles source)
      (fun result after => LinkAmong initial (sourceDir source) after.link ∧
        Linked directory (sourceDir source) state result after) state := by
  refine safe_manufAndProdname hLink (fun manufacturer productName hDir => ?_) ?_
  · rw [hDir] at hLink ⊢
    refine (safe_createLinkToDescFiles manufacturer productName hLink).bind ?_
    rintro ⟨rc, dir⟩ after ⟨hAmong, hLinked⟩
    dsimp only
    split
    · rename_i hFailure
      exact ⟨hAmong, nofun, fun _ => ⟨rfl, (hLinked.failed hFailure).2⟩, nofun, hLinked.led⟩
    · rename_i hMade
      exact ⟨hAmong, fun _ => hLinked.made (not_not.mp hMade), fun hFailure => absurd rfl hFailure,
        nofun, hLinked.led⟩
  · rintro ⟨manufacturer, productName⟩ hDir hNull
    have hEnd : LinkAmong initial (sourceDir source) state.link ∧
        Linked directory (sourceDir source) state (-1, initialHwDescDir) state :=
      ⟨hLink, fun hMade => (by cases hMade), fun _ => ⟨rfl, .inl rfl⟩, fun _ => rfl, rfl⟩
    cases manufacturer with
    | none => exact hEnd
    | some manufacturer =>
        cases productName with
        | none => exact hEnd
        | some productName => exact hNull.elim (fun h => by cases h) fun h => by cases h

/-- However often the daemon has been started and cut short, the link is the one
found first, missing, or one to this platform's directory; and a start that
succeeds leaves one to a directory that is there, the one in `g_hw_desc_dir`. The
directory bears the names that the commands give. -/
theorem hwdesc_link {source : Source} {before after : Host} {rc : Int} {dir : CString}
    (attempts : Attempts (step directory) (sysdCreateLinkToHwdescFiles source)
      (fun start => start.link = initial) before)
    (run : Exec (step directory) (sysdCreateLinkToHwdescFiles source) before (rc, dir) after) :
    LinkAmong initial (sourceDir source) before.link ∧
      Linked directory (sourceDir source) before (rc, dir) after ∧ NamesPlatform source := by
  have hBefore : LinkAmong initial (sourceDir source) before.link := by
    refine attempts.keeps (fun host => LinkAmong initial (sourceDir source) host.link) ?_ ?_
    · exact fun _ hStart => .inl hStart
    · exact fun _ hLink => (safe_sysdCreateLinkToHwdescFiles source hLink).mono fun _ _ h => h.1
  have hSafe := @safe_sysdCreateLinkToHwdescFiles directory before initial source hBefore
  exact ⟨hBefore, ((safe_iff.mp hSafe).2 _ _ run).2, namesPlatform source⟩

/-- The directory of a simulated switch. -/
def simulationDir : CString := hwDescPath genericX86Manufacturer genericX86ProductName

/-- Where no link is left, a start on a simulated switch may make it. -/
theorem exec_simulation (led : Option Nat) :
    Exec (step (· = simulationDir)) (sysdCreateLinkToHwdescFiles .simulation) ⟨none, led⟩
      (0, simulationDir) ⟨some simulationDir, led⟩ := by
  have hFound : step (· = simulationDir) ⟨none, led⟩ (.stat simulationDir) true ⟨none, led⟩ :=
    ⟨fun _ => rfl, rfl⟩
  have hMkdir : step (· = simulationDir) ⟨none, led⟩ .mkdir Mkdir.exists ⟨none, led⟩ := rfl
  have hRemove : step (· = simulationDir) ⟨none, led⟩ .remove () ⟨none, led⟩ := .inl rfl
  have hSymlink : step (· = simulationDir) ⟨none, led⟩ (.symlink simulationDir) true
      ⟨some simulationDir, led⟩ := .inr ⟨rfl, rfl, rfl⟩
  exact .call hFound (.call hRemove (.call hMkdir (.call hSymlink (.done _ _))))

/-- A simulated switch that finds an old link, is cut short when it has removed
it, and is started again. -/
theorem hwdesc_link_simulation :
    LinkAmong (some (.lit "/old")) (sourceDir .simulation) none ∧
      Linked (· = simulationDir) (sourceDir .simulation) ⟨none, none⟩ (0, simulationDir)
        ⟨some simulationDir, none⟩ ∧ NamesPlatform .simulation := by
  have hFound (host : Host) : step (· = simulationDir) host (.stat simulationDir) true host :=
    ⟨fun _ => rfl, rfl⟩
  have hRemove (host : Host) : step (· = simulationDir) host .remove () { host with link := none } :=
    .inr rfl
  have hCut : Reaches (step (· = simulationDir)) (sysdCreateLinkToHwdescFiles .simulation)
      ⟨some (.lit "/old"), none⟩ .mkdir ⟨none, none⟩ :=
    .later (hFound _) (.later (hRemove _) (.here _ _ _))
  have hAttempts : Attempts (step (· = simulationDir)) (sysdCreateLinkToHwdescFiles .simulation)
      (fun start => start.link = some (.lit "/old")) ⟨none, none⟩ := .cut (.start rfl) hCut
  exact hwdesc_link hAttempts (exec_simulation none)

end Link

end OpsSysd.Platform
