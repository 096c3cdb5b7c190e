import FeedOutline.Proofs.Log.Files
import Mathlib.Control.Monad.Basic

/-!
What a setup that succeeds makes of the logger. Nothing of what it was before plays a part in it, so that
settings alone say what the logger is.
-/
namespace FeedOutline.Log

open Data (Mapping Document)
open Disk (Pathname FileTree)
open Text

def FilePlan.handler (here : List String) (plan : FilePlan) : Except SetupError Handler := do
  let file ← plan.file
  let level ← handlerLevel plan.level
  return ⟨.file (file.absolute here) plan.maxBytes plan.backupCount, level, plan.format⟩

def wantedFile (here : List String) (settings : Mapping) : Except SetupError (Option Handler) := do
  match ← filePlan settings with
  | none => return none
  | some plan => (plan.handler here).map some

/-- The logger that settings ask for: it keeps its records to itself, and has a console before a file. -/
def wanted (here : List String) (settings : Mapping) : Except SetupError Logger := do
  let level ← topLevel settings
  let console ← consoleHandler settings
  let file ← wantedFile here settings
  return ⟨level, false, console.toList ++ file.toList⟩

variable {here : List String} {settings : Mapping} {files files' : FileTree} {old : Logger} {source : SetupSource}

theorem names_of_openFile {plan : FilePlan} {names : List String}
    (h : openFile plan files = (files', .ok names)) :
    ∃ file, plan.file = .ok file ∧ names = file.absolute files.here := by
  unfold openFile at h
  split at h
  · cases h
  · next directory hdirectory =>
    have hmade := Disk.FileTree.Alike.of_makeDirectories (FilePlan.plain_of_directory hdirectory) files []
    split at h
    · cases h
    · next heq =>
      rw [heq] at hmade
      split at h
      · cases h
      · split at h
        · cases h
        · next file hfile =>
          dsimp only at h
          split at h
          · cases h
            exact ⟨file, hfile, by rw [← hmade.here]⟩
          · cases h

theorem handler_of_fileHandler {plan : FilePlan} {handler : Handler}
    (h : fileHandler plan files = (files', .ok handler)) : plan.handler files.here = .ok handler := by
  unfold fileHandler at h
  split at h
  · cases h
  · next names hopen =>
    obtain ⟨file, hfile, rfl⟩ := names_of_openFile hopen
    rw [Prod.mk.injEq] at h
    obtain ⟨level, hlevel, rfl⟩ := map_eq_ok.1 h.2
    rw [FilePlan.handler, hfile, hlevel]
    rfl

/-- A setup that goes through makes the logger that its settings ask for. -/
theorem wanted_of_configure (h : (configure settings files old).result = .ok ()) :
    wanted files.here settings = .ok (configure settings files old).logger := by
  unfold configure at h ⊢
  unfold wanted wantedFile
  split at h
  · cases h
  · next level hlevel =>
    rw [hlevel]
    split at h
    · cases h
    · next console hconsole =>
      rw [hconsole]
      split at h
      · cases h
      · next hplan => simp [hplan, bind, Except.bind, pure, Except.pure]
      · next plan hplan =>
        split at h
        · cases h
        · next file hfile =>
          simp [hplan, handler_of_fileHandler hfile, bind, Except.bind, pure, Except.pure, Except.map]

theorem configure_eq_of_ok (h : (configure settings files old).result = .ok ()) (other : Logger) :
    configure settings files other = configure settings files old := by
  unfold configure at h ⊢
  split at h
  · cases h
  · rfl

theorem handlers_of_wanted {l : Logger} (h : wanted here settings = .ok l) :
    ∃ console file : Option Handler, l.handlers = console.toList ++ file.toList ∧
      (∀ c ∈ console, c.destination.file? = none) ∧ ∀ f ∈ file, f.destination.file?.isSome := by
  unfold wanted at h
  obtain ⟨level, -, h⟩ := bind_eq_ok.1 h
  obtain ⟨console, hconsole, h⟩ := bind_eq_ok.1 h
  obtain ⟨file, hfile, h⟩ := bind_eq_ok.1 h
  cases h
  refine ⟨console, file, rfl, ?_, ?_⟩
  · rintro c rfl
    unfold consoleHandler at hconsole
    obtain ⟨m, -, hconsole⟩ := bind_eq_ok.1 hconsole
    split at hconsole
    · cases hconsole
    · obtain ⟨_, -, hconsole⟩ := bind_eq_ok.1 hconsole
      cases hconsole
      rfl
  · rintro f rfl
    unfold wantedFile at hfile
    obtain ⟨plan, -, hfile⟩ := bind_eq_ok.1 hfile
    split at hfile
    · cases hfile
    · obtain ⟨handler, hhandler, hsome⟩ := map_eq_ok.1 hfile
      cases hsome
      obtain ⟨_, -, hhandler⟩ := bind_eq_ok.1 hhandler
      obtain ⟨_, -, hhandler⟩ := bind_eq_ok.1 hhandler
      cases hhandler
      rfl

/-! A setup with all that it reads. -/

theorem setup_eq {explicit : Mapping} (h : explicitSettings files source = .ok explicit) (old : Logger) :
    setup source files old =
      if (configure (settingsOf explicit) files old).result.toOption.isSome &&
          !(entry (settingsOf explicit) "format" .null).isShowable then
        { configure (settingsOf explicit) files old with result := .error .tooLong }
      else configure (settingsOf explicit) files old := by
  rw [setup, h]

theorem exists_explicit_of_setup (h : (setup source files old).result = .ok ()) :
    ∃ explicit, explicitSettings files source = .ok explicit ∧
      setup source files old = configure (settingsOf explicit) files old := by
  cases hexplicit : explicitSettings files source with
  | error e =>
    rw [setup, hexplicit] at h
    cases h
  | ok explicit =>
    refine ⟨explicit, rfl, ?_⟩
    rw [setup_eq hexplicit] at h ⊢
    split at h
    · cases h
    · next hshown => rw [if_neg hshown]

def SetupSource.bytes? (source : SetupSource) (files : FileTree) : Option Bytes :=
  if source.configPath.isEmpty then none
  else (files.read (Pathname.ofText source.configPath).text).toOption

def documentOf : Option Bytes → Except SetupError Document
  | none => .ok .empty
  | some bytes => fromBytes bytes

/-- The logger that a source asks for in a directory if its configuration file has these bytes. -/
def SetupSource.wanted (source : SetupSource) (here : List String) (bytes : Option Bytes) :
    Except SetupError Logger := do
  Log.wanted here (settingsOf (← source.over (← documentOf bytes)))

theorem fromFile_eq_ok {name : String} {d : Document} (h : fromFile files name = .ok d) :
    ∃ bytes, files.read (Pathname.ofText name).text = .ok bytes ∧ fromBytes bytes = .ok d := by
  unfold fromFile at h
  dsimp only at h
  split at h
  · cases h
  · cases h
  · split at h
    · cases h
    · next bytes hread => exact ⟨bytes, hread, h⟩

theorem explicitSettings_eq_ok {explicit : Mapping} (h : explicitSettings files source = .ok explicit) :
    ∃ d, documentOf (source.bytes? files) = .ok d ∧ source.over d = .ok explicit := by
  obtain ⟨d, hd, hover⟩ := bind_eq_ok.1 h
  refine ⟨d, ?_, hover⟩
  unfold SetupSource.bytes?
  unfold SetupSource.document at hd
  split at hd
  · next hempty =>
    rw [if_pos hempty]
    exact hd
  · next hname =>
    obtain ⟨bytes, hread, hbytes⟩ := fromFile_eq_ok hd
    rw [if_neg hname, hread]
    exact hbytes

theorem wanted_of_setup (h : (setup source files old).result = .ok ()) :
    source.wanted files.here (source.bytes? files) = .ok (setup source files old).logger := by
  obtain ⟨explicit, hexplicit, hsetup⟩ := exists_explicit_of_setup h
  obtain ⟨d, hd, hover⟩ := explicitSettings_eq_ok hexplicit
  have hbind : source.wanted files.here (source.bytes? files) = wanted files.here (settingsOf explicit) := by
    rw [SetupSource.wanted, hd]
    change (source.over d >>= fun explicit => wanted files.here (settingsOf explicit)) = _
    rw [hover]
    rfl
  rw [hsetup] at h ⊢
  rw [hbind]
  exact wanted_of_configure h

theorem setup_eq_of_ok (h : (setup source files old).result = .ok ()) (other : Logger) :
    setup source files other = setup source files old := by
  obtain ⟨explicit, hexplicit, hsetup⟩ := exists_explicit_of_setup h
  have hother := configure_eq_of_ok (hsetup ▸ h) other
  rw [setup_eq hexplicit, setup_eq hexplicit, hother]

/-! A run of setups. -/

structure Call where
  source : SetupSource
  files : FileTree

def Call.outcome (c : Call) (l : Logger) : SetupOutcome :=
  setup c.source c.files l

/-- A logger after some setups, those that fail included. -/
def Logger.after (l : Logger) (calls : List Call) : Logger :=
  calls.foldl (fun l c => (c.outcome l).logger) l

/-- After any others, a setup that goes through makes the logger that its own configuration file, environment
and overrides ask for where it is made, as it would if it were the first. -/
theorem setup_forgets (l : Logger) (before : List Call) (call : Call)
    (h : (call.outcome (l.after before)).result = .ok ()) :
    let logger := (call.outcome (l.after before)).logger
    call.source.wanted call.files.here (call.source.bytes? call.files) = .ok logger ∧
      call.outcome {} = call.outcome (l.after before) ∧
      ∃ console file : Option Handler, logger.handlers = console.toList ++ file.toList ∧
        (∀ c ∈ console, c.destination.file? = none) ∧ ∀ f ∈ file, f.destination.file?.isSome := by
  intro logger
  have hwanted := wanted_of_setup h
  refine ⟨hwanted, setup_eq_of_ok h _, ?_⟩
  obtain ⟨explicit, -, hsettings⟩ := bind_eq_ok.1 hwanted
  obtain ⟨d, -, hsettings⟩ := bind_eq_ok.1 hsettings
  exact handlers_of_wanted hsettings

/-- The first setup fails at its file, when the console is already there. Of that console nothing is left after the
second one, whose level and format come from its own file and environment. -/
theorem setup_forgets_of_failure :
    let broken : Call := ⟨{ overrides := .map [(.text "handlers", .map [(.text "file", .map
      [(.text "enabled", .bool true), (.text "path", .text "")])])] }, {}⟩
    let call : Call := ⟨{ configPath := "c.yaml", env := { vars := [("LOG_FORMAT", "JSON")] } },
      ⟨["srv"], [(["srv"], .directory), (["var"], .directory),
        (["srv", "c.yaml"], .file (encodeUtf8 "level: debug\nfile: ../var/log/a.log\n"))]⟩⟩
    let l := Logger.after {} [broken]
    let logger := (call.outcome l).logger
    let view (h : Handler) := (h.destination.file?, h.level, h.format)
    (broken.outcome {}).result = .error (.unwritable .isDirectory) ∧
      l.handlers.map view = [(none, 20, .plain)] ∧ (call.outcome l).result = .ok () ∧
      call.source.wanted call.files.here (call.source.bytes? call.files) = .ok logger ∧
      call.outcome {} = call.outcome l ∧ logger.level = 10 ∧
      logger.handlers.map view = [(none, 10, .json), (some ["var", "log", "a.log"], 10, .json)] := by
  intro broken call l logger view
  have hok : (call.outcome l).result = .ok () := by decide +kernel
  obtain ⟨hwanted, hfirst, -⟩ := setup_forgets {} [broken] call hok
  exact ⟨by decide +kernel, by decide +kernel, hok, hwanted, hfirst, by decide +kernel, by decide +kernel⟩

end FeedOutline.Log
