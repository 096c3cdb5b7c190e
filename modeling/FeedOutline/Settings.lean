import FeedOutline.Config.Load
import FeedOutline.Environment.Assignment
import FeedOutline.Text.Case

/-!
The settings of a running program: the configuration, once it is loaded, and the environment. A file of
assignments adds to the environment, and what it adds stays even if the configuration is refused.
-/
namespace FeedOutline

open Disk (Pathname FileTree ReadError HomeFault)
open Log (Record)
open Text (AnyText)

structure Settings where
  config : Option Config := none
  env : Environment := {}
  deriving Repr, BEq, DecidableEq, Inhabited

namespace Settings

def defaultConfigPath : String := "config/config.yaml"

def defaultEnvPath : String := ".env"

inductive LoadError where
  | config (e : Config.LoadError)
  /-- The file of assignments cannot be read. -/
  | unreadable (cause : ReadError)
  /-- A variable in it can have no such name or value. -/
  | badVariable
  deriving Repr, BEq, DecidableEq, Inhabited

structure Source where
  configPath : String := defaultConfigPath
  envPath : String := defaultEnvPath
  /-- Whether there need not be a configuration file. -/
  mayBeMissing : Bool := false
  deriving Repr, BEq, DecidableEq, Inhabited

def ignoresAssignments (env : Environment) : Bool :=
  match env.get? "PYTHON_DOTENV_DISABLED" with
  | some value => ["1", "true", "t", "yes", "y"].contains (Text.lowerString value)
  | none => false

def assignmentText (files : FileTree) (env : Environment) (path : String) : Except ReadError String :=
  if ignoresAssignments env then .ok ""
  else match files.find path with
    | .ok (.file _ _) => files.readText path
    | _ => .ok ""

def extended (files : FileTree) (env : Environment) (path : String) :
    Environment × Except LoadError Unit :=
  match assignmentText files env path with
  | .error e => (env, .error (.unreadable e))
  | .ok text =>
    let added := env.extendFrom text
    (added.env, if added.complete then .ok () else .error .badVariable)

def loadConfig (files : FileTree) (env : Environment) (source : Source) :
    Except Config.LoadError Config :=
  if source.mayBeMissing && !files.has source.configPath then Config.default env
  else Config.load files env source.configPath

/-- Loads the configuration, unless one is loaded already. -/
def load (files : FileTree) (source : Source) (s : Settings) : Settings × Except LoadError Unit :=
  if s.config.isSome then (s, .ok ())
  else
    match extended files s.env source.envPath with
    | (env, .error e) => (⟨none, env⟩, .error e)
    | (env, .ok _) =>
      match loadConfig files env source with
      | .ok c => (⟨some c, env⟩, .ok ())
      | .error e => (⟨none, env⟩, .error (.config e))

def reset (s : Settings) : Settings :=
  { s with config := none }

/-- Where the configuration is looked for if nobody has loaded it; the file need not be there. -/
def usualSource : Source :=
  ⟨defaultConfigPath, defaultEnvPath, true⟩

def current (files : FileTree) (s : Settings) : Settings × Except LoadError Config :=
  let (s, r) := s.load files usualSource
  match r, s.config with
  | .error e, _ => (s, .error e)
  | .ok _, some c => (s, .ok c)
  | .ok _, none => (s, .ok {})

def setVariable (s : Settings) (name value : String) : Settings :=
  { s with env := s.env.set name value }

def unsetVariable (s : Settings) (name : String) : Settings :=
  { s with env := s.env.unset name }

/-- The configured documents, with homes in place of `~`. -/
def outlineFiles (env : Environment) (c : Config) : Except HomeFault (List AnyText) :=
  c.outline.files.mapM (Disk.expandAnyHome env)

inductive Query where
  | outlineFiles
  | treeId
  | ignoreTag
  | logLevel
  | logFormat
  | logFile
  deriving Repr, BEq, DecidableEq, Inhabited

def Query.Result : Query → Type
  | outlineFiles => List AnyText
  | treeId | ignoreTag => AnyText
  | logLevel => String
  | logFormat => Log.Format
  | logFile => Option AnyText

inductive AskError where
  | load (e : LoadError)
  | home (f : HomeFault)
  deriving Repr, BEq, DecidableEq, Inhabited

def Query.answer (env : Environment) (c : Config) : (q : Query) → Except AskError q.Result
  | outlineFiles => (Settings.outlineFiles env c).mapError .home
  | treeId => .ok c.outline.treeId
  | ignoreTag => .ok c.outline.ignoreTag
  | logLevel => .ok c.logging.level
  | logFormat => .ok c.logging.format
  | logFile => .ok c.logging.file

def ask (files : FileTree) (q : Query) (s : Settings) : Settings × Except AskError q.Result :=
  match s.current files with
  | (s, .ok c) => (s, q.answer s.env c)
  | (s, .error e) => (s, .error (.load e))

def say (level : Log.Level) (message : String) : Record :=
  ⟨level, "orgfeed.settings", message⟩

def assignmentRecords (files : FileTree) (env : Environment) (path : String) : List Record :=
  if !files.has path then []
  else match assignmentText files env path with
    | .error _ => []
    | .ok text =>
      let skipped := Environment.malformedLines text
      skipped.map (fun line => ⟨.warning, "dotenv.main",
        "python-dotenv could not parse statement starting at line " ++ toString line⟩) ++
      if (env.extendFrom text).complete then
        [say .info ("Loaded environment variables from " ++ path)]
      else []

def configRecords (files : FileTree) (env : Environment) (source : Source) : List Record :=
  if source.mayBeMissing && !files.has source.configPath then
    say .info ("No configuration file at " ++ source.configPath ++ ", using defaults") ::
      Config.defaultRecords env
  else Config.loadRecords files env source.configPath

def loadRecords (files : FileTree) (source : Source) (s : Settings) : List Record :=
  if s.config.isSome then
    [say .warning "Settings already initialized, ignoring re-initialization"]
  else
    let (after, result) := s.load files source
    assignmentRecords files s.env source.envPath ++
      match result with
      | .error (.unreadable _) | .error .badVariable => []
      | .error (.config _) => configRecords files after.env source
      | .ok _ => configRecords files after.env source ++
          [say .info "Settings facade initialized successfully"]

end Settings

end FeedOutline
