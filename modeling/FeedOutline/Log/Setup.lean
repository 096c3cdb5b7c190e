import FeedOutline.Data.Document
import FeedOutline.Environment
import FeedOutline.Log.Logger
import FeedOutline.Text.Case
import FeedOutline.Yaml.Load

/-!
Setting up the logger. Settings come from the defaults, a file, the environment and the caller, each of
which wins over those before it. A setup that fails half way leaves the logger as far as it was set up.
-/
namespace FeedOutline.Log

open Data (Value Mapping Scalar Document)
open Disk (Pathname FileTree ReadError)
open Text

inductive SetupError where
  | notFound (path : String)
  | unreachable (f : Disk.Fault)
  | unreadable (cause : ReadError)
  | malformed (f : Yaml.Fault)
  /-- Something without entries where a mapping is wanted, or without letters where a level is. -/
  | wrongKind
  /-- Something that cannot serve as what it is given for: a list as a whole configuration, a number as a
  path, a text as a size. -/
  | unusable
  /-- A word that is reserved and stands for no level. -/
  | badLevel
  /-- A path with the character zero. -/
  | badPath
  /-- A path with a lone surrogate. -/
  | tornPath
  /-- An integer that has too many digits to be shown. -/
  | tooLong
  /-- The log file or its directory cannot be made. -/
  | unwritable (f : Disk.Fault)
  deriving Repr, BEq, DecidableEq, Inhabited

def SetupError.message : SetupError → String
  | notFound path => "Logging config file not found: " ++ path
  | unreachable f => f.text
  | unreadable cause => cause.message
  | malformed f => f.message
  | wrongKind => "a value of the wrong kind"
  | unusable => "a value that cannot be used"
  | badLevel => "a word that stands for no level"
  | badPath => "a path with the character zero"
  | tornPath => "a path with a lone surrogate"
  | tooLong => "a number with too many digits"
  | unwritable f => f.text

def defaults : Mapping :=
  [(.text "level", .text "INFO"), (.text "format", .text "plain"),
   (.text "handlers", .map
    [(.text "console", .map
      [(.text "enabled", .bool true), (.text "level", .text "INFO"), (.text "stream", .text "stderr")]),
     (.text "file", .map
      [(.text "enabled", .bool false), (.text "path", .text "logs/orgfeed.log"),
       (.text "level", .text "INFO"), (.text "max_bytes", .int 10485760),
       (.text "backup_count", .int 5)])])]

def defaultLevel : String :=
  "INFO"

/-! ### The sources -/

def withFile (path : AnyText) : Mapping :=
  [(.text "handlers", .map [(.text "file", .map
    [(.text "enabled", .bool true), (.text "path", .ofText path)])])]

/-- The part of a file that is about logging: its section of that name, or all of it. -/
def loggingPart (d : Document) : Except SetupError Document :=
  match d.view d.value with
  | .map m =>
    match Mapping.get? m "logging" with
    | some part => .ok { d with value := if (d.view part).isEmpty then .map [] else part }
    | none => .ok d
  | .scalar (.text s) => if containsString "logging" s then .error .unusable else .ok d
  | .scalar (.torn t) => if t.contains "logging" then .error .unusable else .ok d
  | _ => .error .unusable

/-- A path under `file` makes a file handler; anything else there does not count. -/
def ofPart (d : Document) : Except SetupError Document :=
  match d.view d.value with
  | .map m =>
    let rest := d.change (Mapping.erase · "file") d.start
    match (Mapping.get? m "file").bind Value.anyText? with
    | some path => .ok (if path.isEmpty then rest else rest.merge (withFile path))
    | none => .ok rest
  | .scalar _ => .error .wrongKind
  | _ => .error .unusable

def ofDocument (d : Document) : Except SetupError Document := do
  let d ← ofPart (← loggingPart (if (d.view d.value).isEmpty then .empty else d))
  return { d with value := .map d.entries }

def fromBytes (bytes : Bytes) : Except SetupError Document :=
  match Yaml.load bytes with
  | .error f => .error (.malformed f)
  | .ok d => ofDocument d

def fromFile (files : FileTree) (name : String) : Except SetupError Document :=
  let path := (Pathname.ofText name).text
  match files.isThere path with
  | .ok false => .error (.notFound path)
  | .error f => .error (.unreachable f)
  | .ok true =>
    match files.read path with
    | .error f => .error (.unreadable (.file f path))
    | .ok bytes => fromBytes bytes

/-- Gives a handler entries, which stand over those that it has; it is made if it is not there. -/
def setHandler (name : String) (entries : Mapping) (d : Document) : Except SetupError Document :=
  match d.child? d.start d.entries "handlers" with
  | none => .ok (d.change (·.put "handlers" (.map [(.text name, .map entries)])) d.start)
  | some (handlers, .map m) =>
    match d.child? handlers m name with
    | none => .ok (d.change (·.put name (.map entries)) handlers)
    | some (handler, .map _) => .ok (d.change (Mapping.merge · entries) handler)
    | some _ => .error .unusable
  | some _ => .error .wrongKind

def truthWords : List String :=
  ["true", "1", "yes", "on"]

def withEnvironment (env : Environment) (d : Document) : Except SetupError Document := do
  let d := match env.get? "LOG_LEVEL" with
    | some s => d.set (.text "level") (.text (upperString s))
    | none => d
  let d := match env.get? "LOG_FORMAT" with
    | some s => d.set (.text "format") (.text (lowerString s))
    | none => d
  let d ← match env.get? "LOG_FILE" with
    | some s => setHandler "file" [(.text "path", .text s), (.text "enabled", .bool true)] d
    | none => pure d
  match env.get? "LOG_CONSOLE" with
  | some s => setHandler "console" [(.text "enabled", .bool (truthWords.contains (lowerString s)))] d
  | none => pure d

/-- The entries of a document's mapping. Only the level and the format are ever shown as a whole; of the
others nothing below the settings of a handler is looked at. -/
def entriesOf (d : Document) : Mapping :=
  d.entries.map fun (k, v) =>
    (k, if k == .text "level" || k == .text "format" then d.unfold v else d.expand 4 v)

structure SetupSource where
  /-- The file, if its name is not empty. -/
  configPath : String := ""
  env : Environment := {}
  /-- The caller's own settings. -/
  overrides : Value := .null
  deriving Repr, BEq, Inhabited

def SetupSource.over (source : SetupSource) (d : Document) : Except SetupError Mapping := do
  let m := entriesOf (← withEnvironment source.env d)
  if source.overrides.isEmpty then return m
  else match source.overrides with
    | .map o => return Mapping.merge m o
    | _ => .error .wrongKind

def SetupSource.document (source : SetupSource) (files : FileTree) : Except SetupError Document :=
  if source.configPath.isEmpty then .ok .empty else fromFile files source.configPath

def explicitSettings (files : FileTree) (source : SetupSource) : Except SetupError Mapping := do
  source.over (← source.document files)

/-- The defaults, in which a level is that of every handler. -/
def defaultsAt (level : Option Value) : Mapping :=
  match level with
  | none => defaults
  | some v => Mapping.merge defaults [(.text "handlers", .map
      [(.text "console", .map [(.text "level", v)]), (.text "file", .map [(.text "level", v)])])]

def settingsOf (explicit : Mapping) : Mapping :=
  Mapping.merge (defaultsAt (explicit.get? "level")) explicit

/-! ### The logger -/

def levelWords : List (String × Level) :=
  [("CRITICAL", 50), ("FATAL", 50), ("ERROR", 40), ("WARNING", 30), ("WARN", 30), ("INFO", 20),
   ("DEBUG", 10), ("NOTSET", 0)]

def levelOf (word : String) : Except SetupError Level :=
  if word == "BASIC_FORMAT" then .error .badLevel
  else if word == "_STYLES" then .error .unusable
  else .ok ((levelWords.lookup word).getD Level.info)

def entry (m : Mapping) (key : String) (otherwise : Value) : Value :=
  (m.get? key).getD otherwise

/-- The level of the logger may be anything; only a word in it counts. -/
def topLevel (settings : Mapping) : Except SetupError Level :=
  let level := entry settings "level" (.text "INFO")
  if level.isShowable then levelOf (upperString level.shown) else .error .tooLong

/-- The level of a handler must be a word; none that is known has a lone surrogate in it. -/
def handlerLevel : Value → Except SetupError Level
  | .scalar (.text s) => levelOf (upperString s)
  | .scalar (.torn _) => .ok Level.info
  | .scalar (.bytes _) => .error .unusable
  | _ => .error .wrongKind

def asMapping : Value → Except SetupError Mapping
  | .map m => .ok m
  | _ => .error .wrongKind

def handlerSettings (settings : Mapping) (name : String) : Except SetupError Mapping := do
  let handlers ← asMapping (entry settings "handlers" (.map []))
  asMapping (entry handlers name (.map []))

def levelEntry (settings handler : Mapping) : Value :=
  entry handler "level" (entry settings "level" (.text "INFO"))

def formatOf (settings : Mapping) : Format :=
  match entry settings "format" (.text "plain") with
  | .scalar (.text s) => .ofName s
  | _ => .plain

def consoleHandler (settings : Mapping) : Except SetupError (Option Handler) := do
  let console ← handlerSettings settings "console"
  if (entry console "enabled" (.bool true)).isEmpty then return none
  else
    let stream := if (entry console "stream" .null).text? == some "stdout" then .out else .err
    return some ⟨.console stream, ← handlerLevel (levelEntry settings console), formatOf settings⟩

structure FilePlan where
  path : AnyText
  maxBytes : Value
  backupCount : Value
  level : Value
  format : Format
  deriving Repr, BEq, Inhabited

def filePlan (settings : Mapping) : Except SetupError (Option FilePlan) := do
  let file ← handlerSettings settings "file"
  if (entry file "enabled" (.bool false)).isEmpty then return none
  else match (entry file "path" (.text "logs/orgfeed.log")).anyText? with
    | some path =>
      return some ⟨path, entry file "max_bytes" (.int 10485760), entry file "backup_count" (.int 5),
        levelEntry settings file, formatOf settings⟩
    | none => .error .unusable

/-- A path that the system can be asked for. -/
def askable (p : Pathname) : Except SetupError Pathname :=
  if p.text.toList.contains '\x00' then .error .badPath else .ok p

namespace FilePlan

def file (p : FilePlan) : Except SetupError Pathname :=
  match p.path with
  | .whole path => askable (.ofText path)
  | .torn _ => .error .tornPath

/-- The directory of the log file. It can be there although its last name has a surrogate. -/
def directory (p : FilePlan) : Except SetupError Pathname :=
  let shown := Pathname.ofText p.path.shown
  match p.path with
  | .whole _ => askable shown.parent
  | .torn path =>
    let front := path.marks.takeWhile (!·.isSurrogate)
    let upTo := Pathname.ofText (String.ofList (front.filterMap Mark.char? ++ ['x']))
    if upTo.names.length = shown.names.length then askable shown.parent else .error .tornPath

end FilePlan

/-- Opens the log file, which is made if it is not there. Its directory is made before. -/
def openFile (p : FilePlan) (t : FileTree) : FileTree × Except SetupError (List String) :=
  match p.directory with
  | .error e => (t, .error e)
  | .ok directory =>
    match t.makeDirectories directory with
    | (t, .error f) => (t, .error (.unwritable f))
    | (t, .ok _) =>
      if (sizeLimit? p.maxBytes).isNone then (t, .error .unusable)
      else match p.file with
        | .error e => (t, .error e)
        | .ok file =>
          let names := file.absolute t.here
          match t.append ("/" ++ joined "/" names) [] with
          | .ok t => (t, .ok names)
          | .error f => (t, .error (.unwritable f))

/-- The file handler. The file is there even if the level is refused. -/
def fileHandler (plan : FilePlan) (t : FileTree) : FileTree × Except SetupError Handler :=
  match openFile plan t with
  | (t, .error e) => (t, .error e)
  | (t, .ok names) =>
    (t, (handlerLevel plan.level).map fun level =>
      ⟨.file names plan.maxBytes plan.backupCount, level, plan.format⟩)

structure SetupOutcome where
  logger : Logger
  files : FileTree
  result : Except SetupError Unit
  deriving Inhabited

/-- Gives the logger its level, takes away its handlers, and then gives it new ones. -/
def configure (settings : Mapping) (files : FileTree) (old : Logger) : SetupOutcome :=
  match topLevel settings with
  | .error e => ⟨old, files, .error e⟩
  | .ok level =>
    match consoleHandler settings with
    | .error e => ⟨⟨level, false, []⟩, files, .error e⟩
    | .ok console =>
      match filePlan settings with
      | .error e => ⟨⟨level, false, console.toList⟩, files, .error e⟩
      | .ok none => ⟨⟨level, false, console.toList⟩, files, .ok ()⟩
      | .ok (some plan) =>
        match fileHandler plan files with
        | (files, .error e) => ⟨⟨level, false, console.toList⟩, files, .error e⟩
        | (files, .ok file) => ⟨⟨level, false, console.toList ++ [file]⟩, files, .ok ()⟩

def setup (source : SetupSource) (files : FileTree) (old : Logger) : SetupOutcome :=
  match explicitSettings files source with
  | .error e => ⟨old, files, .error e⟩
  | .ok explicit =>
    let settings := settingsOf explicit
    let outcome := configure settings files old
    if outcome.result.toOption.isSome && !(entry settings "format" .null).isShowable then
      { outcome with result := .error .tooLong }
    else outcome

def setupRecords (source : SetupSource) (files : FileTree) : List Record :=
  match explicitSettings files source with
  | .error _ => []
  | .ok explicit =>
    let settings := settingsOf explicit
    ⟨.debug, topName, "Logging initialized: level=" ++ (entry settings "level" .null).shown ++
      ", format=" ++ (entry settings "format" .null).shown⟩ ::
    if source.configPath.isEmpty then []
    else [⟨.debug, topName, "Logging configuration loaded from: " ++ source.configPath⟩]

end FeedOutline.Log
