import FeedOutline.Cli.Request
import FeedOutline.Cli.Session
import FeedOutline.Compile.Records
import FeedOutline.Engine
import FeedOutline.Opml.Export
import FeedOutline.Opml.Import

/-!
The commands of the program.
-/
namespace FeedOutline.Cli

open Data (Value)
open Disk (Pathname FileTree)
open Log (Record)
open Run (say print write fail crash)
open Text

/-! ### Before any command -/

def sourceOf (r : Request) : Settings.Source :=
  match r.config with
  | none => ⟨Settings.defaultConfigPath, r.env.text, true⟩
  | some path => ⟨path.text, r.env.text, false⟩

/-- The settings of the log: the level of the command line goes before that of the configuration. -/
def logSettings (r : Request) (c : Config) : Value :=
  .map ([(.text "level", .text (upperString (r.level.getD c.logging.level))),
    (.text "format", .text c.logging.format.name)] ++
    match c.logging.file with
    | some path => if path.isEmpty then [] else Log.withFile path
    | none => [])

def loadSettings (r : Request) : Run Config := do
  let s ← get
  let (settings, result) := s.settings.load s.outputs.files (sourceOf r)
  say (Settings.loadRecords s.outputs.files (sourceOf r) s.settings)
  modify fun s => { s with settings }
  match result with
  | .ok _ => return settings.config.getD {}
  | .error (.config e) =>
    if e.isReported then fail 1 ("Configuration error: " ++ e.message)
    else crash (.settings (.config e))
  | .error e => crash (.settings e)

def setUpLog (r : Request) (c : Config) : Run Unit := do
  let s ← get
  let source : Log.SetupSource := ⟨"", s.settings.env, logSettings r c⟩
  let outcome := Log.setup source s.outputs.files s.logger
  modify fun s => { s with logger := outcome.logger }
  Run.setFiles outcome.files
  match outcome.result with
  | .ok _ => say (Log.setupRecords source s.outputs.files)
  | .error e => crash (.logging e)

def prepare (r : Request) : Run Config := do
  let c ← loadSettings r
  setUpLog r c
  return c

/-! ### The commands -/

/-- The documents of the configuration. Those with a lone surrogate are looked for as they are shown. -/
def configuredDocuments (env : Environment) (c : Config) : Run (List String) :=
  match Settings.outlineFiles env c with
  | .ok files => return files.map AnyText.shown
  | .error f => crash (.home f)

def compileDocuments (r : Request) (documents : List Pathname) : Run RuleTable := do
  let c ← prepare r
  let env := (← get).settings.env
  let names ←
    if documents.isEmpty then configuredDocuments env c else pure (documents.map Pathname.text)
  if names.isEmpty then
    fail 1 "Configuration error: no outline files given and none configured in outline.files"
  else
    say [⟨.debug, "orgfeed.cli", "Compiling " ++ toString names.length ++ " outline file(s): " ++
      joined ", " names⟩]
    let selection : Selection := ⟨c.outline.treeId.shown, c.outline.ignoreTag.shown, Keyword.all⟩
    let compiled := Compile.logged selection env (← Run.files) names
    say compiled.records
    match compiled.result with
    | .ok table => return table
    | .error e =>
      match e with
      | .notFound _ | .unreadable _ _ => fail 1 ("Configuration error: " ++ e.message)
      | .home _ | .unreachable _ => crash (.compile e)

def shownTags (tags : TagSet) : String :=
  if tags.isEmpty then "-" else joined ", " tags.toList

def titleText (title : Option String) (left right : String) : String :=
  match title with
  | some t => if t.isEmpty then "" else left ++ t ++ right
  | none => ""

def keywordLine (r : KeywordRule) : String :=
  "  " ++ r.field.name ++ ": " ++ r.value ++ " -> " ++ shownTags r.addTags

def subscriptionLine (r : SubscriptionRule) : String :=
  "  feed " ++ r.feedUrl ++ titleText r.title " [" "]" ++ " -> " ++ shownTags r.addTags

def runCompile (r : Request) (documents : List Pathname) (showRules : Bool) : Run Unit := do
  let table ← compileDocuments r documents
  print (Compile.summary table)
  if showRules then
    for rule in table.keywordRules do print (keywordLine rule)
    for rule in table.subscriptionRules do print (subscriptionLine rule)

def readSamples (path : String) : Run (List Sample) := do
  let refuse (message : String) : Run (List Sample) :=
    fail 1 ("Error: Could not read entries from " ++ path ++ ": " ++ message)
  match (← Run.files).read path with
  | .error f => refuse (f.message path)
  | .ok bytes =>
    match Yaml.load bytes with
    | .error f => if f.isReported then refuse f.message else crash (.malformed f)
    | .ok d =>
      match Sample.listOf path d with
      | .ok samples => return samples
      | .error (.misfit m) => crash (.misfit m)
      | .error e => fail 1 ("Error: " ++ e.message)

def feedTitle (s : Store) : Value → Option String
  | .scalar (.text url) => (s.feed? url).getD none
  | _ => none

def tagSample (table : RuleTable) (store : Store) (sample : Sample) : Run Unit := do
  let t := sample.apply table
  say (Sample.matchRecords t)
  match t.misfit with
  | some m => crash (.misfit m)
  | none =>
    if !sample.label.isShowable then crash (.misfit .unshowable)
    else if t.sample.hasOddTag then crash (.misfit .unusable)
    else if Sample.isTorn sample.label || t.sample.hasTornTag then crash (.misfit .unwritable)
    else print (sample.label.shown ++ titleText (feedTitle store sample.feedUrl) " (" ")" ++ ": " ++
      shownTags t.sample.tags)

def runTag (r : Request) (entries : Pathname) (documents : List Pathname) : Run Unit := do
  let samples ← readSamples entries.text
  let table ← compileDocuments r documents
  let store : Store := {}
  say (Engine.exportRecords store table ++ [Engine.startRecord table])
  for sample in samples do tagSample table (store.exportTitles table) sample

def runExport (r : Request) (documents : List Pathname) (output : Option Pathname) : Run Unit := do
  let table ← compileDocuments r documents
  let feeds := toString table.feedUrls.length
  let document := Opml.ofTable table Opml.defaultTitle
  say [⟨.debug, "orgfeed.opml", "Exported " ++ feeds ++ " feed(s) to OPML"⟩]
  match output with
  | none => write .out document
  | some path =>
    Run.change path.text ((← Run.files).write path.text (encodeUtf8 document))
    print ("Wrote " ++ feeds ++ " feed(s) to " ++ path.text)

def writeImport (output : Option Pathname) (outline : String) : Run Unit :=
  match output with
  | none => write .out outline
  | some path => do
    Run.change path.text ((← Run.files).append path.text (encodeUtf8 outline))
    print ("Appended imported feeds to " ++ path.text)

/-- An outline with a lone surrogate cannot be written, but the file for it is made. -/
def failImport (output : Option Pathname) : Run Unit := do
  if let some path := output then
    Run.change path.text ((← Run.files).append path.text [])
  crash .torn

def runImport (r : Request) (list : Pathname) (output : Option Pathname) (heading : String) : Run Unit := do
  let c ← prepare r
  match (← Run.files).readText list.text with
  | .error e => crash (.unreadable e)
  | .ok text =>
    match Opml.readItems text with
    | .error e => fail 1 ("Error: " ++ e.message)
    | .ok items =>
      say [⟨.info, "orgfeed.opml", "Imported " ++ toString (Opml.feedCountOf items) ++
        " feed(s) from OPML"⟩]
      match c.outline.treeId with
      | .torn _ => failImport output
      | .whole marker => writeImport output (Opml.outlineOf marker heading items)

def runRequest (r : Request) : Run Unit :=
  match r.command with
  | .compile documents showRules => runCompile r documents showRules
  | .tag entries documents => runTag r entries documents
  | .exportList documents output => runExport r documents output
  | .importList list output heading => runImport r list output heading

/-! ### The program -/

def versionText : String :=
  "orgfeed, version 0.1.0\n"

def helpText : String :=
  "Usage: orgfeed [--config PATH] [--env PATH] [--log-level LEVEL] COMMAND\n\n" ++
  "  orgfeed compile [FILES...] [--show-rules]\n" ++
  "  orgfeed tag ENTRIES_FILE [FILES...]\n" ++
  "  orgfeed export-opml [FILES...] [-o OUT]\n" ++
  "  orgfeed import-opml OPML_FILE [-o OUT] [--heading TEXT]\n"

def runArguments (args : List String) : Run Unit := do
  if args.isEmpty then
    write .err helpText
    throw (.exit 2)
  else match Asked.ofArguments (← Run.files) args with
    | .error .badPath => crash .badPath
    | .error e => fail 2 ("Error: " ++ e.message)
    | .ok .version => write .out versionText
    | .ok .help => write .out helpText
    | .ok (.request r) => runRequest r

structure Ended where
  result : Except Crash Nat
  outputs : Log.Outputs
  deriving Inhabited

def run (env : Environment) (files : FileTree) (time : Data.Decimal) (args : List String) : Ended :=
  let session : Session := ⟨⟨none, env⟩, {}, { files := files }, time⟩
  match (runArguments args).run.run session with
  | (.ok _, s) => ⟨.ok 0, s.outputs⟩
  | (.error (.exit code), s) => ⟨.ok code, s.outputs⟩
  | (.error (.crash c), s) => ⟨.error c, s.outputs⟩

end FeedOutline.Cli
