import FeedOutline.Cli.Arguments
import FeedOutline.Disk.FileTree
import FeedOutline.Settings
import FeedOutline.Text.Case

/-!
What a command line asks for.
-/
namespace FeedOutline.Cli

open Disk (Pathname FileTree)
open Text

inductive Command where
  | compile (documents : List Pathname) (showRules : Bool)
  | tag (entries : Pathname) (documents : List Pathname)
  | exportList (documents : List Pathname) (output : Option Pathname)
  | importList (list : Pathname) (output : Option Pathname) (heading : String)
  deriving Repr, BEq, DecidableEq, Inhabited

structure Request where
  config : Option Pathname := none
  env : Pathname := Pathname.ofText Settings.defaultEnvPath
  level : Option String := none
  command : Command
  deriving Repr, BEq, DecidableEq, Inhabited

inductive Asked where
  | request (r : Request)
  | version
  | help
  deriving Repr, BEq, DecidableEq, Inhabited

def helpOption : Opt :=
  ⟨"help", ["--help"], false⟩

def outputOption : Opt :=
  ⟨"output", ["-o", "--output"], true⟩

def levelOption : Opt :=
  ⟨"level", ["--log-level"], true⟩

def generalOptions : List Opt :=
  [⟨"version", ["--version"], false⟩, ⟨"config", ["--config"], true⟩,
    ⟨"env", ["--env"], true⟩, levelOption, helpOption]

def levelChoices : List String :=
  ["DEBUG", "INFO", "WARNING", "ERROR"]

def chooseLevel (value : String) : Except UsageError String :=
  match levelChoices.find? fun c => lowerString c == lowerString value with
  | some level => .ok level
  | none => .error (.badChoice levelOption.place value (levelChoices.map lowerString))

def checkPath (path : String) : Except UsageError Pathname :=
  if path.toList.contains '\x00' then .error .badPath else .ok (Pathname.ofText path)

def checkInput (files : FileTree) (place path : String) : Except UsageError Pathname :=
  if path.toList.contains '\x00' then .error .badPath
  else if !files.has path then .error (.noSuchFile place path)
  else if files.isDirectory path then .error (.notAFile place path)
  else .ok (Pathname.ofText path)

def checkOutput (files : FileTree) (path : String) : Except UsageError Pathname :=
  if files.isDirectory path then .error (.notAFile outputOption.place path) else checkPath path

def outputOf (files : FileTree) (a : Arguments) : Except UsageError (Option Pathname) :=
  match a.value? outputOption.name with
  | some path => (checkOutput files path).map some
  | none => .ok none

structure CommandReader where
  name : String
  options : List Opt
  command : FileTree → Arguments → Except UsageError Command

def compileReader : CommandReader where
  name := "compile"
  options := [⟨"show-rules", ["--show-rules"], false⟩, helpOption]
  command _ a := do return .compile (← a.words.mapM checkPath) (a.has "show-rules")

def tagReader : CommandReader where
  name := "tag"
  options := [helpOption]
  command files a :=
    match a.words with
    | [] => .error (.missingArgument "'ENTRIES_FILE'")
    | entries :: documents => do
      return .tag (← checkInput files "'ENTRIES_FILE'" entries) (← documents.mapM checkPath)

def exportReader : CommandReader where
  name := "export-opml"
  options := [outputOption, helpOption]
  command files a := do
    let output ← outputOf files a
    return .exportList (← a.words.mapM checkPath) output

def importReader : CommandReader where
  name := "import-opml"
  options := [outputOption, ⟨"heading", ["--heading"], true⟩, helpOption]
  command files a := do
    let output ← outputOf files a
    match a.words with
    | [] => .error (.missingArgument "'OPML_FILE'")
    | list :: more =>
      let path ← checkInput files "'OPML_FILE'" list
      if more.isEmpty then return .importList path output ((a.value? "heading").getD "Imported feeds")
      else .error (.unexpected more)

def commandReaders : List CommandReader :=
  [compileReader, exportReader, importReader, tagReader]

structure General where
  config : Option Pathname := none
  env : Pathname := Pathname.ofText Settings.defaultEnvPath
  level : Option String := none
  words : List String := []
  deriving Repr, BEq, DecidableEq, Inhabited

def aboutProgram? (a : Arguments) : Option Asked :=
  a.options.findSome? fun o =>
    if o.1 == "version" then some .version else if o.1 == "help" then some .help else none

/-- Options are checked in the order in which they are first given. -/
def checkGeneral (a : Arguments) : Except UsageError Unit :=
  (a.options.map (·.1)).eraseDups.forM fun name =>
    let value := (a.value? name).getD ""
    if name == levelOption.name then discard (chooseLevel value) else discard (checkPath value)

def readGeneral (args : List String) : Except UsageError (Asked ⊕ General) := do
  let a ← Arguments.read generalOptions false args
  match aboutProgram? a with
  | some asked => return .inl asked
  | none =>
    checkGeneral a
    let level ← (a.value? levelOption.name).mapM chooseLevel
    return .inr ⟨(a.value? "config").map Pathname.ofText,
      Pathname.ofText ((a.value? "env").getD Settings.defaultEnvPath), level, a.words⟩

/-- A word that names no command is read as an option once more, since it may be one that follows two
dashes. -/
def unknownCommand (name : String) (args : List String) : Except UsageError Asked := do
  match ← readGeneral args with
  | .inl asked => return asked
  | .inr _ => .error (.noSuchCommand name (closeWords name (commandReaders.map (·.name))))

/-- Reads a command line. Some files are looked up, as their presence is part of what is right. -/
def Asked.ofArguments (files : FileTree) (args : List String) : Except UsageError Asked := do
  match ← readGeneral args with
  | .inl asked => return asked
  | .inr general =>
    match general.words with
    | [] => .error .missingCommand
    | name :: rest =>
      match commandReaders.find? (·.name == name) with
      | none => unknownCommand name (name :: rest)
      | some reader =>
        let a ← Arguments.read reader.options true rest
        if a.has helpOption.name then return .help
        else
          let command ← reader.command files a
          return .request ⟨general.config, general.env, general.level, command⟩

end FeedOutline.Cli
