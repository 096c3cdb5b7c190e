import FeedOutline.Config.Override
import FeedOutline.Config.Schema
import FeedOutline.Disk.FileTree
import FeedOutline.Yaml.Load

/-!
Loading a configuration from a file, overridden by environment variables.
-/
namespace FeedOutline.Config

open Data (Value Mapping Document)
open Disk (Pathname FileTree ReadError)
open Log (Record)
open Text

inductive LoadError where
  /-- There is no file under the name that was given. -/
  | notFound (name : String)
  | missing (path : String)
  | unreachable (f : Disk.Fault)
  | unreadable (cause : ReadError)
  | malformed (path : String) (f : Yaml.Fault)
  | notMapping (path kind : String)
  | keyNotText
  | invalid (issues : List Issue)
  /-- The message that says what is wrong with a level cannot be made. -/
  | unprintable (level : Torn)
  deriving Repr, BEq, DecidableEq, Inhabited

def Issue.text (i : Issue) : String :=
  joined "." i.place ++ ": " ++ i.problem.message

def issuesMessage (issues : List Issue) : String :=
  "Configuration validation failed: " ++ joined "; " (issues.map Issue.text)

def LoadError.message : LoadError → String
  | notFound name => "Configuration file not found: " ++ name
  | missing path => "Config file not found: " ++ path
  | unreachable f => f.text
  | unreadable cause => cause.message
  | malformed path f => "YAML parse error in " ++ path ++ ": " ++ f.message
  | notMapping path kind => "Config file " ++ path ++ " must contain a mapping, got " ++ kind
  | keyNotText => "keywords must be strings"
  | invalid issues => issuesMessage issues
  | unprintable level => "surrogates not allowed: " ++ level.quoted

/-- Errors that the program reports; the others end it. -/
def LoadError.isReported : LoadError → Bool
  | notFound _ | missing _ | notMapping _ _ | invalid _ => true
  | malformed _ f => f.isReported
  | unreachable _ | unreadable _ | keyNotText | unprintable _ => false

/-- The mapping in the bytes of a file. An empty file is an empty mapping. -/
def documentOfBytes (path : String) (bytes : Bytes) : Except LoadError Document :=
  match Yaml.load bytes with
  | .error f => .error (.malformed path f)
  | .ok d =>
    match d.view d.value with
    | .scalar .null => .ok .empty
    | .map _ => .ok d
    | v => .error (.notMapping path v.kindName)

def readDocument (files : FileTree) (path : String) : Except LoadError Document :=
  if !files.has path then .error (.missing path)
  else match files.read path with
    | .error f => .error (.unreadable (.file f path))
    | .ok bytes => documentOfBytes path bytes

def Refusal.toError : Refusal → LoadError
  | issues is => .invalid is
  | unprintable level => .unprintable level

def ofMapping (m : Mapping) : Except LoadError Config :=
  if m.any fun e => match e.1 with
    | .text _ | .torn _ => false
    | _ => true
  then .error .keyNotText
  else (check m).mapError Refusal.toError

/-- Checks the mapping of a document. Nothing is looked at below the items of a list in a section. -/
def ofDocument (d : Document) : Except LoadError Config :=
  ofMapping (((d.expand 4 d.value).map?).getD [])

/-- The configuration in a file, or that of an empty file if there need be none. -/
def load (files : FileTree) (env : Environment) (name : String) : Except LoadError Config :=
  let path := (Pathname.ofText name).text
  match files.isThere path with
  | .ok false => .error (.notFound name)
  | .error f => .error (.unreachable f)
  | .ok true => do
    let d ← readDocument files path
    ofDocument (applyOverrides env.vars d)

def checkRecords (d : Document) : List Record :=
  match ofDocument d with
  | .ok _ => [⟨.debug, "orgfeed.config_loader", "Configuration validated successfully"⟩]
  | .error (.invalid issues) => [⟨.error, "orgfeed.config_loader", issuesMessage issues⟩]
  | .error _ => []

def loadRecords (files : FileTree) (env : Environment) (name : String) : List Record :=
  let path := (Pathname.ofText name).text
  if files.has path then
    ⟨.info, "orgfeed.config_loader", "Loading configuration from " ++ path⟩ ::
      match readDocument files path with
      | .error _ => []
      | .ok d => overrideRecords env.vars ++ checkRecords (applyOverrides env.vars d)
  else []

def default (env : Environment) : Except LoadError Config :=
  ofDocument (applyOverrides env.vars .empty)

def defaultRecords (env : Environment) : List Record :=
  overrideRecords env.vars ++ checkRecords (applyOverrides env.vars .empty)

end FeedOutline.Config
