import FeedOutline.Data.Document
import FeedOutline.Environment
import FeedOutline.Log.Record
import FeedOutline.Text.Blank
import FeedOutline.Text.Case
import FeedOutline.Text.Split

/-!
Environment variables `ORGFEED_SECTION_KEY` that override the configuration.
-/
namespace FeedOutline.Config

open Data (Value Mapping Document)
open Log (Record)
open Text

/-- Items between commas, or between colons if there is no comma; blank ones do not count. -/
def splitList (s : String) : List String :=
  let sep := if s.toList.contains ',' then ',' else ':'
  ((splitOn sep s.toList).map fun part => String.ofList (trim part)).filter (!·.isEmpty)

structure Override where
  sectionName : String
  key : String
  value : Value
  deriving Repr, BEq, Inhabited

inductive VariableError where
  | noKey (name : String)
  | unknownSection (name : String)
  deriving Repr, BEq, DecidableEq, Inhabited

def VariableError.message : VariableError → String
  | noKey name =>
    "Invalid environment variable format: " ++ name ++ " (expected ORGFEED_<SECTION>_<KEY>)"
  | unknownSection name => "Unknown configuration section in environment variable: " ++ name

def variableStart : String :=
  "ORGFEED_"

def sectionOf? (word : List Char) : Option String :=
  [("OUTLINE", "outline"), ("LOGGING", "logging")].lookup (String.ofList word)

def overrideValue (sectionName key value : String) : Value :=
  if sectionName == "outline" && key == "files" then .list ((splitList value).map Value.text)
  else .text value

def Override.ofVariable? (name value : String) : Option (Except VariableError Override) :=
  (afterStart? variableStart.toList name.toList).map fun rest =>
    let word := rest.takeWhile (· != '_')
    match rest.dropWhile (· != '_') with
    | [] => .error (.noKey name)
    | _ :: keyChars =>
      match sectionOf? word with
      | none => .error (.unknownSection name)
      | some sectionName =>
        let key := String.ofList (lower keyChars)
        .ok ⟨sectionName, key, overrideValue sectionName key value⟩

def overridesOf (vars : Variables) : List Override :=
  vars.filterMap fun (name, value) => (Override.ofVariable? name value).bind Except.toOption

/-- Changes a section wherever it stands. A section that is no mapping is replaced by one. -/
def Override.apply (d : Document) (o : Override) : Document :=
  match d.child? d.start d.entries o.sectionName with
  | some (place, .map _) => d.change (·.put o.key o.value) place
  | _ => d.set (.text o.sectionName) (.map [(.text o.key, o.value)])

def applyOverrides (vars : Variables) (d : Document) : Document :=
  (overridesOf vars).foldl Override.apply d

def variableRecord (v : String × String) : Option Record :=
  match Override.ofVariable? v.1 v.2 with
  | some (.error e) => some ⟨.warning, "orgfeed.config_loader", e.message⟩
  | _ => none

def overrideRecords (vars : Variables) : List Record :=
  let applied := overridesOf vars
  vars.filterMap variableRecord ++
    if applied.isEmpty then []
    else [⟨.info, "orgfeed.config_loader",
      "Applied " ++ toString applied.length ++ " environment variable overrides: " ++
        joined ", " (applied.map fun o => o.sectionName ++ "." ++ o.key ++ "=" ++ o.value.shown)⟩]

end FeedOutline.Config
