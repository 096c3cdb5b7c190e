import FeedOutline.Data.Value
import FeedOutline.Log.Format
import FeedOutline.Text.Blank
import FeedOutline.Text.Case
import FeedOutline.Text.Utf8

/-!
The configuration, and how a mapping is checked against it. All that is wrong is reported at once, in
the order of the fields.
-/
namespace FeedOutline

open Data (Value Mapping)
open Text

structure Config.OutlineSection where
  files : List AnyText := []
  treeId : AnyText := "elfeed"
  ignoreTag : AnyText := "ignore"
  deriving Repr, BEq, DecidableEq, Inhabited

structure Config.LoggingSection where
  level : String := "INFO"
  format : Log.Format := .plain
  file : Option AnyText := none
  deriving Repr, BEq, DecidableEq, Inhabited

structure Config where
  outline : Config.OutlineSection := {}
  logging : Config.LoggingSection := {}
  deriving Repr, BEq, DecidableEq, Inhabited

namespace Config

inductive Problem where
  | notText
  /-- Bytes that are no text, or a lone surrogate where one word of a few is wanted. -/
  | notUnicode
  | notList
  | notSection (name : String)
  | unknownFormat
  | unknownKey
  | emptyTag
  | badTag (tag : AnyText)
  | emptyPath (paths : List AnyText)
  | unknownLevel (level : String)
  deriving Repr, BEq, DecidableEq, Inhabited

def Problem.sort : Problem → String
  | notText => "string_type"
  | notUnicode => "string_unicode"
  | notList => "list_type"
  | notSection _ => "model_type"
  | unknownFormat => "literal_error"
  | unknownKey => "extra_forbidden"
  | emptyTag | badTag _ | emptyPath _ | unknownLevel _ => "value_error"

def Problem.message : Problem → String
  | notText => "Input should be a valid string"
  | notUnicode => "Input should be a valid string, unable to parse raw data as a unicode string"
  | notList => "Input should be a valid list"
  | notSection name => "Input should be a valid dictionary or instance of " ++ name
  | unknownFormat => "Input should be 'plain' or 'json'"
  | unknownKey => "Extra inputs are not permitted"
  | emptyTag => "Value error, Tag name cannot be empty"
  | badTag tag => "Value error, Tag name cannot contain whitespace or ':': " ++ tag.quoted
  | emptyPath paths => "Value error, Outline file path cannot be empty: [" ++
      joined ", " (paths.map AnyText.quoted) ++ "]"
  | unknownLevel level => "Value error, Invalid log level: " ++ level

structure Issue where
  place : List String
  problem : Problem
  deriving Repr, BEq, DecidableEq, Inhabited

/-- Why a mapping is no configuration. -/
inductive Refusal where
  | issues (is : List Issue)
  /-- A level whose lone surrogate keeps its issue from being put into words. -/
  | unprintable (level : Torn)
  deriving Repr, BEq, DecidableEq, Inhabited

def Refusal.below (key : String) : Refusal → Refusal
  | issues is => .issues (is.map fun i => { i with place := key :: i.place })
  | unprintable level => .unprintable level

abbrev Checked (α : Type) := Except Refusal α

/-- Two checks; the issues of both are kept. A level that cannot be put into words ends all checks. -/
def Checked.both (x : Checked α) (y : Checked β) : Checked (α × β) :=
  match x, y with
  | .ok a, .ok b => .ok (a, b)
  | .error (.issues is), .error (.issues js) => .error (.issues (is ++ js))
  | .error (.issues _), .error e => .error e
  | .error e, _ => .error e
  | .ok _, .error e => .error e

def refuse (problem : Problem) : Checked α :=
  .error (.issues [⟨[], problem⟩])

def field (m : Mapping) (key : String) (default : α) (check : Value → Checked α) : Checked α :=
  match m.get? key with
  | none => .ok default
  | some v => (check v).mapError (Refusal.below key)

def checkText : Value → Checked AnyText
  | .scalar (.text s) => .ok s
  | .scalar (.torn t) => .ok (.torn t)
  | .scalar (.bytes bytes) =>
    match decodeUtf8 bytes with
    | .ok s => .ok s
    | .error _ => refuse .notUnicode
  | _ => refuse .notText

/-- A surrogate is no white space. -/
def isBlankText : AnyText → Bool
  | .whole s => isBlankString s
  | .torn _ => false

def checkTag (v : Value) : Checked AnyText := do
  let s ← checkText v
  if isBlankText s then refuse .emptyTag
  else if s.chars.any fun c => isBlank c || c == ':' then refuse (.badTag s)
  else return s

def checkItems (i : Nat) : List Value → Checked (List AnyText)
  | [] => .ok []
  | v :: vs =>
    (Checked.both ((checkText v).mapError (Refusal.below (toString i))) (checkItems (i + 1) vs)).map
      fun (s, ss) => s :: ss

def checkList : Value → Checked (List Value)
  | .list items => .ok items
  | .set items => .ok (items.map .scalar)
  | _ => refuse .notList

def checkFiles (v : Value) : Checked (List AnyText) := do
  let paths ← checkItems 0 (← checkList v)
  if paths.any isBlankText then refuse (.emptyPath paths) else return paths

def levelNames : List String :=
  ["DEBUG", "INFO", "WARNING", "ERROR", "CRITICAL"]

def checkLevel (v : Value) : Checked String := do
  match ← checkText v with
  | .torn level => .error (.unprintable level)
  | .whole s =>
    let level := trimString (upperString s)
    if levelNames.contains level then return level else refuse (.unknownLevel s)

def checkFormat (v : Value) : Checked Log.Format :=
  match v.anyText? with
  | some (.torn _) => refuse .notUnicode
  | s =>
    if s == some "plain" then .ok .plain
    else if s == some "json" then .ok .json
    else refuse .unknownFormat

def checkFile (v : Value) : Checked (Option AnyText) :=
  match v with
  | .scalar .null => .ok none
  | v => (checkText v).map some

def checkOutline : Value → Checked OutlineSection
  | .map m =>
    (Checked.both (field m "files" [] checkFiles)
      (Checked.both (field m "tree_id" ("elfeed" : AnyText) checkTag)
        (field m "ignore_tag" ("ignore" : AnyText) checkTag))).map
      fun (files, treeId, ignoreTag) => ⟨files, treeId, ignoreTag⟩
  | _ => refuse (.notSection "OutlineConfig")

def checkLogging : Value → Checked LoggingSection
  | .map m =>
    (Checked.both (field m "level" "INFO" checkLevel)
      (Checked.both (field m "format" Log.Format.plain checkFormat)
        (field m "file" none checkFile))).map
      fun (level, format, file) => ⟨level, format, file⟩
  | _ => refuse (.notSection "LoggingConfig")

def sectionNames : List String :=
  ["outline", "logging"]

def checkKeys (m : Mapping) : Checked Unit :=
  let unknown := m.filterMap fun (k, _) =>
    match k with
    | .text s => if sectionNames.contains s then none else some s
    | _ => none
  if unknown.isEmpty then .ok () else .error (.issues (unknown.map fun k => ⟨[k], .unknownKey⟩))

def hasTornKey (m : Mapping) : Bool :=
  m.any fun e => match e.1 with
    | .torn _ => true
    | _ => false

def checkSections (m : Mapping) : Checked Config :=
  (Checked.both (field m "outline" {} checkOutline) (field m "logging" {} checkLogging)).map
    fun (outline, logging) => ⟨outline, logging⟩

/-- Checks a whole mapping. Unknown keys are refused at the top, and passed over in a section. A lone
surrogate in a key at the top is the only issue then. -/
def check (m : Mapping) : Checked Config :=
  match checkSections m with
  | .error (.unprintable level) => .error (.unprintable level)
  | sections =>
    if hasTornKey m then refuse .notUnicode
    else (Checked.both sections (checkKeys m)).map Prod.fst

def toMapping (c : Config) : Mapping :=
  [(.text "outline", .map [(.text "files", .list (c.outline.files.map Value.ofText)),
     (.text "tree_id", .ofText c.outline.treeId), (.text "ignore_tag", .ofText c.outline.ignoreTag)]),
   (.text "logging", .map [(.text "level", .text c.logging.level),
     (.text "format", .text c.logging.format.name),
     (.text "file", (c.logging.file.map Value.ofText).getD .null)])]

end Config

end FeedOutline
