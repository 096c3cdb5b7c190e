import FeedOutline.Text.Quoted
import FeedOutline.Text.Similar

/-!
The words of a command line: options with and without values, and the words between them.
-/
namespace FeedOutline.Cli

open Text

structure Opt where
  name : String
  spellings : List String
  takesValue : Bool := true
  deriving Repr, BEq, DecidableEq, Inhabited

inductive UsageError where
  | noSuchOption (spelling : String) (close : List String)
  | noValue (spelling : String)
  | unwantedValue (spelling : String)
  /-- A value that is none of those that can be chosen. -/
  | badChoice (place value : String) (choices : List String)
  | noSuchFile (place path : String)
  | notAFile (place path : String)
  | missingArgument (place : String)
  | missingCommand
  | noSuchCommand (name : String) (close : List String)
  | unexpected (words : List String)
  /-- A path with the character zero, which no file can have. -/
  | badPath
  deriving Repr, BEq, DecidableEq, Inhabited

def closeText (close : List String) : String :=
  match close with
  | [] => ""
  | [word] => " Did you mean " ++ quoted word ++ "?"
  | words =>
    " (Did you mean one of: " ++
      joined ", " ((words.mergeSort fun a b => decide (a ≤ b)).map quoted) ++ "?)"

def UsageError.message : UsageError → String
  | noSuchOption spelling close => "No such option " ++ quoted spelling ++ "." ++ closeText close
  | noValue spelling => "Option " ++ quoted spelling ++ " requires an argument."
  | unwantedValue spelling => "Option " ++ quoted spelling ++ " does not take a value."
  | badChoice place value choices =>
    "Invalid value for " ++ place ++ ": " ++ quoted value ++ " is not one of " ++
      joined ", " (choices.map quoted) ++ "."
  | noSuchFile place path =>
    "Invalid value for " ++ place ++ ": File " ++ quoted path ++ " does not exist."
  | notAFile place path =>
    "Invalid value for " ++ place ++ ": File " ++ quoted path ++ " is a directory."
  | missingArgument place => "Missing argument " ++ place ++ "."
  | missingCommand => "Missing command."
  | noSuchCommand name close => "No such command " ++ quoted name ++ "." ++ closeText close
  | unexpected words =>
    "Got unexpected extra argument" ++ (if words.length = 1 then "" else "s") ++ " (" ++
      joined " " words ++ ")"
  | badPath => "a path with the character zero"

namespace Opt

def isShort (spelling : String) : Bool :=
  spelling.length == 2

def place (o : Opt) : String :=
  joined " / " (o.spellings.map fun s => "'" ++ s ++ "'")

def find? (opts : List Opt) (short : Bool) (spelling : String) : Option Opt :=
  opts.find? fun o => o.spellings.any fun s => isShort s == short && s == spelling

def longSpellings (opts : List Opt) : List String :=
  (opts.flatMap (·.spellings)).filter (!isShort ·)

end Opt

/-- The options in one word, and whether the last of them has the next word for its value. -/
structure WordOptions where
  options : List (String × String)
  takesNext : Bool := false
  deriving Repr, BEq, DecidableEq, Inhabited

def withNext (o : Opt) (spelling : String) (next : Option String) : Except UsageError WordOptions :=
  match next with
  | some value => .ok ⟨[(o.name, value)], true⟩
  | none => .error (.noValue spelling)

def shortOptions (opts : List Opt) (next : Option String) : List Char → Except UsageError WordOptions
  | [] => .ok ⟨[], false⟩
  | c :: cs =>
    let spelling := String.ofList ['-', c]
    match Opt.find? opts true spelling with
    | none => .error (.noSuchOption spelling [])
    | some o =>
      if o.takesValue then
        if cs.isEmpty then withNext o spelling next
        else .ok ⟨[(o.name, String.ofList cs)], false⟩
      else (shortOptions opts next cs).map fun w => { w with options := (o.name, "") :: w.options }

/-- The options in a word that begins with a dash. Its value may follow an equals sign. -/
def optionsOfWord (opts : List Opt) (word : List Char) (next : Option String) :
    Except UsageError WordOptions :=
  let spelling := String.ofList (word.takeWhile (· != '='))
  let explicit := match word.dropWhile (· != '=') with
    | _ :: value => some (String.ofList value)
    | [] => none
  match Opt.find? opts false spelling, explicit with
  | some o, some value =>
    if o.takesValue then .ok ⟨[(o.name, value)], false⟩ else .error (.unwantedValue spelling)
  | some o, none => if o.takesValue then withNext o spelling next else .ok ⟨[(o.name, "")], false⟩
  | none, _ =>
    match word with
    | '-' :: '-' :: _ => .error (.noSuchOption spelling (closeWords spelling (Opt.longSpellings opts)))
    | _ => shortOptions opts next (word.drop 1)

structure Arguments where
  options : List (String × String) := []
  words : List String := []
  deriving Repr, BEq, DecidableEq, Inhabited

namespace Arguments

def value? (a : Arguments) (name : String) : Option String :=
  a.options.reverse.lookup name

def has (a : Arguments) (name : String) : Bool :=
  (a.value? name).isSome

def addOptions (options : List (String × String)) (a : Arguments) : Arguments :=
  { a with options := options ++ a.options }

def addWord (word : String) (a : Arguments) : Arguments :=
  { a with words := word :: a.words }

/-- Reads a command line. After two dashes no word is an option. Unless `mixed` holds, no option
follows the first word that is none. -/
def read (opts : List Opt) (mixed : Bool) : List String → Except UsageError Arguments
  | [] => .ok {}
  | w :: ws =>
    if w == "--" then .ok ⟨[], ws⟩
    else if startsWith "-" w && w != "-" then
      match optionsOfWord opts w.toList ws.head? with
      | .error e => .error e
      | .ok found =>
        (if found.takesNext then read opts mixed (ws.drop 1) else read opts mixed ws).map
          (addOptions found.options)
    else if mixed then (read opts mixed ws).map (addWord w)
    else .ok ⟨[], w :: ws⟩
termination_by ws => ws.length
decreasing_by all_goals (simp only [List.length_cons, List.length_drop]; omega)

end Arguments

end FeedOutline.Cli
