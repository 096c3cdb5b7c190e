import FeedOutline.Environment
import FeedOutline.Text.Blank
import FeedOutline.Text.Split

/-!
Files that assign variables, one `NAME=value` a line. A value may stand between quotes and then go over
several lines, and refer to other variables as `$\x7bNAME\x7d` or `$\x7bNAME:-otherwise\x7d`.
-/
namespace FeedOutline.Environment

open Text

/-- A name without an equals sign has no value. -/
structure Assignment where
  name : String
  value : Option String
  deriving Repr, BEq, DecidableEq, Inhabited

inductive Statement where
  | blank
  | assign (a : Assignment)
  | malformed
  deriving Repr, BEq, DecidableEq, Inhabited

def isInnerBlank (c : Char) : Bool :=
  isBlank c && c != '\n'

/-- The text up to the mark that ends it, and what follows that mark. A backslash takes the next
character on its line with it, so that a mark there does not end the text. -/
def untilMark (mark : Char) : List Char → Option (List Char × List Char)
  | [] => none
  | c :: s =>
    if c == mark then some ([], s)
    else if c == '\\' then
      match s with
      | [] => none
      | d :: s =>
        if d == '\n' then none else (untilMark mark s).map fun (text, after) => (c :: d :: text, after)
    else (untilMark mark s).map fun (text, after) => (c :: text, after)

def unescape (meaning : Char → Option Char) : List Char → List Char
  | '\\' :: c :: s =>
    match meaning c with
    | some x => x :: unescape meaning s
    | none => '\\' :: unescape meaning (c :: s)
  | c :: s => c :: unescape meaning s
  | [] => []
termination_by s => s.length

def singleMeaning (c : Char) : Option Char :=
  if c == '\\' || c == '\'' then some c else none

def doubleMeaning (c : Char) : Option Char :=
  [('\\', '\\'), ('\'', '\''), ('"', '"'), ('a', '\x07'), ('b', '\x08'), ('f', '\x0c'), ('n', '\n'),
    ('r', '\r'), ('t', '\t'), ('v', '\x0b')].lookup c

/-- A value without quotes ends before a comment, which follows white space. -/
def cutComment (before : Char) : List Char → List Char
  | [] => []
  | c :: s => if c == '#' && isBlank before then [] else c :: cutComment c s

def readValue (gap s : List Char) : Option (List Char × List Char) :=
  match s with
  | '\'' :: s => (untilMark '\'' s).map fun (text, rest) => (unescape singleMeaning text, rest)
  | '"' :: s => (untilMark '"' s).map fun (text, rest) => (unescape doubleMeaning text, rest)
  | s =>
    let line := s.takeWhile (· != '\n')
    some (dropTrailing isBlank (cutComment (gap.getLast?.getD '=') line), s.drop line.length)

def endLine? (s : List Char) : Option (List Char) :=
  let s := s.dropWhile isInnerBlank
  let s := if s.head? == some '#' then s.dropWhile (· != '\n') else s
  match s with
  | [] => some []
  | c :: s => if c == '\n' then some s else none

def skipExport (s : List Char) : List Char :=
  match afterStart? "export".toList s with
  | some rest => if (rest.head?.map isInnerBlank).getD false then rest.dropWhile isInnerBlank else s
  | none => s

def skipLine (s : List Char) : List Char :=
  (s.dropWhile (· != '\n')).drop 1

def isNameChar (c : Char) : Bool :=
  c != '=' && c != '#' && !isBlank c

def readName (s : List Char) : Option (List Char × List Char) :=
  let (name, rest) := match s with
    | '\'' :: s => (s.takeWhile (· != '\''), s.dropWhile (· != '\''))
    | s => (s.takeWhile isNameChar, s.dropWhile isNameChar)
  if name.isEmpty then none
  else if s.head? == some '\'' then
    match rest with
    | _ :: rest => some (name, rest)
    | [] => none
  else some (name, rest)

def finish (statement : Statement) (s : List Char) : Statement × List Char :=
  match endLine? s with
  | some rest => (statement, rest)
  | none => (.malformed, skipLine s)

def afterName (name s : List Char) : Statement × List Char :=
  let made (value : Option (List Char)) : Statement :=
    .assign ⟨String.ofList name, value.map String.ofList⟩
  match s.dropWhile isInnerBlank with
  | '=' :: s =>
    match readValue (s.takeWhile isInnerBlank) (s.dropWhile isInnerBlank) with
    | some (value, rest) => finish (made (some value)) rest
    | none => (.malformed, skipLine s)
  | s => finish (made none) s

def readStatement (s : List Char) : Statement × List Char :=
  match skipExport (s.dropWhile isBlank) with
  | [] => (.blank, [])
  | '#' :: s => finish .blank ('#' :: s)
  | s =>
    match readName s with
    | some (name, rest) => afterName name rest
    | none => (.malformed, skipLine s)

def statementsFrom (line : Nat) : Nat → List Char → List (Nat × Statement)
  | 0, _ => []
  | fuel + 1, s =>
    if s.isEmpty then []
    else
      let (statement, rest) := readStatement s
      let passed := (s.take (s.length - rest.length)).count '\n'
      (line, statement) :: statementsFrom (line + passed) fuel rest

/-- A byte order mark at the start does not count. Every statement takes a character at least, so that
their number is bounded by the length. -/
def statements (text : String) : List (Nat × Statement) :=
  match text.toList with
  | '\ufeff' :: s => statementsFrom 1 s.length s
  | s => statementsFrom 1 s.length s

def assignments (text : String) : List Assignment :=
  (statements text).filterMap fun (_, s) =>
    match s with
    | .assign a => some a
    | _ => none

def malformedLines (text : String) : List Nat :=
  (statements text).filterMap fun (line, s) => if s == .malformed then some line else none

structure Reference where
  name : List Char
  otherwise : List Char := []
  length : Nat
  deriving Repr, BEq, DecidableEq, Inhabited

def reference? : List Char → Option Reference
  | '$' :: '\x7b' :: s =>
    let name := s.takeWhile fun c => c != '\x7d' && c != ':'
    match s.drop name.length with
    | '\x7d' :: _ => some ⟨name, [], name.length + 3⟩
    | ':' :: '-' :: s =>
      let otherwise := s.takeWhile (· != '\x7d')
      if (s.drop otherwise.length).isEmpty then none
      else some ⟨name, otherwise, name.length + otherwise.length + 5⟩
    | _ => none
  | _ => none

def expandFrom (value? : String → Option String) : Nat → List Char → List Char
  | _, [] => []
  | skip + 1, _ :: s => expandFrom value? skip s
  | 0, c :: s =>
    match reference? (c :: s) with
    | some r =>
      ((value? (String.ofList r.name)).map String.toList).getD r.otherwise ++
        expandFrom value? (r.length - 1) s
    | none => c :: expandFrom value? 0 s

def expandReferences (value? : String → Option String) (s : String) : String :=
  String.ofList (expandFrom value? 0 s.toList)

/-- Assigned names keep the place of their first assignment and have the value of their last. -/
abbrev Assigned := List (String × Option String)

def Assigned.set : Assigned → String → Option String → Assigned
  | [], name, value => [(name, value)]
  | a :: as, name, value => if a.1 == name then (name, value) :: as else a :: Assigned.set as name value

/-- A reference stands for a variable that is set, or else for an earlier assignment. -/
def resolve (env : Environment) (assigned : Assigned) (name : String) : Option String :=
  match env.get? name with
  | some value => some value
  | none => (assigned.lookup name).map (·.getD "")

def assignedBy (env : Environment) (as : List Assignment) : Assigned :=
  as.foldl (fun assigned a =>
    assigned.set a.name (a.value.map (expandReferences (resolve env assigned)))) []

def canHold (name value : String) : Bool :=
  !name.isEmpty && !name.toList.contains '=' && !name.toList.contains '\x00' &&
    !value.toList.contains '\x00'

structure Extended where
  env : Environment
  complete : Bool := true
  deriving Repr, BEq, DecidableEq, Inhabited

/-- Sets what is not set yet, up to the first variable that cannot be held. -/
def extend (env : Environment) : Assigned → Extended
  | [] => ⟨env, true⟩
  | (_, none) :: as => extend env as
  | (name, some value) :: as =>
    if (env.get? name).isSome then extend env as
    else if canHold name value then extend (env.set name value) as
    else ⟨env, false⟩

def extendFrom (env : Environment) (text : String) : Extended :=
  extend env (assignedBy env (assignments text))

end FeedOutline.Environment
