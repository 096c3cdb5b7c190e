import FeedOutline.Yaml.Block
import FeedOutline.Yaml.Plain
import FeedOutline.Yaml.Property

/-!
The tokens of a text, made one after the other as they are asked for. Indentation opens and closes lists
and mappings. A key of a mapping shows as one only by the colon behind it, so its token is put in its place
afterwards; until then the tokens from there on are held back.
-/
namespace FeedOutline.Yaml

/-- A token that a colon would make a key: how many tokens are before it, where it stands, and whether
it must be a key. -/
structure PossibleKey where
  number : Nat
  isRequired : Bool
  index : Nat
  line : Nat
  column : Nat
  deriving Repr, BEq, DecidableEq, Inhabited

structure Scan where
  cursor : Cursor
  /-- The tokens that wait to be taken. -/
  tokens : List Token := []
  /-- How many tokens have been taken. -/
  taken : Nat := 0
  /-- How many brackets are open. -/
  flow : Nat := 0
  indent : Int := -1
  outer : List Int := []
  allowsKey : Bool := true
  /-- At most one for each number of open brackets. -/
  keys : List (Nat × PossibleKey) := []
  /-- Whether the last token is made. -/
  isFinished : Bool := false
  deriving Repr, BEq, DecidableEq, Inhabited

namespace Scan

def add (s : Scan) (t : Token) : Scan :=
  { s with tokens := s.tokens ++ [t] }

def insert (s : Scan) (number : Nat) (t : Token) : Scan :=
  let before := number - s.taken
  { s with tokens := s.tokens.take before ++ t :: s.tokens.drop before }

def unwind (column : Int) : Nat → Scan → Scan
  | 0, s => s
  | fuel + 1, s =>
    if s.flow = 0 && column < s.indent then
      match s.outer with
      | [] => s
      | i :: outer => unwind column fuel ({ s with indent := i, outer }.add .blockEnd)
    else s

def unwindTo (s : Scan) (column : Int) : Scan :=
  s.unwind column (s.outer.length + 1)

def indentTo (s : Scan) (column : Nat) : Option Scan :=
  if s.indent < column then some { s with outer := s.indent :: s.outer, indent := column } else none

/-- A key must stand on one line and may not be too long. -/
def isStale (s : Scan) (k : PossibleKey) : Bool :=
  k.line != s.cursor.line || 1024 < s.cursor.index - k.index

def dropStale (s : Scan) : Except Fault Scan :=
  if s.keys.any fun k => s.isStale k.2 && k.2.isRequired then .error .token
  else .ok { s with keys := s.keys.filter fun k => !s.isStale k.2 }

def dropKey (s : Scan) : Except Fault Scan :=
  match s.keys.lookup s.flow with
  | none => .ok s
  | some k =>
    if k.isRequired then .error .token
    else .ok { s with keys := s.keys.filter (·.1 != s.flow) }

def saveKey (s : Scan) : Except Fault Scan :=
  if s.allowsKey then do
    let isRequired := s.flow = 0 && s.indent = s.cursor.column
    let s ← s.dropKey
    return { s with keys :=
      (s.flow, ⟨s.taken + s.tokens.length, isRequired, s.cursor.index, s.cursor.line, s.cursor.column⟩) :: s.keys }
  else .ok s

def moveTo (s : Scan) (c : Cursor) : Scan :=
  { s with cursor := c }

def sign (s : Scan) (length : Nat) (t : Token) : Scan :=
  (s.moveTo (s.cursor.skip length)).add t

def skipToToken : Nat → Scan → Scan
  | 0, s => s
  | fuel + 1, s =>
    let c := s.cursor.skipSpaces
    let c := if c.peek == '#' then c.skipLine else c
    match c.lineBreak? with
    | some (_, c) => skipToToken fuel { s with cursor := c, allowsKey := s.allowsKey || s.flow = 0 }
    | none => s.moveTo c

def endBlocks (s : Scan) : Except Fault Scan := do
  let s ← (s.unwindTo (-1)).dropKey
  return { s with allowsKey := false }

def separator (s : Scan) (t : Token) : Except Fault Scan := do
  return (← s.endBlocks).sign 3 t

def directive (s : Scan) : Except Fault Scan := do
  let s ← s.endBlocks
  let (t, c) ← scanDirective s.cursor
  return (s.moveTo c).add t

def openFlow (s : Scan) (t : Token) : Except Fault Scan := do
  let s ← s.saveKey
  return { s with flow := s.flow + 1, allowsKey := true }.sign 1 t

def closeFlow (s : Scan) (t : Token) : Except Fault Scan := do
  let s ← s.dropKey
  return { s with flow := s.flow - 1, allowsKey := false }.sign 1 t

def flowEntry (s : Scan) : Except Fault Scan := do
  let s ← s.dropKey
  return { s with allowsKey := true }.sign 1 .flowEntry

def openBlock (s : Scan) (t : Token) : Except Fault Scan :=
  if s.flow != 0 then .ok s
  else if !s.allowsKey then s.cursor.next.refuse
  else match s.indentTo s.cursor.column with
    | some s => .ok (s.add t)
    | none => .ok s

def blockEntry (s : Scan) : Except Fault Scan := do
  let s ← (← s.openBlock .blockListStart).dropKey
  return { s with allowsKey := true }.sign 1 .blockEntry

def explicitKey (s : Scan) : Except Fault Scan := do
  let s ← s.openBlock .blockMapStart
  let s ← { s with allowsKey := s.flow = 0 }.dropKey
  return s.sign 1 .key

/-- A colon makes what is before it a key, if that is possible. -/
def value (s : Scan) : Except Fault Scan :=
  match s.keys.lookup s.flow with
  | some k =>
    let s := { s with keys := s.keys.filter (·.1 != s.flow) }.insert k.number .key
    let s := if s.flow != 0 then s else
      match s.indentTo k.column with
      | some s => s.insert k.number .blockMapStart
      | none => s
    .ok ({ s with allowsKey := false }.sign 1 .value)
  | none => do
    let s ← s.openBlock .blockMapStart
    let s ← { s with allowsKey := s.flow = 0 }.dropKey
    return s.sign 1 .value

def item (s : Scan) (scan : Cursor → Except Fault (Token × Cursor)) : Except Fault Scan := do
  let s ← s.saveKey
  let (t, c) ← scan s.cursor
  return ({ s with allowsKey := false }.moveTo c).add t

def named (f : String → Token) (c : Cursor) : Except Fault (Token × Cursor) := do
  let (name, c) ← scanName c
  return (f name, c)

def block (s : Scan) : Except Fault Scan := do
  let s ← s.dropKey
  let (t, c) ← scanBlock s.indent s.cursor
  return ({ s with allowsKey := true }.moveTo c).add t

def plain (s : Scan) : Except Fault Scan := do
  let s ← s.saveKey
  let (t, ended, c) := scanPlain (s.flow != 0) s.indent s.cursor
  return ({ s with allowsKey := ended }.moveTo c).add t

def isSign (c : Char) : Bool :=
  "-?:,[]\x7b\x7d#&*!|>'\"%@`".toList.contains c

def startsPlain (s : Scan) : Bool :=
  let ch := s.cursor.peek
  !(isBlankOrEnd ch || isSign ch) ||
    (!isBlankOrEnd (s.cursor.peekAt 1) &&
      (ch == '-' || (s.flow = 0 && (ch == '?' || ch == ':'))))

def token (s : Scan) : Except Fault Scan :=
  let c := s.cursor
  let ch := c.peek
  let standsAlone := isBlankOrEnd (c.peekAt 1)
  if ch == '%' && c.column = 0 then s.directive
  else if ch == '-' && c.column = 0 && c.isAtSeparator then s.separator .documentStart
  else if ch == '.' && c.column = 0 && c.isAtSeparator then s.separator .documentEnd
  else if ch == '[' then s.openFlow .flowListStart
  else if ch == '\x7b' then s.openFlow .flowMapStart
  else if ch == ']' then s.closeFlow .flowListEnd
  else if ch == '\x7d' then s.closeFlow .flowMapEnd
  else if ch == ',' then s.flowEntry
  else if ch == '-' && standsAlone then s.blockEntry
  else if ch == '?' && (s.flow != 0 || standsAlone) then s.explicitKey
  else if ch == ':' && (s.flow != 0 || standsAlone) then s.value
  else if ch == '*' then s.item (named .alias)
  else if ch == '&' then s.item (named .anchor)
  else if ch == '!' then s.item scanTag
  else if (ch == '|' || ch == '>') && s.flow = 0 then s.block
  else if ch == '\'' || ch == '"' then s.item scanQuoted
  else if s.startsPlain then s.plain
  else c.next.refuse

def finish (s : Scan) : Except Fault Scan := do
  let s ← s.endBlocks
  return { s with keys := [], isFinished := true }.add .finish

def advance (s : Scan) : Except Fault Scan := do
  let s := s.skipToToken s.cursor.rest.length.succ
  s.cursor.checkBarrier
  let s ← s.dropStale
  let s := s.unwindTo s.cursor.column
  let s ← if s.cursor.isAtEnd then s.finish else s.token
  s.cursor.checkBarrier
  return s

/-- Whether the first token that waits can be taken: there is one, and no colon can make it a key. -/
def settled (s : Scan) : Except Fault (Bool × Scan) :=
  if s.isFinished then .ok (true, s)
  else if s.tokens.isEmpty then .ok (false, s)
  else do
    let s ← s.dropStale
    return (!s.keys.any (·.2.number == s.taken), s)

def settleWith : Nat → Scan → Except Fault Scan
  | 0, s => .ok s
  | fuel + 1, s => do
    let (isSettled, s) ← s.settled
    if isSettled then return s else settleWith fuel (← s.advance)

/-- Reads on until a token can be taken. Each step goes on by a character or comes to the end. -/
def settle (s : Scan) : Except Fault Scan := do
  let (isSettled, s) ← s.settled
  if isSettled then return s else settleWith (s.cursor.rest.length + 2) s

def take (s : Scan) : Scan :=
  { s with tokens := s.tokens.tail, taken := s.taken + 1 }

end Scan

end FeedOutline.Yaml
