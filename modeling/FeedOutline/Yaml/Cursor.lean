import FeedOutline.Text.Split
import FeedOutline.Yaml.Fault

/-!
A place in a document. The end of the text shows as the character zero, which no document holds.
-/
namespace FeedOutline.Yaml

structure Cursor where
  rest : List Char
  index : Nat := 0
  line : Nat := 0
  column : Nat := 0
  /-- What keeps the reader from going on behind the last character, if it is not the end. -/
  barrier : Option Fault := none
  deriving Repr, BEq, DecidableEq, Inhabited

def endMark : Char := '\x00'

def isEnd (c : Char) : Bool :=
  c == endMark

def isBreak (c : Char) : Bool :=
  c == '\n' || c == '\r' || c == '\u0085' || c == '\u2028' || c == '\u2029'

def isBreakOrEnd (c : Char) : Bool :=
  isBreak c || isEnd c

def isSpaceOrEnd (c : Char) : Bool :=
  c == ' ' || isBreakOrEnd c

def isBlankOrEnd (c : Char) : Bool :=
  c == '\t' || isSpaceOrEnd c

namespace Cursor

def peekAt (k : Nat) (c : Cursor) : Char :=
  c.rest.getD k endMark

def peek (c : Cursor) : Char :=
  c.rest.headD endMark

def isAtEnd (c : Cursor) : Bool :=
  c.rest.isEmpty

/-- Fails at the character here. Where there is none, the barrier is met first. -/
def fail (f : Fault) (c : Cursor) : Except Fault α :=
  .error (if c.isAtEnd then c.barrier.getD f else f)

def refuse (c : Cursor) : Except Fault α :=
  c.fail .token

def checkBarrier (c : Cursor) : Except Fault Unit :=
  match c.rest, c.barrier with
  | [], some f => .error f
  | _, _ => .ok ()

/-- One character on. A byte order mark takes no column. -/
def next (c : Cursor) : Cursor :=
  match c.rest with
  | [] => c
  | ch :: rest =>
    if isBreak ch && !(ch == '\r' && rest.head? == some '\n') then
      { c with rest, index := c.index + 1, line := c.line + 1, column := 0 }
    else if ch == '\ufeff' then { c with rest, index := c.index + 1 }
    else { c with rest, index := c.index + 1, column := c.column + 1 }

def skip : Nat → Cursor → Cursor
  | 0, c => c
  | n + 1, c => skip n c.next

def takeWhile (p : Char → Bool) (c : Cursor) : List Char :=
  c.rest.takeWhile p

def dropWhile (p : Char → Bool) (c : Cursor) : Cursor :=
  c.skip (c.takeWhile p).length

def skipSpaces (c : Cursor) : Cursor :=
  c.dropWhile (· == ' ')

def skipLine (c : Cursor) : Cursor :=
  c.dropWhile (!isBreak ·)

/-- Reads a line end, all but the two separators as a line feed. -/
def lineBreak? (c : Cursor) : Option (Char × Cursor) :=
  let ch := c.peek
  if ch == '\r' && c.peekAt 1 == '\n' then some ('\n', c.skip 2)
  else if ch == '\u2028' || ch == '\u2029' then some (ch, c.next)
  else if isBreak ch then some ('\n', c.next)
  else none

def isAtSeparator (c : Cursor) : Bool :=
  let three := c.rest.take 3
  (three == ['-', '-', '-'] || three == ['.', '.', '.']) && isBlankOrEnd (c.peekAt 3)

end Cursor

end FeedOutline.Yaml
