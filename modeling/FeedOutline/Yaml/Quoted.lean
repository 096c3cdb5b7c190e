import FeedOutline.Yaml.Token

/-!
Texts between quotes. Line ends inside are folded; between double quotes a backslash escapes.
-/
namespace FeedOutline.Yaml

open Text (AnyText Mark)

def escape? (c : Char) : Option Char :=
  [('0', '\x00'), ('a', '\x07'), ('b', '\x08'), ('t', '\t'), ('\t', '\t'), ('n', '\n'), ('v', '\x0b'),
    ('f', '\x0c'), ('r', '\r'), ('e', '\x1b'), (' ', ' '), ('"', '"'), ('\\', '\\'), ('/', '/'),
    ('N', '\u0085'), ('_', '\u00a0'), ('L', '\u2028'), ('P', '\u2029')].lookup c

def escapeDigits? (c : Char) : Option Nat :=
  [('x', 2), ('u', 4), ('U', 8)].lookup c

def quotedBreaks : Nat → Cursor → Except Fault (List Char × Cursor)
  | 0, c => .ok ([], c)
  | fuel + 1, c =>
    if c.isAtSeparator then c.refuse
    else
      let c := c.dropWhile fun ch => ch == ' ' || ch == '\t'
      match c.lineBreak? with
      | some (b, c) => do
        let (bs, c) ← quotedBreaks fuel c
        return (b :: bs, c)
      | none => .ok ([], c)

/-- What a line end and the empty lines behind it stand for: one line end is a space. -/
def folded (lineEnd : Char) (breaks : List Char) : List Char :=
  if lineEnd != '\n' then lineEnd :: breaks else if breaks.isEmpty then [' '] else breaks

def quotedSpaces (c : Cursor) : Except Fault (List Char × Cursor) :=
  let blank := fun ch => ch == ' ' || ch == '\t'
  let spaces := c.takeWhile blank
  let c := c.dropWhile blank
  if c.isAtEnd then c.refuse
  else match c.lineBreak? with
    | none => .ok (spaces, c)
    | some (lineEnd, c) => do
      let (breaks, c) ← quotedBreaks c.rest.length.succ c
      return (folded lineEnd breaks, c)

def escaped (c : Cursor) : Except Fault (List Mark × Cursor) :=
  match escape? c.peek with
  | some ch => .ok ([.char ch], c.next)
  | none =>
    match escapeDigits? c.peek with
    | some n =>
      let digits := (c.next.rest.take n).takeWhile isHex
      if digits.length != n then (c.skip (digits.length + 1)).refuse
      else if 0x80000000 ≤ hexValue digits then .error .tooLarge
      else if 0x110000 ≤ hexValue digits then .error .outOfRange
      else .ok ([.ofNat (hexValue digits)], c.skip (n + 1))
    | none =>
      match c.lineBreak? with
      | some (_, c) => do
        let (breaks, c) ← quotedBreaks c.rest.length.succ c
        return (breaks.map .char, c)
      | none => c.refuse

def quotedText (mark : Char) : Nat → Cursor → Except Fault (List Mark × Cursor)
  | 0, c => c.refuse
  | fuel + 1, c =>
    let ch := c.peek
    if isBlankOrEnd ch then do
      let (part, c) ← quotedSpaces c
      let (more, c) ← quotedText mark fuel c
      return (part.map .char ++ more, c)
    else if mark == '\'' && ch == '\'' && c.peekAt 1 == '\'' then do
      let (more, c) ← quotedText mark fuel (c.skip 2)
      return (.char '\'' :: more, c)
    else if ch == mark then .ok ([], c.next)
    else if mark == '"' && ch == '\\' then do
      let (part, c) ← escaped c.next
      let (more, c) ← quotedText mark fuel c
      return (part ++ more, c)
    else do
      let (more, c) ← quotedText mark fuel c.next
      return (.char ch :: more, c)

def scanQuoted (c : Cursor) : Except Fault (Token × Cursor) := do
  let (text, behind) ← quotedText c.peek (2 * c.rest.length + 2) c.next
  return (.scalar (.ofMarks text) false, behind)

end FeedOutline.Yaml
