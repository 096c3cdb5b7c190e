import FeedOutline.Markup.NameChar
import FeedOutline.Markup.Fault
import FeedOutline.Text.Digit

/-!
References `&name;`, `&#10;` and `&#x41;`: their form, and the characters they stand for.
-/
namespace FeedOutline.Markup

def isSpace (c : Char) : Bool :=
  c == ' ' || c == '\t' || c == '\n' || c == '\r'

def isLegal (c : Char) : Bool :=
  (32 ≤ c.toNat || isSpace c) && c.toNat != 0xFFFE && c.toNat != 0xFFFF

inductive RefScan where
  /-- After the ampersand. -/
  | start
  | name
  /-- After the number sign. -/
  | hash
  | digits
  | hexStart
  | hexDigits
  deriving Repr, BEq, DecidableEq, Inhabited

def isHexDigit (c : Char) : Bool :=
  c.isDigit || ('a' ≤ c && c ≤ 'f') || ('A' ≤ c && c ≤ 'F')

def RefScan.step : RefScan → Char → Outcome RefScan Unit
  | start, c => if isNameStart c then .more name else if c == '#' then .more hash else .invalid
  | name, c => if isNameChar c then .more name else if c == ';' then .done () else .invalid
  | hash, c => if c == 'x' then .more hexStart else if c.isDigit then .more digits else .invalid
  | digits, c => if c.isDigit then .more digits else if c == ';' then .done () else .invalid
  | hexStart, c => if isHexDigit c then .more hexDigits else .invalid
  | hexDigits, c => if isHexDigit c then .more hexDigits else if c == ';' then .done () else .invalid

inductive Reference where
  /-- The number of a character, none if it is no character of a document. -/
  | char (c : Option Char)
  | entity (name : List Char)
  deriving Repr, BEq, DecidableEq, Inhabited

def hexValue (s : List Char) : Nat :=
  s.foldl (fun n c =>
    16 * n + if c.isDigit then c.toNat - '0'.toNat else c.toLower.toNat - 'a'.toNat + 10) 0

def legalChar? (n : Nat) : Option Char :=
  if n.isValidChar && isLegal (Char.ofNat n) then some (Char.ofNat n) else none

def namedChar? (name : List Char) : Option Char :=
  [("lt", '<'), ("gt", '>'), ("amp", '&'), ("quot", '"'), ("apos", '\'')].lookup (String.ofList name)

def Reference.ofText : List Char → Reference
  | '#' :: 'x' :: s => .char (legalChar? (hexValue s))
  | '#' :: s => .char (legalChar? ((Text.digits? s).getD 0))
  | s => match namedChar? s with
    | some c => .char (some c)
    | none => .entity s

end FeedOutline.Markup
