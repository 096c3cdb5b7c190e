import FeedOutline.Data.Value

/-!
Values written as JSON on one line.
-/
namespace FeedOutline.Data

open Text

/-- Quote marks, backslashes and control characters are escaped, and nothing else. -/
def jsonChar (c : Char) : List Char :=
  if c == '"' || c == '\\' then ['\\', c]
  else if c == '\n' then ['\\', 'n']
  else if c == '\r' then ['\\', 'r']
  else if c == '\t' then ['\\', 't']
  else if c == '\x0c' then ['\\', 'f']
  else if c == '\x08' then ['\\', 'b']
  else if c.toNat < 32 then '\\' :: 'u' :: hexDigits 4 c.toNat
  else [c]

def jsonText (s : String) : String :=
  String.ofList ('"' :: s.toList.flatMap jsonChar ++ ['"'])

def Decimal.json : Decimal → String
  | .infinite negative => if negative then "-Infinity" else "Infinity"
  | .nan => "NaN"
  | d => d.text

namespace Scalar

def json : Scalar → String
  | null => "null"
  | bool b => if b then "true" else "false"
  | int n => toString n
  | decimal d => d.json
  | text s => jsonText s
  | s => jsonText s.shown

def jsonKey : Scalar → String
  | text s => jsonText s
  | s => jsonText s.json

end Scalar

namespace Value

mutual

def json : Value → String
  | scalar s => s.json
  | list items => "[" ++ joined ", " (jsonAll items) ++ "]"
  | map entries => "\x7b" ++ joined ", " (jsonEntries entries) ++ "\x7d"
  | set items => "[" ++ joined ", " (items.map Scalar.json) ++ "]"
  | pair a b => "[" ++ a.json ++ ", " ++ b.json ++ "]"
  | part _ _ => "null"

def jsonAll : List Value → List String
  | [] => []
  | v :: vs => v.json :: jsonAll vs

def jsonEntries : Mapping → List String
  | [] => []
  | (k, v) :: es => (k.jsonKey ++ ": " ++ v.json) :: jsonEntries es

end

end Value

end FeedOutline.Data
