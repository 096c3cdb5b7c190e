import FeedOutline.Data.Decimal
import FeedOutline.Data.Time
import FeedOutline.Text.Digit
import FeedOutline.Text.Quoted
import FeedOutline.Text.Torn

/-!
Values of configuration and data files.
-/
namespace FeedOutline.Data

open Text

inductive Scalar where
  | null
  | bool (b : Bool)
  | int (n : Int)
  | decimal (d : Decimal)
  | text (s : String)
  | torn (t : Torn)
  | date (d : Date)
  | moment (m : Moment)
  | bytes (bs : List UInt8)
  deriving Repr, BEq, DecidableEq, Inhabited

/-- The entries of a mapping keep the order in which their keys first came. -/
inductive Value where
  | scalar (s : Scalar)
  | list (items : List Value)
  | map (entries : List (Scalar × Value))
  | set (items : List Scalar)
  | pair (first second : Value)
  /-- A list or a mapping that is kept elsewhere under a number. -/
  | part (number : Nat) (isMap : Bool)
  deriving Repr, BEq, Inhabited

abbrev Mapping := List (Scalar × Value)

namespace Scalar

def ofText : AnyText → Scalar
  | .whole s => text s
  | .torn t => torn t

def kindName : Scalar → String
  | null => "NoneType"
  | bool _ => "bool"
  | int _ => "int"
  | decimal _ => "float"
  | text _ | torn _ => "str"
  | date _ => "date"
  | moment _ => "datetime"
  | bytes _ => "bytes"

/-- Nothing, false, zero and the empty text are blank values. -/
def isEmpty : Scalar → Bool
  | null => true
  | bool b => !b
  | int n => n == 0
  | decimal d => d.isZero
  | text s => s.isEmpty
  | bytes bs => bs.isEmpty
  | _ => false

/-- The number that a scalar stands for as a key; true and false count as one and zero. -/
def number? : Scalar → Option Int
  | bool b => some (if b then 1 else 0)
  | int n => some n
  | decimal d => d.toInt?
  | _ => none

def sameKey : Scalar → Scalar → Bool
  | moment m, moment n => m.isSame n
  | a, b => a == b || (a.number?.isSome && a.number? == b.number?)

def setIn (key : Scalar) (v : α) (m : List (Scalar × α)) : List (Scalar × α) :=
  if m.any (·.1.sameKey key) then m.map fun e => if e.1.sameKey key then (e.1, v) else e
  else m ++ [(key, v)]

def shown : Scalar → String
  | null => "None"
  | bool b => if b then "True" else "False"
  | int n => toString n
  | decimal d => d.text
  | text s => s
  | torn t => t.shown
  | date d => d.text
  | moment m => m.textWith " "
  | bytes bs => "b" ++ quotedBytes bs

def numbersText (ns : List Nat) : String :=
  joined ", " (ns.map toString)

/-- A distance to universal time in minutes. One to the west is counted from a whole day before. -/
def offsetShown (minutes : Int) : String :=
  if minutes = 0 then "datetime.timezone.utc"
  else if 0 < minutes then
    "datetime.timezone(datetime.timedelta(seconds=" ++ toString (minutes * 60) ++ "))"
  else
    "datetime.timezone(datetime.timedelta(days=-1, seconds=" ++ toString (86400 + minutes * 60) ++ "))"

def dateShown (d : Date) : String :=
  "datetime.date(" ++ numbersText [d.year.toNat, d.month, d.day] ++ ")"

def momentShown (m : Moment) : String :=
  let fine := if m.micro != 0 then [m.second, m.micro] else if m.second != 0 then [m.second] else []
  let zone := match m.offset with
    | some minutes => ", tzinfo=" ++ offsetShown minutes
    | none => ""
  "datetime.datetime(" ++
    numbersText ([m.date.year.toNat, m.date.month, m.date.day, m.hour, m.minute] ++ fine) ++ zone ++ ")"

def isShowable : Scalar → Bool
  | int n => n.natAbs < Nat.pow 10 mostDigits
  | _ => true

def shownInside : Scalar → String
  | text s => quoted s
  | torn t => t.quoted
  | date d => dateShown d
  | moment m => momentShown m
  | s => s.shown

end Scalar

namespace Value

abbrev null : Value := scalar .null
abbrev bool (b : Bool) : Value := scalar (.bool b)
abbrev int (n : Int) : Value := scalar (.int n)
abbrev text (s : String) : Value := scalar (.text s)

def ofText (s : AnyText) : Value :=
  scalar (.ofText s)

def kindName : Value → String
  | scalar s => s.kindName
  | list _ => "list"
  | map _ => "dict"
  | set _ => "set"
  | pair _ _ => "tuple"
  | part _ isMap => if isMap then "dict" else "list"

def isEmpty : Value → Bool
  | scalar s => s.isEmpty
  | list items => items.isEmpty
  | map entries => entries.isEmpty
  | set items => items.isEmpty
  | pair _ _ | part _ _ => false

def text? : Value → Option String
  | scalar (.text s) => some s
  | _ => none

def anyText? : Value → Option AnyText
  | scalar (.text s) => some (.whole s)
  | scalar (.torn t) => some (.torn t)
  | _ => none

def map? : Value → Option Mapping
  | map entries => some entries
  | _ => none

mutual

/-- A value as it stands inside a shown list or mapping. What is kept elsewhere is left out. -/
def shownInside : Value → String
  | scalar s => s.shownInside
  | list items => "[" ++ joined ", " (shownAll items) ++ "]"
  | map entries => "\x7b" ++ joined ", " (shownEntries entries) ++ "\x7d"
  | set items =>
    if items.isEmpty then "set()" else "\x7b" ++ joined ", " (items.map Scalar.shownInside) ++ "\x7d"
  | pair a b => "(" ++ a.shownInside ++ ", " ++ b.shownInside ++ ")"
  | part _ isMap => if isMap then "\x7b...\x7d" else "[...]"

def shownAll : List Value → List String
  | [] => []
  | v :: vs => v.shownInside :: shownAll vs

def shownEntries : Mapping → List String
  | [] => []
  | (k, v) :: es => (k.shownInside ++ ": " ++ v.shownInside) :: shownEntries es

end

def shown : Value → String
  | scalar s => s.shown
  | v => v.shownInside

mutual

def isShowable : Value → Bool
  | scalar s => s.isShowable
  | list items => allShowable items
  | map entries => entriesShowable entries
  | set items => items.all Scalar.isShowable
  | pair a b => a.isShowable && b.isShowable
  | part _ _ => true

def allShowable : List Value → Bool
  | [] => true
  | v :: vs => v.isShowable && allShowable vs

def entriesShowable : Mapping → Bool
  | [] => true
  | (k, v) :: es => k.isShowable && v.isShowable && entriesShowable es

end

end Value

namespace Mapping

def get? (m : Mapping) (key : String) : Option Value :=
  m.lookup (.text key)

def set (m : Mapping) (key : Scalar) (v : Value) : Mapping :=
  key.setIn v m

def put (m : Mapping) (key : String) (v : Value) : Mapping :=
  m.set (.text key) v

def erase (m : Mapping) (key : String) : Mapping :=
  m.filter (·.1 != .text key)

end Mapping

end FeedOutline.Data
