import FeedOutline.Data.Time
import FeedOutline.Text.Digit

/-!
Dates and times as documents write them.
-/
namespace FeedOutline.Yaml

open Data (Date Moment)

inductive Time where
  | date (d : Date)
  | moment (m : Moment)
  deriving Repr, BEq, DecidableEq, Inhabited

def shortNumber? (s : List Char) : Option (Nat × List Char) :=
  let digits := (s.take 2).takeWhile Char.isDigit
  (Text.digits? digits).map fun n => (n, s.drop digits.length)

def fixedNumber? (width : Nat) (s : List Char) : Option (Nat × List Char) :=
  let digits := s.take width
  if digits.length = width then (Text.digits? digits).map fun n => (n, s.drop width) else none

def sign? (c : Char) : List Char → Option (List Char)
  | x :: s => if x == c then some s else none
  | [] => none

def date? (s : List Char) : Option (Date × List Char) := do
  let (year, s) ← fixedNumber? 4 s
  let (month, s) ← shortNumber? (← sign? '-' s)
  let (day, s) ← shortNumber? (← sign? '-' s)
  return (⟨year, month, day⟩, s)

def offset? (s : List Char) : Option Int :=
  match s with
  | ['Z'] => some 0
  | c :: s => do
    if c != '+' && c != '-' then none
    else
      let (hours, s) ← shortNumber? s
      let minutes ←
        match s with
        | [] => some 0
        | ':' :: s => do
          let (minutes, s) ← fixedNumber? 2 s
          if s.isEmpty then some minutes else none
        | _ => none
      let total : Int := hours * 60 + minutes
      return if c == '-' then -total else total
  | [] => none

def micros (digits : List Char) : Nat :=
  (Text.digits? ((digits ++ List.replicate 6 '0').take 6)).getD 0

def clock? (d : Date) (s : List Char) : Option Moment := do
  let (hour, s) ← shortNumber? s
  let (minute, s) ← fixedNumber? 2 (← sign? ':' s)
  let (second, s) ← fixedNumber? 2 (← sign? ':' s)
  let (fraction, s) :=
    match s with
    | '.' :: s => (s.takeWhile Char.isDigit, s.dropWhile Char.isDigit)
    | s => ([], s)
  let m : Moment := ⟨d, hour, minute, second, micros fraction, none⟩
  if s.isEmpty then some m
  else
    let offset ← offset? (s.dropWhile fun c => c == ' ' || c == '\t')
    return { m with offset := some offset }

def isGap (c : Char) : Bool :=
  c == ' ' || c == '\t'

def wholeTime? (s : List Char) : Option Time := do
  let (d, s) ← date? s
  match s with
  | [] => some (.date d)
  | c :: rest =>
    if c == 'T' || c == 't' then (clock? d rest).map .moment
    else if isGap c then (clock? d (rest.dropWhile isGap)).map .moment
    else none

def dropLastFeed (s : List Char) : List Char :=
  if s.getLast? == some '\n' then s.dropLast else s

def time? (s : List Char) : Option Time :=
  wholeTime? (dropLastFeed s)

/-- Whether a text without a tag is a time. A date alone has two digits for month and day. -/
def looksLikeTime (s : List Char) : Bool :=
  match wholeTime? s with
  | some (.date _) => s.length = 10
  | some (.moment _) => true
  | none => false

def Time.isValid : Time → Bool
  | date d => d.isValid
  | moment m => m.isValid && (m.offset.all fun o => -1440 < o && o < 1440)

end FeedOutline.Yaml
