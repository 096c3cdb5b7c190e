/-!
Dates of the Gregorian calendar and times of day.
-/
namespace FeedOutline.Data

structure Date where
  year : Int
  month : Nat
  day : Nat
  deriving Repr, BEq, DecidableEq, Inhabited

/-- A time of day on a date; `offset` is the distance to universal time in minutes, if it is known. -/
structure Moment where
  date : Date
  hour : Nat
  minute : Nat
  second : Nat
  micro : Nat := 0
  offset : Option Int := none
  deriving Repr, BEq, DecidableEq, Inhabited

def padded (width n : Nat) : String :=
  let s := toString n
  String.ofList (List.replicate (width - s.length) '0') ++ s

namespace Date

def isLeap (year : Int) : Bool :=
  (year % 4 == 0 && year % 100 != 0) || year % 400 == 0

def daysInMonth (year : Int) (month : Nat) : Nat :=
  if month == 2 then (if isLeap year then 29 else 28)
  else if month == 4 || month == 6 || month == 9 || month == 11 then 30
  else 31

def isValid (d : Date) : Bool :=
  1 ≤ d.year && d.year ≤ 9999 && 1 ≤ d.month && d.month ≤ 12 && 1 ≤ d.day &&
    d.day ≤ daysInMonth d.year d.month

def text (d : Date) : String :=
  padded 4 d.year.toNat ++ "-" ++ padded 2 d.month ++ "-" ++ padded 2 d.day

/-- The date that lies `days` after the first of January 1970. Years are counted from March, so that a
leap day ends its year. -/
def ofEpochDays (days : Int) : Date :=
  let shifted := days + 719468
  let era := Int.fdiv shifted 146097
  let dayOfEra := (shifted - era * 146097).toNat
  let yearOfEra :=
    (dayOfEra - dayOfEra / 1460 + dayOfEra / 36524 - dayOfEra / 146096) / 365
  let dayOfYear := dayOfEra - (365 * yearOfEra + yearOfEra / 4 - yearOfEra / 100)
  let march := (5 * dayOfYear + 2) / 153
  let day := dayOfYear - (153 * march + 2) / 5 + 1
  let month := if march < 10 then march + 3 else march - 9
  let year := yearOfEra + era * 400 + if month ≤ 2 then 1 else 0
  ⟨year, month, day⟩

def epochDays (d : Date) : Int :=
  let year := if d.month ≤ 2 then d.year - 1 else d.year
  let month : Int := (d.month + 9) % 12
  year * 365 + Int.fdiv year 4 - Int.fdiv year 100 + Int.fdiv year 400 + (153 * month + 2) / 5 + d.day - 719469

end Date

namespace Moment

def isValid (m : Moment) : Bool :=
  m.date.isValid && m.hour ≤ 23 && m.minute ≤ 59 && m.second ≤ 59

def clockText (m : Moment) : String :=
  padded 2 m.hour ++ ":" ++ padded 2 m.minute ++ ":" ++ padded 2 m.second

def offsetText (minutes : Int) : String :=
  (if minutes < 0 then "-" else "+") ++ padded 2 (minutes.natAbs / 60) ++ ":" ++
    padded 2 (minutes.natAbs % 60)

def textWith (sep : String) (m : Moment) : String :=
  m.date.text ++ sep ++ m.clockText ++ (if m.micro = 0 then "" else "." ++ padded 6 m.micro) ++
    match m.offset with
    | some minutes => offsetText minutes
    | none => ""

def ofEpochSeconds (seconds : Int) (micro : Nat) : Moment :=
  let days := Int.fdiv seconds 86400
  let rest := (seconds - days * 86400).toNat
  ⟨Date.ofEpochDays days, rest / 3600, rest / 60 % 60, rest % 60, micro, some 0⟩

def epochSeconds? (m : Moment) : Option Int :=
  m.offset.map fun minutes =>
    m.date.epochDays * 86400 + m.hour * 3600 + m.minute * 60 + m.second - minutes * 60

def isSame (a b : Moment) : Bool :=
  a == b || (a.offset.isSome && a.epochSeconds? == b.epochSeconds? && a.micro == b.micro)

end Moment

end FeedOutline.Data
