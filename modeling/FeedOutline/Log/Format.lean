import FeedOutline.Data.Json
import FeedOutline.Log.Record
import FeedOutline.Text.Split

/-!
The lines that records are written as: plain text, or JSON.
-/
namespace FeedOutline.Log

open Data (Value Mapping Decimal Moment)
open Text

inductive Format where
  | plain
  | json
  deriving Repr, BEq, DecidableEq, Inhabited

namespace Format

def name : Format → String
  | plain => "plain"
  | json => "json"

/-- Any name but that of JSON stands for plain text. -/
def ofName (s : String) : Format :=
  if s == "json" then json else plain

end Format

structure Failure where
  kind : String
  text : String
  deriving Repr, BEq, DecidableEq, Inhabited

def Failure.shown (f : Failure) : String :=
  if f.text.isEmpty then f.kind else f.kind ++ ": " ++ f.text

structure Event where
  record : Record
  time : Decimal
  /-- The part of the program that it comes from, once that is known. -/
  component : Option String := none
  failure : Option Failure := none
  extra : Option Value := none
  deriving Repr, BEq, Inhabited

def lastPart (s : String) : String :=
  String.ofList ((s.toList.reverse.takeWhile (· != '.')).reverse)

namespace Event

def withComponent (e : Event) : Event :=
  { e with component := some (e.component.getD (lastPart e.record.logger)) }

def exactTime (e : Event) : Moment :=
  let micros := e.time.roundShifted 6
  .ofEpochSeconds (Int.fdiv micros 1000000) (Int.fmod micros 1000000).toNat

end Event

inductive FormatError where
  /-- A plain line shows the component. -/
  | noComponent
  /-- The time lies before the year 1 or after the year 9999. -/
  | badTime
  /-- The year of the time has more than 32 binary digits. -/
  | badYear
  /-- The seconds of the time have more than 64 binary digits. -/
  | badSeconds
  deriving Repr, BEq, DecidableEq, Inhabited

/-- The seconds of the times whose years, counted from 1900, have 32 binary digits. -/
def firstSecond : Int := -67768040609740800

def lastSecond : Int := 67768036191676799

def wholeSeconds (time : Decimal) : Except FormatError Int :=
  match time with
  | .finite _ _ _ =>
    let seconds := time.floorShifted 0
    if Nat.pow 2 63 < seconds.natAbs then .error .badSeconds
    else if seconds < firstSecond || lastSecond < seconds then .error .badYear
    else .ok seconds
  | _ => .error .badSeconds

def paddedRight (width : Nat) (s : String) : String :=
  s ++ String.ofList (List.replicate (width - s.length) ' ')

namespace Event

def withFailure (line : String) : Option Failure → String
  | none => line
  | some f => line ++ (if line.toList.getLast? == some '\n' then "" else "\n") ++ f.shown

def plainTime (seconds : Int) : String :=
  let m := Moment.ofEpochSeconds seconds 0
  toString m.date.year ++ "-" ++ Data.padded 2 m.date.month ++ "-" ++ Data.padded 2 m.date.day ++ " " ++
    m.clockText

def plainLine (e : Event) : Except FormatError String := do
  let seconds ← wholeSeconds e.time
  match e.component with
  | none => .error .noComponent
  | some component =>
    return withFailure (plainTime seconds ++ " " ++ paddedRight 8 (Level.name e.record.level) ++ " [" ++
      component ++ "] " ++ e.record.message) e.failure

def jsonEntries (e : Event) : Mapping :=
  [(.text "timestamp", .text (e.exactTime.textWith "T")),
   (.text "level", .text (Level.name e.record.level)),
   (.text "message", .text e.record.message),
   (.text "component", .text (e.component.getD e.record.logger))] ++
  (match e.failure with
    | some f => [(.text "exception", .text f.shown)]
    | none => []) ++
  match e.extra with
    | some v => [(.text "extra", v)]
    | none => []

def jsonLine (e : Event) : Except FormatError String := do
  discard (wholeSeconds e.time)
  if e.exactTime.isValid then return (Value.map e.jsonEntries).json else .error .badTime

def line (f : Format) (e : Event) : Except FormatError String :=
  match f with
  | .plain => e.plainLine
  | .json => e.jsonLine

end Event

end FeedOutline.Log
