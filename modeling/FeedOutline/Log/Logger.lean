import FeedOutline.Disk.FileTree
import FeedOutline.Log.Format

/-!
The logger of the program: which records it lets through, and where its handlers write them.
-/
namespace FeedOutline.Log

open Data (Value)
open Disk (FileTree)
open Text

def topName : String :=
  "orgfeed"

def loggerName (s : String) : String :=
  if s == topName || startsWith (topName ++ ".") s then s
  else if s == "__main__" then topName
  else topName ++ "." ++ s

inductive Stream where
  | out
  | err
  deriving Repr, BEq, DecidableEq, Inhabited

inductive Destination where
  | console (stream : Stream)
  /-- A file that makes room for a new one before it grows beyond a size. -/
  | file (names : List String) (maxBytes backupCount : Value)
  deriving Repr, BEq, Inhabited

structure Handler where
  destination : Destination
  level : Level
  format : Format
  deriving Repr, BEq, Inhabited

/-- A logger that was never set up has no level and no handlers, and hands records on. -/
structure Logger where
  level : Level := 0
  propagates : Bool := true
  handlers : List Handler := []
  deriving Repr, BEq, Inhabited

structure Outputs where
  out : String := ""
  err : String := ""
  files : FileTree := {}
  deriving Repr, BEq, Inhabited

namespace Outputs

def write (stream : Stream) (s : String) (o : Outputs) : Outputs :=
  match stream with
  | .out => { o with out := o.out ++ s }
  | .err => { o with err := o.err ++ s }

end Outputs

/-- How large a file may grow: none if there is no limit, and nothing at all for what is no number. -/
def sizeLimit? : Value → Option (Option Nat)
  | .scalar (.bool b) => some (if b then some 1 else none)
  | .scalar (.int n) => some (if 0 < n then some n.toNat else none)
  | .scalar (.decimal (.finite negative digits exponent)) =>
    let above := -(Data.Decimal.floorShifted 0 (.finite (!negative) digits exponent))
    some (if 0 < above then some above.toNat else none)
  | .scalar (.decimal _) => some none
  | _ => none

def keptFiles : Value → Nat
  | .scalar s => ((s.number?).getD 0).toNat
  | _ => 0

def olderNames (names : List String) (i : Nat) : List String :=
  match names.getLast? with
  | some last => names.dropLast ++ [last ++ "." ++ toString i]
  | none => names

def moveFile (t : FileTree) (source target : List String) : FileTree :=
  match t.entry? source with
  | some e => ((t.erase source).erase target).set target e
  | none => t

/-- The older files move one place on, the file itself becomes the newest of them, and a new one is
begun. Without older files the file grows on. -/
def rotated (names : List String) (kept : Nat) (t : FileTree) : FileTree :=
  if kept = 0 then t
  else
    let moved := (List.range (kept - 1)).reverse.foldl (fun t i =>
      moveFile t (olderNames names (i + 1)) (olderNames names (i + 2))) t
    (moveFile moved names (olderNames names 1)).set names (.file [])

def fileSize (t : FileTree) (names : List String) : Nat :=
  match t.entry? names with
  | some (.file content) => content.length
  | _ => 0

/-- Whether a file has no room for a line, the length of which is counted in characters. -/
def isFull (limit : Option Nat) (size : Nat) (line : String) : Bool :=
  match limit with
  | some n => n ≤ size + line.length
  | none => false

def addToFile (names : List String) (maxBytes backupCount : Value) (line : String) (t : FileTree) : FileTree :=
  let limit := ((sizeLimit? maxBytes).getD none)
  let t := if isFull limit (fileSize t names) line then rotated names (keptFiles backupCount) t else t
  let before := match t.entry? names with
    | some (.file content) => content
    | _ => []
  t.set names (.file (before ++ encodeUtf8 line))

namespace Handler

def write (h : Handler) (line : String) (o : Outputs) : Outputs :=
  match h.destination with
  | .console stream => o.write stream line
  | .file names maxBytes backupCount =>
    { o with files := addToFile names maxBytes backupCount line o.files }

def handle (h : Handler) (e : Event) (o : Outputs) : Outputs :=
  if e.record.level < h.level then o
  else match e.withComponent.line h.format with
    | .ok line => h.write (line ++ "\n") o
    | .error _ => o

end Handler

namespace Logger

def effectiveLevel (l : Logger) : Level :=
  if l.level = 0 then Level.warning else l.level

def lets (l : Logger) (level : Level) : Bool :=
  0 < level && l.effectiveLevel ≤ level

/-- Without a handler, warnings and what is graver are written as bare lines. -/
def writeBare (e : Event) (o : Outputs) : Outputs :=
  if Level.warning ≤ e.record.level then o.write .err (e.record.message ++ "\n") else o

def emit (l : Logger) (e : Event) (o : Outputs) : Outputs :=
  if !l.lets e.record.level then o
  else if l.handlers.isEmpty then writeBare e o
  else l.handlers.foldl (fun o h => h.handle e o) o

/-- Records of others, whose loggers are never set up, are not for the handlers. -/
def deliver (l : Logger) (e : Event) (o : Outputs) : Outputs :=
  if e.record.logger == topName || startsWith (topName ++ ".") e.record.logger then l.emit e o
  else writeBare e o

def deliverAll (l : Logger) (time : Data.Decimal) (records : List Record) (o : Outputs) : Outputs :=
  records.foldl (fun o record => l.deliver { record, time } o) o

end Logger

end FeedOutline.Log
