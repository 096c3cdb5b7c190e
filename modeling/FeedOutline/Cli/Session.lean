import FeedOutline.Compile
import FeedOutline.Log.Setup
import FeedOutline.Sample
import FeedOutline.Settings

/-!
One run of the program: what it has written so far, and how it ends before its time.
-/
namespace FeedOutline.Cli

open Disk (FileTree ReadError)
open Log (Record Logger Outputs)

/-- What ends a run without a message of its own. -/
inductive Crash where
  | settings (e : Settings.LoadError)
  | logging (e : Log.SetupError)
  | compile (e : CompileError)
  | unreadable (cause : ReadError)
  /-- What is wrong with a file of samples, if the program does not report it. -/
  | malformed (f : Yaml.Fault)
  | misfit (m : Misfit)
  /-- The homes of users in the paths of the configuration. -/
  | home (f : Disk.HomeFault)
  /-- A lone surrogate in a text that is written. -/
  | torn
  | unwritable (f : Disk.Fault) (path : String)
  /-- A path on the command line with the character zero. -/
  | badPath
  deriving Repr, BEq, DecidableEq, Inhabited

def Crash.message : Crash → String
  | settings (.config e) => e.message
  | settings (.unreadable cause) => cause.message
  | settings .badVariable => "a variable that cannot be set"
  | logging e => e.message
  | compile e => e.message
  | unreadable cause => cause.message
  | malformed f => f.message
  | misfit .notText => "a field that holds no text"
  | misfit .unusable => "a field that cannot be used"
  | misfit .unshowable => "a field that cannot be shown"
  | misfit .unwritable => "a field with a lone surrogate"
  | home f => f.message
  | torn => "surrogates not allowed"
  | unwritable f path => f.message path
  | badPath => "a path with the character zero"

inductive Stop where
  | exit (code : Nat)
  | crash (c : Crash)
  deriving Repr, BEq, DecidableEq, Inhabited

structure Session where
  settings : Settings := {}
  logger : Logger := {}
  outputs : Outputs := {}
  /-- The time that log records are given. -/
  time : Data.Decimal := .finite false 0 0
  deriving Inhabited

/-- A part of a run. What it did before it stopped stays done. -/
abbrev Run (α : Type) := ExceptT Stop (StateM Session) α

namespace Run

def say (records : List Record) : Run Unit :=
  modify fun s => { s with outputs := s.logger.deliverAll s.time records s.outputs }

def write (stream : Log.Stream) (text : String) : Run Unit :=
  modify fun s => { s with outputs := s.outputs.write stream text }

def print (line : String) : Run Unit :=
  write .out (line ++ "\n")

def fail (code : Nat) (message : String) : Run α := do
  write .err (message ++ "\n")
  throw (.exit code)

def crash (c : Crash) : Run α :=
  throw (.crash c)

def files : Run FileTree := do
  return (← get).outputs.files

def setFiles (t : FileTree) : Run Unit :=
  modify fun s => { s with outputs := { s.outputs with files := t } }

def change (path : String) (result : Except Disk.Fault FileTree) : Run Unit :=
  match result with
  | .ok t => setFiles t
  | .error f => crash (.unwritable f path)

end Run

end FeedOutline.Cli
