import FeedOutline.Environment
import FeedOutline.Text.Blank
import FeedOutline.Text.Split
import FeedOutline.Text.Torn

/-!
Paths: a root, if there is one, and the names on the way. Repeated slashes and single dots do not count;
double dots are names like others.
-/
namespace FeedOutline.Disk

open Text

structure Pathname where
  root : String := ""
  names : List String := []
  deriving Repr, BEq, DecidableEq, Inhabited

/-- A leading slash is the root; exactly two are a root of their own. -/
def rootOf : List Char → String
  | '/' :: '/' :: '/' :: _ => "/"
  | '/' :: '/' :: _ => "//"
  | '/' :: _ => "/"
  | _ => ""

namespace Pathname

def ofText (s : String) : Pathname where
  root := rootOf s.toList
  names := ((splitOn '/' s.toList).map String.ofList).filter fun n => n != "" && n != "."

def text (p : Pathname) : String :=
  let s := p.root ++ joined "/" p.names
  if s.isEmpty then "." else s

def parent (p : Pathname) : Pathname :=
  { p with names := p.names.dropLast }

/-- The names from the root on, for a program that runs in a directory. Double dots take away the name
before them. -/
def absolute (here : List String) (p : Pathname) : List String :=
  p.names.foldl (fun names name => if name == ".." then names.dropLast else names ++ [name])
    (if p.root.isEmpty then here else [])

end Pathname

inductive HomeFault where
  | unknown
  /-- A name with the character zero. -/
  | zero
  /-- A name with surrogates that stand for no bytes. -/
  | surrogates
  deriving Repr, BEq, DecidableEq, Inhabited

def HomeFault.message : HomeFault → String
  | unknown => "Could not determine home directory."
  | zero => "embedded null byte"
  | surrogates => "surrogates not allowed"

def homeOf (env : Environment) (user : String) : Except HomeFault (Option (List Char)) :=
  if user.toList.contains '\x00' then .error .zero
  else .ok ((env.home? user).map fun home => dropTrailing (· == '/') home.toList)

/-- Replaces a leading `~` or `~user` by the home; an unknown user is left alone. -/
def expandHome (env : Environment) (s : String) : Except HomeFault String :=
  match s.toList with
  | '~' :: rest => do
    let user := rest.takeWhile (· != '/')
    match ← homeOf env (String.ofList user) with
    | none => return s
    | some home =>
      let full := home ++ rest.drop user.length
      return if full.isEmpty then "/" else String.ofList full
  | _ => .ok s

/-- No user with such a name is known, and some of the names cannot even be asked for: of the surrogates only
those from 0xDC80 to 0xDCFF stand for bytes. -/
def checkTornUser (user : Torn) : Except HomeFault Unit :=
  if user.marks.any fun
    | .char _ => false
    | .surrogate s => s.number < 0xDC80 || 0xDCFF < s.number
  then .error .surrogates
  else if user.chars.contains '\x00' then .error .zero
  else .ok ()

def expandAnyHome (env : Environment) : AnyText → Except HomeFault AnyText
  | .whole s => (expandHome env s).map .whole
  | .torn t =>
    match t.marks with
    | .char '~' :: rest => do
      let user := rest.takeWhile (· != .char '/')
      match AnyText.ofMarks user with
      | .torn user =>
        checkTornUser user
        return .torn t
      | .whole name =>
        match ← homeOf env name with
        | none => return .torn t
        | some home => return .ofMarks (home.map .char ++ rest.drop user.length)
    | _ => .ok (.torn t)

def Pathname.expand (env : Environment) (p : Pathname) : Except HomeFault Pathname :=
  match p.root, p.names with
  | "", first :: rest =>
    if startsWith "~" first then do
      let home ← expandHome env first
      if startsWith "~" home then .error .unknown
      else
        let h := Pathname.ofText home
        return { h with names := h.names ++ rest }
    else .ok p
  | _, _ => .ok p

end FeedOutline.Disk
