import FeedOutline.Disk.Pathname
import FeedOutline.Text.Lines
import FeedOutline.Text.Utf8

/-!
The files of a machine by the names that lead to them from the root, all of which are texts. Every file can
be read and written, every directory searched and changed, and no name is a link.
-/
namespace FeedOutline.Disk

open Text

inductive Entry where
  | file (content : Bytes)
  | directory
  deriving Repr, BEq, DecidableEq, Inhabited

structure FileTree where
  /-- The directory in which the program runs. -/
  here : List String := []
  /-- The files, and the directories but the root. -/
  entries : List (List String × Entry) := []
  deriving Repr, BEq, DecidableEq, Inhabited

inductive Fault where
  | missing
  | notDirectory
  | isDirectory
  | alreadyThere
  | nameTooLong
  deriving Repr, BEq, DecidableEq, Inhabited

def Fault.number : Fault → Nat
  | missing => 2
  | alreadyThere => 17
  | notDirectory => 20
  | isDirectory => 21
  | nameTooLong => 36

def Fault.text : Fault → String
  | missing => "No such file or directory"
  | alreadyThere => "File exists"
  | notDirectory => "Not a directory"
  | isDirectory => "Is a directory"
  | nameTooLong => "File name too long"

def Fault.message (f : Fault) (path : String) : String :=
  "[Errno " ++ toString f.number ++ "] " ++ f.text ++ ": " ++ quoted path

inductive Place where
  | directory (names : List String)
  | file (names : List String) (content : Bytes)
  deriving Repr, BEq, DecidableEq, Inhabited

namespace FileTree

def entry? (t : FileTree) (names : List String) : Option Entry :=
  if names.isEmpty then some .directory else t.entries.lookup names

/-- One step from a place. The root is its own parent. -/
def follow (t : FileTree) (place : Place) (name : String) : Except Fault Place :=
  match place with
  | .file _ _ => .error .notDirectory
  | .directory names =>
    if name == "" || name == "." then .ok place
    else if name == ".." then .ok (.directory names.dropLast)
    else if 255 < name.utf8ByteSize then .error .nameTooLong
    else match t.entry? (names ++ [name]) with
      | some .directory => .ok (.directory (names ++ [name]))
      | some (.file content) => .ok (.file (names ++ [name]) content)
      | none => .error .missing

def start (t : FileTree) (path : String) : List String :=
  if startsWith "/" path then [] else t.here

def find (t : FileTree) (path : String) : Except Fault Place :=
  if path.isEmpty then .error .missing
  else if 4095 < path.utf8ByteSize then .error .nameTooLong
  else
    let names := (splitOn '/' path.toList).map String.ofList
    names.foldlM t.follow (.directory (t.start path))

def has (t : FileTree) (path : String) : Bool :=
  (t.find path).toOption.isSome

/-- Whether a path leads anywhere, unless it cannot even be looked up. The character zero is in no name, so
a path that holds it is not looked up and leads nowhere. -/
def isThere (t : FileTree) (path : String) : Except Fault Bool :=
  match t.find path with
  | .ok _ => .ok true
  | .error .missing | .error .notDirectory => .ok false
  | .error f => if path.toList.contains '\x00' then .ok false else .error f

def isDirectory (t : FileTree) (path : String) : Bool :=
  match t.find path with
  | .ok (.directory _) => true
  | _ => false

def read (t : FileTree) (path : String) : Except Fault Bytes :=
  match t.find path with
  | .ok (.file _ content) => .ok content
  | .ok _ => .error .isDirectory
  | .error f => .error f

def set (t : FileTree) (names : List String) (e : Entry) : FileTree :=
  { t with entries :=
      if t.entries.any (·.1 == names) then t.entries.map fun x => if x.1 == names then (names, e) else x
      else t.entries ++ [(names, e)] }

def erase (t : FileTree) (names : List String) : FileTree :=
  { t with entries := t.entries.filter (·.1 != names) }

/-- The names under which a file can be written, whether it is there or not. -/
def target (t : FileTree) (path : String) : Except Fault (List String) :=
  match t.find path with
  | .ok (.file names _) => .ok names
  | .ok _ => .error .isDirectory
  | .error .missing =>
    let p := Pathname.ofText path
    match t.find p.parent.text, p.names.getLast? with
    | .ok (.directory names), some name => .ok (names ++ [name])
    | _, _ => .error .missing
  | .error f => .error f

def write (t : FileTree) (path : String) (content : Bytes) : Except Fault FileTree := do
  return t.set (← t.target path) (.file content)

def append (t : FileTree) (path : String) (content : Bytes) : Except Fault FileTree := do
  let names ← t.target path
  let before := match t.entry? names with
    | some (.file bytes) => bytes
    | _ => []
  return t.set names (.file (before ++ content))

def makeDirectory (t : FileTree) (path : String) : Except Fault FileTree :=
  match t.find path with
  | .ok _ => .error .alreadyThere
  | .error .missing => do return t.set (← t.target path) .directory
  | .error f => .error f

def makeWithAbove (root : String) : List String → FileTree → FileTree × Except Fault Unit
  | above, t =>
    let path := (Pathname.mk root above.reverse).text
    match t.makeDirectory path with
    | .ok t => (t, .ok ())
    | .error .missing =>
      match above with
      | [] => (t, .error .missing)
      | _ :: above =>
        match makeWithAbove root above t with
        | (t, .error f) => (t, .error f)
        | (t, .ok _) =>
          match t.makeDirectory path with
          | .ok t => (t, .ok ())
          | .error f => if t.isDirectory path then (t, .ok ()) else (t, .error f)
    | .error f => if t.isDirectory path then (t, .ok ()) else (t, .error f)

/-- Makes a directory and those above it. Those that could be made stay, even if one could not. -/
def makeDirectories (t : FileTree) (p : Pathname) : FileTree × Except Fault Unit :=
  makeWithAbove p.root p.names.reverse t

def remove (t : FileTree) (path : String) : Except Fault FileTree :=
  match t.find path with
  | .ok (.file names _) => .ok (t.erase names)
  | .ok _ => .error .isDirectory
  | .error f => .error f

end FileTree

inductive ReadError where
  | file (f : Fault) (path : String)
  | bytes (e : DecodeError)
  deriving Repr, BEq, DecidableEq, Inhabited

def ReadError.message : ReadError → String
  | file f path => f.message path
  | bytes e => e.message

def FileTree.readText (t : FileTree) (path : String) : Except ReadError String :=
  match t.read path with
  | .error f => .error (.file f path)
  | .ok bytes =>
    match decodeUtf8 bytes with
    | .error e => .error (.bytes e)
    | .ok s => .ok (String.ofList (unifyReturns s.toList))

end FeedOutline.Disk
