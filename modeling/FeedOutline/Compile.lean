import FeedOutline.Disk.FileTree
import FeedOutline.Outline.Reader
import FeedOutline.RuleTable

/-!
From outline documents to a rule table. All documents are looked up before the first is read, so that a
missing one stops the compilation before any work is done.
-/
namespace FeedOutline

open Disk (Pathname FileTree ReadError)
open Outline (Node)

structure Selection where
  /-- The tag or id that marks the trees with feeds. -/
  marker : String := "elfeed"
  ignoreTag : String := "ignore"
  keywords : List Keyword := Keyword.all
  deriving Repr, BEq, DecidableEq, Inhabited

namespace Selection

/-- The headings of the marked trees as they are classified, each once. -/
def entriesOf (s : Selection) (trees : List Node) : List FlatEntry :=
  dedupe (cleanup s.marker (flattenAll trees))

def tableOf (s : Selection) (entries : List FlatEntry) : RuleTable :=
  .build s.keywords (classify s.ignoreTag s.keywords entries)

def treesOf (s : Selection) (text : String) : List Node :=
  Outline.marked s.marker (Outline.parse text)

def compileTexts (s : Selection) (texts : List String) : RuleTable :=
  s.tableOf (s.entriesOf (texts.flatMap s.treesOf))

end Selection

inductive CompileError where
  | home (f : Disk.HomeFault)
  /-- The document cannot be looked up for a reason other than that it is not there. -/
  | unreachable (f : Disk.Fault)
  | notFound (path : Pathname)
  | unreadable (path : Pathname) (cause : ReadError)
  deriving Repr, BEq, DecidableEq, Inhabited

def CompileError.message : CompileError → String
  | home f => f.message
  | unreachable f => f.text
  | notFound path =>
    "Outline file not found: " ++ path.text ++
      ". Check the outline.files setting or the paths given on the command line."
  | unreadable path cause =>
    "Could not read outline file " ++ path.text ++ ": " ++ cause.message

namespace Compile

def expandAll (env : Environment) (documents : List String) : Except CompileError (List Pathname) :=
  documents.mapM fun d => ((Pathname.ofText d).expand env).mapError .home

def checkThere (files : FileTree) (p : Pathname) : Except CompileError Unit :=
  match files.isThere p.text with
  | .ok true => .ok ()
  | .ok false => .error (.notFound p)
  | .error f => .error (.unreachable f)

def readDocument (files : FileTree) (p : Pathname) : Except CompileError String :=
  match files.readText p.text with
  | .ok text => .ok text
  | .error e => .error (.unreadable p e)

def readDocuments (env : Environment) (files : FileTree) (documents : List String) :
    Except CompileError (List String) := do
  let paths ← expandAll env documents
  paths.forM (checkThere files)
  paths.mapM (readDocument files)

def table (s : Selection) (env : Environment) (files : FileTree) (documents : List String) :
    Except CompileError RuleTable := do
  return s.compileTexts (← readDocuments env files documents)

end Compile

end FeedOutline
