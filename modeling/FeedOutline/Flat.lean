import FeedOutline.Outline.Node

/-!
Headings paired with the tags they inherit. A heading has the tags of every heading on the path to it,
outermost first; levels alone decide what lies on the path.
-/
namespace FeedOutline

open Outline (Node)

structure FlatEntry where
  heading : String
  tags : List String := []
  deriving Repr, BEq, DecidableEq, Inhabited

/-- The open path, innermost first: levels and the tags inherited at them. -/
abbrev TagStack := List (Int × List String)

def TagStack.inherited : TagStack → List String
  | [] => []
  | top :: _ => top.2

def flattenFrom : TagStack → List Node → List FlatEntry
  | _, [] => []
  | stack, n :: ns =>
    let path := stack.dropWhile (n.level ≤ ·.1)
    let tags := TagStack.inherited path ++ n.tags
    ⟨n.text, tags⟩ :: flattenFrom ((n.level, tags) :: path) ns

def flatten (root : Node) : List FlatEntry :=
  flattenFrom [] root.walk

def dedupe (entries : List FlatEntry) : List FlatEntry :=
  entries.eraseDups

/-- All trees in a row. A tree selected twice gives its entries once. -/
def flattenAll (roots : List Node) : List FlatEntry :=
  dedupe (roots.flatMap flatten)

def FlatEntry.withoutTag (tag : String) (e : FlatEntry) : FlatEntry :=
  { e with tags := e.tags.filter (· != tag) }

/-- Takes the marker, which only selects trees, off every entry. -/
def cleanup (marker : String) (entries : List FlatEntry) : List FlatEntry :=
  entries.map (·.withoutTag marker)

end FeedOutline
