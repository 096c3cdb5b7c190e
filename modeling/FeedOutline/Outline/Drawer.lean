import FeedOutline.Text.Blank
import FeedOutline.Text.Case
import FeedOutline.Text.Split

/-!
Property drawers: the lines below a heading that may give it an id.
-/
namespace FeedOutline.Outline

open Text

inductive Drawer where
  /-- The drawer may still begin. -/
  | awaited
  | inside
  /-- There is no drawer, or it is over. -/
  | over
  deriving Repr, BEq, DecidableEq, Inhabited

def property? : List Char → Option (List Char × List Char)
  | ':' :: rest =>
    let inName := fun c => c != ':' && !isBlank c
    let name := rest.takeWhile inName
    match rest.dropWhile inName with
    | ':' :: value =>
      if !name.isEmpty && (value.isEmpty || value.head?.any isGap) then some (name, trim value)
      else none
    | _ => none
  | _ => none

def idProperty? (line : List Char) : Option (Option String) :=
  match property? line with
  | some (name, value) =>
    if upper name == "ID".toList then
      some (if value.isEmpty then none else some (String.ofList value))
    else none
  | none => none

/-- Letters are compared without case; the dotted capital I counts as an I. -/
def sameLetter (capital c : Char) : Bool :=
  upperChar c == [capital] || (capital == 'I' && c == 'İ')

def startsWithCapitals : List Char → List Char → Bool
  | [], _ => true
  | _ :: _, [] => false
  | w :: ws, c :: cs => sameLetter w c && startsWithCapitals ws cs

/-- A line that schedules a heading; it may stand above the drawer. -/
def isPlanning (line : List Char) : Bool :=
  ["SCHEDULED:", "DEADLINE:", "CLOSED:"].any fun w => startsWithCapitals w.toList line

def opensDrawer (line : List Char) : Bool :=
  upper line == ":PROPERTIES:".toList

def closesDrawer (line : List Char) : Bool :=
  upper line == ":END:".toList

/-- Reads one trimmed line: where the reader stands after it, and the id that it sets. -/
def Drawer.step (line : List Char) : Drawer → Drawer × Option (Option String)
  | .inside => if closesDrawer line then (.over, none) else (.inside, idProperty? line)
  | .awaited =>
    if opensDrawer line then (.inside, none)
    else if isPlanning line then (.awaited, none)
    else (.over, none)
  | .over => (.over, none)

end FeedOutline.Outline
