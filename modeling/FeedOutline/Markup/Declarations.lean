import FeedOutline.Markup.Reference

/-!
What the declarations of a document say: the texts of entities, and the kinds and defaults of attributes.
-/
namespace FeedOutline.Markup

inductive EntityBody where
  | text (s : List Char)
  /-- Kept in another file, which is never read. -/
  | external
  | binary
  deriving Repr, BEq, DecidableEq, Inhabited

structure DeclaredAttribute where
  element : List Char
  name : List Char
  /-- Whether spaces in its value only stand between words. -/
  isWords : Bool := false
  default? : Option (List Char) := none
  deriving Repr, BEq, DecidableEq, Inhabited

structure Declarations where
  entities : List (List Char × EntityBody) := []
  /-- In the order of their declarations. -/
  attributes : List DeclaredAttribute := []
  /-- There may be declarations that are not read. -/
  isPartial : Bool := false
  /-- Declarations that come now no longer count. -/
  isOver : Bool := false
  standsAlone : Bool := false
  deriving Repr, BEq, DecidableEq, Inhabited

namespace Declarations

def entity? (d : Declarations) (name : List Char) : Option EntityBody :=
  d.entities.lookup name

/-- The first declaration of a name counts. -/
def declare (d : Declarations) (name : List Char) (body : EntityBody) : Declarations :=
  if d.isOver || (d.entity? name).isSome || (namedChar? name).isSome then d
  else { d with entities := (name, body) :: d.entities }

def attributesOf (d : Declarations) (element : List Char) : List DeclaredAttribute :=
  d.attributes.filter (·.element == element)

/-- The first declaration of an attribute decides on its kind. -/
def isWords (d : Declarations) (element name : List Char) : Bool :=
  (((d.attributesOf element).find? (·.name == name)).map (·.isWords)).getD false

def declareAttribute (d : Declarations) (a : DeclaredAttribute) : Declarations :=
  if d.isOver || (a.default?.isSome && (d.attributesOf a.element).any (·.name == a.name)) then d
  else { d with attributes := d.attributes ++ [a] }

def isComplete (d : Declarations) : Bool :=
  !d.isPartial || d.standsAlone

end Declarations

end FeedOutline.Markup
