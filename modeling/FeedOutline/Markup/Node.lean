/-!
Documents as trees of elements and texts.
-/
namespace FeedOutline.Markup

structure Name where
  space : Option String := none
  text : String
  deriving Repr, BEq, DecidableEq, Inhabited

def Name.plain (text : String) : Name :=
  ⟨none, text⟩

inductive Node where
  | element (name : Name) (attributes : List (Name × String)) (children : List Node)
  | text (s : String)
  deriving Repr, BEq, Inhabited

namespace Node

def hasName (name : String) : Node → Bool
  | element n _ _ => n == .plain name
  | text _ => false

def children : Node → List Node
  | element _ _ cs => cs
  | text _ => []

def childrenNamed (name : String) (n : Node) : List Node :=
  n.children.filter (·.hasName name)

def attribute? (name : String) : Node → Option String
  | element _ attributes _ => attributes.lookup (.plain name)
  | text _ => none

end Node

end FeedOutline.Markup
