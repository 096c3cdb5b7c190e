/-!
Outline trees: headings with their own tags, an optional id, and the headings below them.
-/
namespace FeedOutline.Outline

/-- A heading and everything below it. Its tags are those written on it, not the inherited ones. -/
structure Node where
  text : String
  level : Int
  tags : List String := []
  id : Option String := none
  children : List Node := []
  deriving Repr, BEq, Inhabited

mutual

def Node.walk : Node → List Node
  | ⟨text, level, tags, id, children⟩ => ⟨text, level, tags, id, children⟩ :: walkAll children

def walkAll : List Node → List Node
  | [] => []
  | n :: ns => n.walk ++ walkAll ns

end

/-- Whether the marker selects this node: as one of its own tags or as its id. -/
def Node.isMarked (marker : String) (n : Node) : Bool :=
  n.tags.contains marker || n.id == some marker

/-- Every selected node of a forest, those inside another selected node included. -/
def marked (marker : String) (roots : List Node) : List Node :=
  (walkAll roots).filter (·.isMarked marker)

end FeedOutline.Outline
