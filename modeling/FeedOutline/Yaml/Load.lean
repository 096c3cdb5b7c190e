import FeedOutline.Yaml.Construct

/-!
The value of a document. A list or a mapping that stands in several places, or in itself, is a part of its
own.
-/
namespace FeedOutline.Yaml

open Data (Value Document)

/-- The objects of a graph, and the numbers of those that are parts of their own. -/
structure Objects where
  all : Array (Option Object)
  shared : List Nat := []
  deriving Inhabited

def Object.children : Object → List Nat
  | .scalar _ | .waiting | .set _ => []
  | .list items => items
  | .map entries => entries.map (·.2)
  | .pairs items => items.flatMap fun (a, b) => [a, b]

def Object.isCollection : Object → Bool
  | .list _ | .map _ | .pairs _ => true
  | .scalar _ | .waiting | .set _ => false

namespace Objects

def countUses (root : Nat) (all : Array (Option Object)) : Array Nat :=
  let once (counts : Array Nat) (n : Nat) := counts.modify n (· + 1)
  all.foldl (fun counts o => ((o.map Object.children).getD []).foldl once counts)
    (once (Array.replicate all.size 0) root)

def ofGraph (root : Nat) (all : Array (Option Object)) : Objects :=
  let uses := countUses root all
  ⟨all, (List.range all.size).filter fun n =>
    1 < uses.getD n 0 && ((all.getD n none).map Object.isCollection).getD false⟩

def isMap : Object → Bool
  | .map _ => true
  | _ => false

mutual

/-- The value of a node. The nodes that are not shared make a tree, so that `fuel` need not be more than
their number. -/
def valueOf (os : Objects) : Nat → Nat → Value
  | 0, _ => .null
  | fuel + 1, n =>
    match os.all.getD n none with
    | some (.scalar s) => .scalar s
    | some o =>
      match os.shared.findIdx? (· == n) with
      | some number => .part number (isMap o)
      | none => os.contentOf fuel o
    | none => .null

def contentOf (os : Objects) : Nat → Object → Value
  | 0, _ => .null
  | fuel + 1, o =>
    match o with
    | .scalar s => .scalar s
    | .waiting => .null
    | .list items => .list (items.map (os.valueOf fuel))
    | .map entries => .map (entries.map fun (k, n) => (k, os.valueOf fuel n))
    | .set items => .set items
    | .pairs items => .list (items.map fun (a, b) => .pair (os.valueOf fuel a) (os.valueOf fuel b))

end

def toDocument (root : Nat) (os : Objects) : Document :=
  let fuel := 2 * os.all.size + 2
  ⟨os.valueOf fuel root, os.shared.map fun n => os.contentOf fuel ((os.all.getD n none).getD .waiting)⟩

end Objects

def load (bytes : Text.Bytes) : Except Fault Document := do
  match ← Graph.ofCursor? (.ofBytes bytes) with
  | none => return ⟨.null, []⟩
  | some g => return (Objects.ofGraph g.root (← objectsOf g)).toDocument g.root

end FeedOutline.Yaml
