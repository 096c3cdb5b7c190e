import FeedOutline.Yaml.Node
import FeedOutline.Yaml.Source

/-!
The only document of a text, as a graph of nodes.
-/
namespace FeedOutline.Yaml

open Compose (peek skip isNext)

structure Graph where
  nodes : Array Node
  root : Nat
  deriving Repr, Inhabited

def standardHandles : List (String × String) :=
  [("!", "!"), ("!!", tagSpace)]

def readDirectives : Nat → Bool → List (String × String) → Compose (List (String × String))
  | 0, _, handles => return handles
  | fuel + 1, hasVersion, handles => do
    match ← peek with
    | .version major =>
      skip
      if hasVersion || major != 1 then Compose.refuse .structural else readDirectives fuel true handles
    | .tagHandle handle start =>
      skip
      if (handles.lookup handle).isSome then Compose.refuse .structural
      else readDirectives fuel hasVersion ((handle, start) :: handles)
    | .otherDirective =>
      skip
      readDirectives fuel hasVersion handles
    | _ => return handles

def isDirective : Token → Bool
  | .version _ | .tagHandle _ _ | .otherDirective => true
  | _ => false

def readStart (fuel : Nat) : Compose Unit := do
  let handles ← readDirectives fuel false []
  if ← isNext [.documentStart] then
    skip
    modify fun s => { s with handles := handles ++ standardHandles }
  else Compose.refuse .structural

def skipEnds : Nat → Compose Unit
  | 0 => return ()
  | fuel + 1 => do
    if ← isNext [.documentEnd] then
      skip
      skipEnds fuel

def readEnd (fuel : Nat) : Compose Unit := do
  skipEnds fuel
  if ← isNext [.finish] then return ()
  else
    readStart fuel
    Compose.refuse .composition

/-- The root of the only document, none if there is no document. A document whose start is marked may
be empty. `fuel` is at least twice the number of tokens. -/
def readDocument (fuel : Nat) : Compose (Option Nat) := do
  let t ← peek
  if t == .finish then return none
  else
    let isMarked := isDirective t || t == .documentStart
    if isMarked then readStart fuel
    else modify fun s => { s with handles := standardHandles }
    let t ← peek
    let isEmpty := isMarked && (isDirective t || [Token.documentStart, .documentEnd, .finish].contains t)
    let root ← if isEmpty then emptyNode else readNode fuel ⟨true, false⟩
    readEnd fuel
    return some root

/-- The graph of a text. A character makes at most four tokens. -/
def Graph.ofCursor? (c : Cursor) : Except Fault (Option Graph) := do
  let (root, s) ← (readDocument (8 * c.rest.length + 16)).run { scan := { cursor := c } }
  return root.map fun root => ⟨s.nodes, root⟩

end FeedOutline.Yaml
