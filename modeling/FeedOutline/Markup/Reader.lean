import FeedOutline.Markup.Attribute
import FeedOutline.Markup.Doctype

/-!
Reading a document into the tree of its root element.
-/
namespace FeedOutline.Markup

structure Frame where
  raw : List Char
  name : Name
  attributes : List (Name × String) := []
  spaces : Spaces := []
  children : List Node := []
  deriving Repr, Inhabited

def Frame.finish (f : Frame) : Node :=
  .element f.name f.attributes f.children.reverse

def addChar (c : Char) : List Node → List Node
  | .text s :: ns => .text (s.push c) :: ns
  | ns => .text (String.singleton c) :: ns

structure Tree where
  frames : List Frame := []
  root : Option Node := none
  deriving Repr, Inhabited

namespace Tree

def spaces (t : Tree) : Spaces :=
  match t.frames with
  | [] => .initial
  | f :: _ => f.spaces

def addNode (t : Tree) (n : Node) : Tree :=
  match t.frames with
  | [] => { t with root := some n }
  | f :: fs => { t with frames := { f with children := n :: f.children } :: fs }

def addText (t : Tree) (c : Char) : Tree :=
  match t.frames with
  | [] => t
  | f :: fs => { t with frames := { f with children := addChar c f.children } :: fs }

def addTag (d : Declarations) (t : Tree) (tag : Tag) (offset : Nat) : Except Fault Tree := do
  let all ← allAttributes d offset t.spaces tag
  let attributes ← nameAttributes all.spaces offset [] all.valued
  match elementName? all.spaces tag.name with
  | none => .error ⟨.unboundPrefix, offset⟩
  | some name =>
    let f : Frame := ⟨tag.name, name, attributes, all.spaces, []⟩
    return if tag.isEmpty then t.addNode f.finish else { t with frames := f :: t.frames }

def closeTag (outside : Nat) (t : Tree) (name : List Char) (offset : Nat) : Except Fault Tree :=
  match t.frames with
  | [] => .error ⟨.mismatchedTag, offset + 2⟩
  | f :: fs =>
    if t.frames.length = outside then .error ⟨.asyncEntity, offset⟩
    else if f.raw != name then .error ⟨.mismatchedTag, offset + 2⟩
    else .ok ({ t with frames := fs }.addNode f.finish)

def step (entity : Tree → List Char → Nat → Except Fault Tree) (d : Declarations) (outside : Nat)
    (t : Tree) (p : Placed) : Except Fault Tree :=
  match p.token with
  | .tag tag => t.addTag d tag p.offset
  | .close name => t.closeTag outside name p.offset
  | .char c => .ok (t.addText c)
  | .entity name => entity t name p.offset
  | .aside (.declaration _) => .error ⟨.misplacedDeclaration, p.offset⟩
  | .aside _ => .ok t
  | .fault r => .error ⟨r, p.offset⟩
  | .finish =>
    if outside = 0 then .error ⟨.noElement, p.offset⟩
    else if t.frames.length = outside then .ok t
    else .error ⟨.asyncEntity, p.offset⟩
  | _ => .error ⟨.syntaxFault, p.offset⟩

/-- Reads the text of an entity. Faults inside of it count as faults of the reference. The entities in
`within` are being read, of which there can be at most `fuel` more. -/
def addEntity (d : Declarations) : Nat → List (List Char) → Tree → List Char → Nat → Except Fault Tree
  | 0, _, _, _, offset => .error ⟨.recursiveEntity, offset⟩
  | fuel + 1, within, t, name, offset =>
    match d.entity? name with
    | none =>
      .error ⟨if d.isComplete then .undefinedEntity else .missingEntity (String.ofList name), offset⟩
    | some body =>
      if within.contains name then .error ⟨.recursiveEntity, offset⟩
      else match body with
        | .external => .error ⟨.missingEntity (String.ofList name), offset⟩
        | .binary => .error ⟨.binaryEntity, offset⟩
        | .text s =>
          match (contentTokens s).foldlM
              (step (addEntity d fuel (name :: within)) d t.frames.length) t with
          | .ok t => .ok t
          | .error f => .error { f with offset }

end Tree

structure Reader where
  prolog : Prolog := .opening
  declarations : Declarations := {}
  /-- The root element has begun. -/
  isInside : Bool := false
  tree : Tree := {}
  deriving Repr, Inhabited

namespace Reader

/-- Behind the root element only comments and instructions may stand. -/
def stepBehind (r : Reader) (p : Placed) : Except Fault Reader :=
  match p.token with
  | .aside .comment | .aside .instruction | .finish => .ok r
  | .fault reason => .error ⟨reason, p.offset⟩
  | _ => .error ⟨.junkAfterRoot, p.offset⟩

def step (first : Nat) (r : Reader) (p : Placed) : Except Fault Reader :=
  if r.tree.root.isSome then r.stepBehind p
  else if r.isInside then do
    let d := r.declarations
    let tree ← r.tree.step (Tree.addEntity d (d.entities.length + 1) []) d 0 p
    return { r with tree }
  else match p.token with
    | .root =>
      if r.prolog.allowsRoot then .ok { r with isInside := true }
      else .error ⟨.syntaxFault, p.offset⟩
    | _ => do
      let (declarations, prolog) ← r.prolog.step first r.declarations p
      return { r with declarations, prolog }

end Reader

def readTokens (first : Nat) (ts : List Placed) : Except Fault Node := do
  let r ← ts.foldlM (Reader.step first) {}
  match r.tree.root with
  | some root => .ok root
  | none => .error ⟨.noElement, first⟩

def read (document : String) : Except Error Node :=
  let text := document.toList
  match readTokens (if text.head? == some '\ufeff' then 1 else 0) (tokens text) with
  | .ok root => .ok root
  | .error f => .error (Error.ofFault text f)

end FeedOutline.Markup
