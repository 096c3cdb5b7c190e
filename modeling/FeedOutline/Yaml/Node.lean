import FeedOutline.Yaml.Tag
import FeedOutline.Yaml.Tokens

/-!
The nodes that the tokens of a document describe. Nodes are numbered, and an alias is the number of the
node with its anchor, which need not be complete yet: a node may be a part of itself.
-/
namespace FeedOutline.Yaml

inductive Content where
  | scalar (text : Text.AnyText)
  | list (items : List Nat)
  | map (entries : List (Nat × Nat))
  deriving Repr, BEq, Inhabited

structure Node where
  tag : Tag
  content : Content
  deriving Repr, BEq, Inhabited

structure Composing where
  scan : Scan
  handles : List (String × String) := []
  anchors : List (String × Nat) := []
  nodes : Array Node := #[]
  deriving Inhabited

abbrev Compose (α : Type) := StateT Composing (Except Fault) α

namespace Compose

def refuse (f : Fault) : Compose α :=
  throw f

/-- The next token. A fault behind it may already show if it could be a key. -/
def peek : Compose Token := do
  let s ← get
  let scan ← s.scan.settle
  set { s with scan }
  return scan.tokens.headD .finish

def skip : Compose Unit :=
  modify fun s => { s with scan := s.scan.take }

def isNext (ts : List Token) : Compose Bool := do
  return ts.contains (← peek)

def add (anchor : Option String) (n : Node) : Compose Nat := do
  let s ← get
  let number := s.nodes.size
  match anchor with
  | none => set { s with nodes := s.nodes.push n }
  | some name =>
    if (s.anchors.lookup name).isSome then refuse .composition
    else set { s with nodes := s.nodes.push n, anchors := (name, number) :: s.anchors }
  return number

def complete (number : Nat) (n : Node) : Compose Nat := do
  modify fun s => { s with nodes := s.nodes.setIfInBounds number n }
  return number

end Compose

open Compose (peek skip isNext)

structure Properties where
  anchor : Option String := none
  tag : Option (Option String × String) := none
  deriving Repr, BEq, Inhabited

def readAnchor (p : Properties) : Compose Properties := do
  match ← peek with
  | .anchor name =>
    skip
    return { p with anchor := some name }
  | _ => return p

def readTag (p : Properties) : Compose Properties := do
  match ← peek with
  | .tag handle suffix =>
    skip
    return { p with tag := some (handle, suffix) }
  | _ => return p

def readProperties : Compose Properties := do
  let p ← readTag (← readAnchor {})
  if p.anchor.isNone then readAnchor p else return p

def tagName (p : Properties) : Compose (Option String) := do
  match p.tag with
  | none => return none
  | some (none, suffix) => return if suffix == "!" then none else some suffix
  | some (some handle, suffix) =>
    match (← get).handles.lookup handle with
    | some start => return some (start ++ suffix)
    | none => Compose.refuse .structural

def emptyNode : Compose Nat :=
  Compose.add none ⟨.null, .scalar ""⟩

/-- Whether a node may stand in a block here, and a list of its parent's indentation. -/
structure Place where
  inBlock : Bool
  inMapping : Bool := false
  deriving Repr, BEq, Inhabited

/-- Reads a collection, which can be an alias in its own parts. -/
def readList (anchor : Option String) (tag : Tag) (items : Compose (List Nat)) : Compose Nat := do
  let number ← Compose.add anchor ⟨tag, .list []⟩
  Compose.complete number ⟨tag, .list (← items)⟩

def readMap (anchor : Option String) (tag : Tag) (entries : Compose (List (Nat × Nat))) :
    Compose Nat := do
  let number ← Compose.add anchor ⟨tag, .map []⟩
  Compose.complete number ⟨tag, .map (← entries)⟩

def readFlowEnd (isFirst : Bool) (closing : Token) : Compose Bool := do
  let t ← peek
  if t == closing then
    skip
    return true
  else if isFirst then return false
  else if t != .flowEntry then Compose.refuse .structural
  else
    skip
    if ← isNext [closing] then
      skip
      return true
    else return false

mutual

/-- One node. Every call passes less fuel on; a call takes a token or ends at once, so that twice the
number of tokens suffices. -/
def readNode : Nat → Place → Compose Nat
  | 0, _ => Compose.refuse .structural
  | fuel + 1, place => do
    match ← peek with
    | .alias name =>
      match (← get).anchors.lookup name with
      | some number =>
        skip
        return number
      | none => Compose.refuse .composition
    | _ =>
      let p ← readProperties
      let name ← tagName p
      let tagOr (t : Tag) : Tag := (name.map Tag.ofName).getD t
      let nothing : Compose Nat :=
        if p.anchor.isNone && p.tag.isNone then Compose.refuse .structural
        else Compose.add p.anchor ⟨tagOr .null, .scalar ""⟩
      match ← peek with
      | .scalar text isPlain =>
        skip
        let tag := tagOr (if isPlain || p.tag.isSome then Tag.ofText text else .text)
        Compose.add p.anchor ⟨tag, .scalar text⟩
      | .flowListStart => readList p.anchor (tagOr .list) (skip *> readFlowList fuel true)
      | .flowMapStart => readMap p.anchor (tagOr .map) (skip *> readFlowMap fuel true)
      | .blockEntry =>
        if place.inMapping then readList p.anchor (tagOr .list) (readDashes fuel) else nothing
      | .blockListStart =>
        if place.inBlock then readList p.anchor (tagOr .list) (skip *> readBlockList fuel) else nothing
      | .blockMapStart =>
        if place.inBlock then readMap p.anchor (tagOr .map) (skip *> readBlockMap fuel) else nothing
      | _ => nothing

def readNodeUnless (enders : List Token) : Nat → Place → Compose Nat
  | 0, _ => Compose.refuse .structural
  | fuel + 1, place => do
    if ← isNext enders then emptyNode else readNode fuel place

def readBlockList : Nat → Compose (List Nat)
  | 0 => Compose.refuse .structural
  | fuel + 1 => do
    match ← peek with
    | .blockEntry =>
      skip
      let n ← readNodeUnless [.blockEntry, .blockEnd] fuel ⟨true, false⟩
      return n :: (← readBlockList fuel)
    | .blockEnd =>
      skip
      return []
    | _ => Compose.refuse .structural

/-- The entries of a list that is not indented further than the mapping around it. -/
def readDashes : Nat → Compose (List Nat)
  | 0 => Compose.refuse .structural
  | fuel + 1 => do
    match ← peek with
    | .blockEntry =>
      skip
      let n ← readNodeUnless [.blockEntry, .key, .value, .blockEnd] fuel ⟨true, false⟩
      return n :: (← readDashes fuel)
    | _ => return []

def readBlockMap : Nat → Compose (List (Nat × Nat))
  | 0 => Compose.refuse .structural
  | fuel + 1 => do
    match ← peek with
    | .key =>
      skip
      let k ← readNodeUnless [.key, .value, .blockEnd] fuel ⟨true, true⟩
      let v ← readValue [.key, .value, .blockEnd] fuel ⟨true, true⟩
      return (k, v) :: (← readBlockMap fuel)
    | .blockEnd =>
      skip
      return []
    | _ => Compose.refuse .structural

def readValue (enders : List Token) : Nat → Place → Compose Nat
  | 0, _ => Compose.refuse .structural
  | fuel + 1, place => do
    match ← peek with
    | .value =>
      skip
      readNodeUnless enders fuel place
    | _ => emptyNode

def readFlowList : Nat → Bool → Compose (List Nat)
  | 0, _ => Compose.refuse .structural
  | fuel + 1, isFirst => do
    if ← readFlowEnd isFirst .flowListEnd then return []
    else
      let n ←
        match ← peek with
        | .key => readMap none .map (skip *> readFlowPair fuel)
        | _ => readNode fuel ⟨false, false⟩
      return n :: (← readFlowList fuel false)

def readFlowPair : Nat → Compose (List (Nat × Nat))
  | 0 => Compose.refuse .structural
  | fuel + 1 => do
    let k ← readNodeUnless [.value, .flowEntry, .flowListEnd] fuel ⟨false, false⟩
    let v ← readValue [.flowEntry, .flowListEnd] fuel ⟨false, false⟩
    return [(k, v)]

def readFlowMap : Nat → Bool → Compose (List (Nat × Nat))
  | 0, _ => Compose.refuse .structural
  | fuel + 1, isFirst => do
    if ← readFlowEnd isFirst .flowMapEnd then return []
    else
      let entry ←
        match ← peek with
        | .key =>
          skip
          let k ← readNodeUnless [.value, .flowEntry, .flowMapEnd] fuel ⟨false, false⟩
          pure (k, ← readValue [.flowEntry, .flowMapEnd] fuel ⟨false, false⟩)
        | _ => pure (← readNode fuel ⟨false, false⟩, ← emptyNode)
      return entry :: (← readFlowMap fuel false)

end

end FeedOutline.Yaml
