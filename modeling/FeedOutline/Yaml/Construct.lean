import FeedOutline.Data.Document
import FeedOutline.Data.SetOrder
import FeedOutline.Yaml.Base64
import FeedOutline.Yaml.Graph

/-!
What the nodes of a graph stand for. A text is read when it is met; a list or a mapping waits until those
that were met before it are complete, so that faults show layer by layer.
-/
namespace FeedOutline.Yaml

open Data (Scalar)
open Text (AnyText Torn)

/-- What a node stands for, with the nodes that are its parts. -/
inductive Object where
  | scalar (s : Scalar)
  /-- A collection that has been met. -/
  | waiting
  | list (items : List Nat)
  | map (entries : List (Scalar × Nat))
  | set (items : List Scalar)
  | pairs (items : List (Nat × Nat))
  deriving Repr, BEq, Inhabited

structure Building where
  /-- The nodes; merging changes mappings. -/
  nodes : Array Node
  /-- What is known of each node. -/
  objects : Array (Option Object)
  /-- The collections that wait. -/
  queue : List Nat := []
  deriving Inhabited

abbrev Build (α : Type) := StateT Building (Except Fault) α

namespace Build

def refuse (f : Fault) : Build α :=
  throw f

def node (n : Nat) : Build Node := do
  return (← get).nodes.getD n default

def setNode (n : Nat) (value : Node) : Build Unit :=
  modify fun s => { s with nodes := s.nodes.setIfInBounds n value }

def object? (n : Nat) : Build (Option Object) := do
  return (← get).objects.getD n none

def setObject (n : Nat) (o : Object) : Build Unit :=
  modify fun s => { s with objects := s.objects.setIfInBounds n (some o) }

def orRefuse (f : Fault) : Option α → Build α
  | some a => return a
  | none => refuse f

end Build

open Build (node setNode object? setObject orRefuse)

/-! ### Scalars -/

/-- The text of a node. That of a mapping stands under the key that is a single equals sign. -/
def textOf : Nat → Nat → Build AnyText
  | 0, _ => Build.refuse .endless
  | fuel + 1, n => do
    match (← node n).content with
    | .scalar text => return text
    | .list _ => Build.refuse .construction
    | .map entries =>
      let nodes := (← get).nodes
      match entries.find? fun e => (nodes.getD e.1 default).tag == .default with
      | some e => textOf fuel e.2
      | none => Build.refuse .construction

def timeOf (text : AnyText) : Build Scalar := do
  let time := match text with
    | .whole s => time? s.toList
    | .torn _ => none
  match time with
  | none => Build.refuse .noTime
  | some t =>
    if t.isValid then
      match t with
      | .date d => return .date d
      | .moment m => return .moment m
    else Build.refuse .outOfRange

def wordOf (tag : Tag) (text : String) : Except Fault Scalar :=
  match tag with
  | .bool => (truth? text).elim (.error .noTruth) fun b => .ok (.bool b)
  | .int => (intOf text.toList).map .int
  | .float => (floatOf text.toList).map .decimal
  | .bytes => (bytes64? text.toList).elim (.error .construction) fun bytes => .ok (.bytes bytes)
  | _ => .ok (.text text)

def tornOf (tag : Tag) (text : Torn) : Except Fault Scalar :=
  match tag with
  | .bool => .error .noTruth
  | .int | .float => .error .outOfRange
  | .bytes => .error .construction
  | _ => .ok (.torn text)

def scalarOf (tag : Tag) (n : Nat) : Build Scalar := do
  let text ← textOf ((← get).nodes.size + 1) n
  match tag with
  | .null => return .null
  | .time =>
    match (← node n).content with
    | .scalar text => timeOf text
    | _ => Build.refuse .mappingAsTime
  | tag =>
    match text with
    | .whole s => wordOf tag s
    | .torn t => tornOf tag t

def meet (n : Nat) : Build Unit := do
  if (← object? n).isNone then
    match (← node n).tag with
    | .merge | .default | .other => Build.refuse .construction
    | .list | .map | .set | .pairs =>
      setObject n .waiting
      modify fun s => { s with queue := s.queue ++ [n] }
    | tag => setObject n (.scalar (← scalarOf tag n))

/-! ### Merging -/

def tagOf (n : Nat) : Build Tag := do
  return (← node n).tag

def entriesOf? (n : Nat) : Build (Option (List (Nat × Nat))) := do
  match (← node n).content with
  | .map entries => return some entries
  | _ => return none

def plainKey (n : Nat) : Build Unit := do
  let key ← node n
  if key.tag == .default then setNode n { key with tag := .text }

mutual

/-- Merges into a mapping those that its merge keys ask for, before its own entries. Each call takes merge
keys away or ends at once, so that more calls than there are nodes never stand in one another. -/
def mergeInto : Nat → Nat → Build Unit
  | 0, _ => return ()
  | fuel + 1, n => do
    match ← entriesOf? n with
    | none => return ()
    | some entries =>
      let tagged ← entries.mapM fun e => do return (← tagOf e.1, e)
      let own := (tagged.filter (·.1 != .merge)).map (·.2)
      let sources := (tagged.filter (·.1 == .merge)).map (·.2.2)
      setNode n ⟨← tagOf n, .map own⟩
      own.forM fun e => plainKey e.1
      let merged ← sources.mapM (mergedFrom fuel)
      let now := (← entriesOf? n).getD []
      setNode n ⟨← tagOf n, .map (merged.flatten ++ now)⟩

/-- The entries that are merged in for the value of a merge key. Of a list of mappings the first wins. -/
def mergedFrom : Nat → Nat → Build (List (Nat × Nat))
  | 0, _ => return []
  | fuel + 1, n => do
    match (← node n).content with
    | .map _ =>
      mergeInto fuel n
      return (← entriesOf? n).getD []
    | .list items =>
      let parts ← items.mapM fun item => do
        match ← entriesOf? item with
        | some _ =>
          mergeInto fuel item
          return (← entriesOf? item).getD []
        | none => Build.refuse .construction
      return parts.reverse.flatten
    | .scalar _ => Build.refuse .construction

end

/-! ### Collections -/

def readEntries (n : Nat) : Build (List (Scalar × Nat)) := do
  mergeInto (2 * (← get).nodes.size + 2) n
  let entries ← orRefuse .construction (← entriesOf? n)
  entries.foldlM (fun m (k, v) => do
    meet k
    match ← object? k with
    | some (.scalar key) =>
      meet v
      return key.setIn v m
    | _ => Build.refuse .construction) []

def readPair (n : Nat) : Build (Nat × Nat) := do
  match ← entriesOf? n with
  | some [(k, v)] =>
    meet k
    meet v
    return (k, v)
  | _ => Build.refuse .construction

def itemsOf (n : Nat) : Build (List Nat) := do
  match (← node n).content with
  | .list items => return items
  | _ => Build.refuse .construction

def complete (n : Nat) : Build Unit := do
  match (← node n).tag with
  | .list =>
    let items ← itemsOf n
    items.forM meet
    setObject n (.list items)
  | .set => setObject n (.set (Data.setOrder ((← readEntries n).map (·.1))))
  | .pairs => setObject n (.pairs (← (← itemsOf n).mapM readPair))
  | _ => setObject n (.map (← readEntries n))

/-- Completes what waits, and what is met thereby. Every node waits at most once. -/
def completeAll : Nat → Build Unit
  | 0 => return ()
  | fuel + 1 => do
    match (← get).queue with
    | [] => return ()
    | n :: queue =>
      modify fun s => { s with queue }
      complete n
      completeAll fuel

def objectsOf (g : Graph) : Except Fault (Array (Option Object)) := do
  let size := g.nodes.size
  let (_, s) ← (do
    meet g.root
    completeAll (size + 1) : Build Unit).run ⟨g.nodes, Array.replicate size none, []⟩
  return s.objects

end FeedOutline.Yaml
