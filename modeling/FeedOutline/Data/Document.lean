import FeedOutline.Data.Merge

/-!
Values in which one list or mapping can stand in several places, even in itself. Such parts are kept in a
table and stand by their numbers, so that a change of one shows wherever it stands. A document without
parts is no more than its value.
-/
namespace FeedOutline.Data

namespace Value

mutual

def mapParts (f : Nat → Bool → Value) : Value → Value
  | scalar s => scalar s
  | list items => list (mapPartsAll f items)
  | map entries => map (mapPartsEntries f entries)
  | set items => set items
  | pair a b => pair (a.mapParts f) (b.mapParts f)
  | part n isMap => f n isMap

def mapPartsAll (f : Nat → Bool → Value) : List Value → List Value
  | [] => []
  | v :: vs => v.mapParts f :: mapPartsAll f vs

def mapPartsEntries (f : Nat → Bool → Value) : Mapping → Mapping
  | [] => []
  | (k, v) :: es => (k, v.mapParts f) :: mapPartsEntries f es

end

def shiftParts (distance : Nat) : Value → Value :=
  mapParts fun n isMap => part (n + distance) isMap

def viewIn (parts : List Value) : Value → Value
  | part n isMap => parts.getD n (part n isMap)
  | v => v

def changeAt (f : Mapping → Mapping) : List String → Value → Value
  | [], map m => map (f m)
  | k :: ks, map m => map (m.map fun e => if e.1 == .text k then (e.1, e.2.changeAt f ks) else e)
  | _, v => v

end Value

structure Document where
  value : Value
  /-- None of them is itself kept elsewhere. -/
  parts : List Value := []
  deriving Repr, BEq, Inhabited

/-- Where something stands: in a part or in none, and there under some keys. -/
structure Place where
  part? : Option Nat := none
  keys : List String := []
  deriving Repr, BEq, DecidableEq, Inhabited

def Place.under (p : Place) (key : String) : Place :=
  ⟨p.part?, p.keys ++ [key]⟩

namespace Document

def empty : Document :=
  ⟨.map [], []⟩

def view (d : Document) (v : Value) : Value :=
  v.viewIn d.parts

def expand (d : Document) : Nat → Value → Value
  | 0, v => v
  | depth + 1, v => v.mapParts fun n isMap => d.expand depth (d.view (.part n isMap))

/-- As `expand`, but a part that would stand in itself is left out. -/
def expandOnce (d : Document) : Nat → List Nat → Value → Value
  | 0, _, v => v
  | depth + 1, within, v =>
    v.mapParts fun n isMap =>
      if within.contains n then .part n isMap
      else d.expandOnce depth (n :: within) (d.view (.part n isMap))

def unfold (d : Document) (v : Value) : Value :=
  d.expandOnce (d.parts.length + 1) [] v

/-! ### Changes -/

def placeOf (here : Place) : Value → Place
  | .part n _ => ⟨some n, []⟩
  | _ => here

def start (d : Document) : Place :=
  placeOf {} d.value

def child? (d : Document) (p : Place) (m : Mapping) (key : String) : Option (Place × Value) :=
  (m.get? key).map fun v => (placeOf (p.under key) v, d.view v)

def change (d : Document) (f : Mapping → Mapping) (p : Place) : Document :=
  match p.part? with
  | none => { d with value := d.value.changeAt f p.keys }
  | some n => { d with parts := d.parts.modify n (Value.changeAt f p.keys) }

def entries (d : Document) : Mapping :=
  ((d.view d.value).map?).getD []

def set (d : Document) (key : Scalar) (v : Value) : Document :=
  d.change (·.set key v) d.start

def copy (d : Document) : Document :=
  let n := d.parts.length
  ⟨d.value.shiftParts n, d.parts ++ d.parts.map (Value.shiftParts n)⟩

mutual

/-- Gives a key a value; a mapping is merged into a copy of one that is there. -/
def mergeUnder (d : Document) (key : Scalar) : Value → Document
  | .map es =>
    let before := (Mapping.valueOf? d.entries key).getD .null
    match d.view before with
    | .map _ =>
      let merged := mergeAll (copy ⟨before, d.parts⟩) es
      { d with parts := merged.parts }.set key merged.value
    | _ => d.set key (.map es)
  | v => d.set key v

def mergeAll (d : Document) : Mapping → Document
  | [] => d
  | (k, v) :: es => mergeAll (d.mergeUnder k v) es

end

def merge (d : Document) (m : Mapping) : Document :=
  d.copy.mergeAll m

end Document

end FeedOutline.Data
