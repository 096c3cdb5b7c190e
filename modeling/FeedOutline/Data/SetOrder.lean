import FeedOutline.Data.Binary
import FeedOutline.Data.Value

/-!
The order in which the numbers of a set are listed. Each lies in the slot that its remainder gives or, if
that is taken, in a later one.
-/
namespace FeedOutline.Data

def slotModulus : Nat := Nat.pow 2 61 - 1

/-- A number without its sign, reduced. A power of two is one that is less than the 61st. -/
def reduced (digits : Nat) (exponent : Int) : Nat :=
  digits * Nat.pow 2 (exponent % 61).toNat % slotModulus

def codeOf (negative : Bool) (n : Nat) : Nat :=
  if !negative || n = 0 then n else Nat.pow 2 64 - (if n = 1 then 2 else n)

def Scalar.code? (s : Scalar) : Option Nat :=
  match s with
  | .decimal (.finite negative digits exponent) =>
    (Binary.nearest? (.ofPower 10 digits exponent)).map fun b =>
      codeOf negative (reduced b.digits b.exponent)
  | .decimal (.infinite negative) => some (codeOf negative 314159)
  | s => s.number?.map fun n => codeOf (n < 0) (reduced n.natAbs 0)

/-- How many slots there are for so many items: eight for less than five, and else the least power of two
that is more than twice as large. -/
def slotCount (items : Nat) : Nat :=
  if items < 5 then 8 else Nat.pow 2 ((2 * items).log2 + 1)

def nearSlots (count i : Nat) : List Nat :=
  if i + 9 < count then (List.range 10).map (i + ·) else [i]

/-- The first free slot. Each failure brings in five more binary digits of the code. -/
def freeSlot (slots : List (Option α)) : Nat → Nat → Nat → Nat
  | 0, _, i => i
  | fuel + 1, code, i =>
    match (nearSlots slots.length i).find? fun k => (slots.getD k none).isNone with
    | some k => k
    | none => freeSlot slots fuel (code / 32) ((5 * i + 1 + code / 32) % slots.length)

def putInSlot (slots : List (Option α)) (code : Nat) (a : α) : List (Option α) :=
  slots.set (freeSlot slots (slots.length * slots.length + 64) code (code % slots.length)) (some a)

/-- The items of a set in the order in which they are listed; items other than numbers as they came. -/
def setOrder (items : List Scalar) : List Scalar :=
  let codes := items.filterMap Scalar.code?
  if codes.length = items.length then
    ((codes.zip items).foldl (fun slots (code, s) => putInSlot slots code s)
      (List.replicate (slotCount items.length) none)).filterMap id
  else items

end FeedOutline.Data
