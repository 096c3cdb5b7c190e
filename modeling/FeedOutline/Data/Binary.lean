import FeedOutline.Data.Decimal

/-!
Numbers with 53 binary digits, in which decimals are kept: the nearest one to a decimal, and the shortest
decimal to which it is nearest.
-/
namespace FeedOutline.Data

/-- `digits · 2 ^ exponent`. -/
structure Binary where
  digits : Nat
  exponent : Int
  deriving Repr, BEq, DecidableEq, Inhabited

def roundQuotient (num den : Nat) : Nat :=
  let q := num / den
  let r := num % den
  if 2 * r < den || (2 * r == den && q % 2 == 0) then q else q + 1

structure Fraction where
  num : Nat
  den : Nat
  deriving Repr, BEq, DecidableEq, Inhabited

namespace Fraction

def ofPower (base digits : Nat) (exponent : Int) : Fraction :=
  let scale := Nat.pow base exponent.natAbs
  if 0 ≤ exponent then ⟨digits * scale, 1⟩ else ⟨digits, scale⟩

def inUnits (base : Nat) (exponent : Int) (x : Fraction) : Fraction :=
  let scale := Nat.pow base exponent.natAbs
  if 0 ≤ exponent then ⟨x.num, x.den * scale⟩ else ⟨x.num * scale, x.den⟩

def floor (x : Fraction) : Nat :=
  x.num / x.den

def round (x : Fraction) : Nat :=
  roundQuotient x.num x.den

def le (x y : Fraction) : Bool :=
  x.num * y.den ≤ y.num * x.den

def lt (x y : Fraction) : Bool :=
  x.num * y.den < y.num * x.den

end Fraction

namespace Binary

def least : Int := -1074

def greatest : Int := 971

def exponentOf (x : Fraction) : Int :=
  let guess : Int := (x.num.log2 : Int) - x.den.log2 - 53
  let e := if (x.inUnits 2 guess).floor < Nat.pow 2 53 then guess else guess + 1
  if e < least then least else e

def nearest? (x : Fraction) : Option Binary :=
  let e := exponentOf x
  let m := (x.inUnits 2 e).round
  let b : Binary := if m = Nat.pow 2 53 then ⟨Nat.pow 2 52, e + 1⟩ else ⟨m, e⟩
  if greatest < b.exponent then none else some b

def value (b : Binary) : Fraction :=
  .ofPower 2 b.digits b.exponent

/-- The end below of what is nearer to a number than to any other. The gap below a power of two is half
as wide as that above. -/
def lower (b : Binary) : Fraction :=
  if b.digits = Nat.pow 2 52 && least < b.exponent then .ofPower 2 (4 * b.digits - 1) (b.exponent - 2)
  else .ofPower 2 (2 * b.digits - 1) (b.exponent - 1)

def upper (b : Binary) : Fraction :=
  .ofPower 2 (2 * b.digits + 1) (b.exponent - 1)

/-- Whether a fraction is rounded to a number. Both ends are rounded to an even number. -/
def isNearest (b : Binary) (x : Fraction) : Bool :=
  if b.digits % 2 = 0 then b.lower.le x && x.le b.upper else b.lower.lt x && x.lt b.upper

def firstExponent (x : Fraction) : Int :=
  let guess : Int := ((toString x.num).length : Int) - (toString x.den).length
  if (Fraction.inUnits 10 guess x).floor = 0 then guess - 1 else guess

def withDigits? (b : Binary) (first : Int) (count : Nat) : Option (Nat × Int) :=
  let e := first - count + 1
  let scaled := b.value.inUnits 10 e
  let near := scaled.round
  let other := if near = scaled.floor then near + 1 else scaled.floor
  if b.isNearest (.ofPower 10 near e) then some (near, e)
  else if b.isNearest (.ofPower 10 other e) then some (other, e)
  else none

/-- The shortest decimal that is rounded to a number, as digits and an exponent. Seventeen digits are
always enough. -/
def shortest (b : Binary) : Nat × Int :=
  let first := firstExponent b.value
  ((List.range 17).findSome? fun n => b.withDigits? first (n + 1)).getD (b.digits, b.exponent)

end Binary

namespace Decimal

def ofFraction (negative : Bool) (x : Fraction) : Decimal :=
  match Binary.nearest? x with
  | none => infinite negative
  | some b =>
    if b.digits = 0 then finite negative 0 0
    else
      let (digits, exponent) := b.shortest
      finite negative digits exponent

/-- The shortest decimal for the number of 53 binary digits that is nearest. Decimals with an exponent
far out are not worked out. -/
def rounded : Decimal → Decimal
  | finite negative digits exponent =>
    let size : Int := (toString digits).length + exponent
    if digits = 0 || size < -400 then finite negative 0 0
    else if 400 < size then infinite negative
    else ofFraction negative (.ofPower 10 digits exponent)
  | d => d

def negated : Decimal → Decimal
  | finite negative digits exponent => finite (!negative) digits exponent
  | infinite negative => infinite (!negative)
  | nan => nan

def binarySize (digits : Nat) (exponent : Int) : Fraction :=
  ((Binary.nearest? (.ofPower 10 digits exponent)).getD ⟨0, 0⟩).value

def times? (n : Nat) (d : Decimal) : Option Decimal :=
  (Binary.nearest? ⟨n, 1⟩).map fun b =>
    match d with
    | finite negative digits exponent =>
      let x := binarySize digits exponent
      let y := b.value
      ofFraction negative ⟨x.num * y.num, x.den * y.den⟩
    | d => d

/-- The nearest number to a sum. A sum of nothing is negative only if both its parts are. -/
def plus (a b : Decimal) : Decimal :=
  match a, b with
  | finite negA digitsA exponentA, finite negB digitsB exponentB =>
    let x := binarySize digitsA exponentA
    let y := binarySize digitsB exponentB
    let signed (negative : Bool) (n : Nat) : Int := if negative then -n else n
    let sum := signed negA (x.num * y.den) + signed negB (y.num * x.den)
    ofFraction (if sum = 0 then negA && negB else sum < 0) ⟨sum.natAbs, x.den * y.den⟩
  | nan, _ | _, nan => nan
  | infinite negA, infinite negB => if negA = negB then infinite negA else nan
  | infinite negA, _ => infinite negA
  | _, infinite negB => infinite negB

end Decimal

end FeedOutline.Data
