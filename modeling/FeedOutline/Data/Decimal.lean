import FeedOutline.Text.Split

/-!
Numbers with a fraction, kept exactly as written, and their shortest text.
-/
namespace FeedOutline.Data

/-- `digits · 10 ^ exponent` with a sign, or one of the values that are no number. -/
inductive Decimal where
  | finite (negative : Bool) (digits : Nat) (exponent : Int)
  | infinite (negative : Bool)
  | nan
  deriving Repr, BEq, DecidableEq, Inhabited

namespace Decimal

def dropZeros : Nat → Nat → Int → Nat × Int
  | 0, digits, exponent => (digits, exponent)
  | fuel + 1, digits, exponent =>
    if digits != 0 && digits % 10 == 0 then dropZeros fuel (digits / 10) (exponent + 1)
    else (digits, exponent)

def zeros (n : Nat) : String :=
  String.ofList (List.replicate n '0')

/-- The text of a positive number whose digits end in no zero. It is positional from 0.0001 up to
10 ^ 16 and always shows a fraction; beyond, it has one digit before the point and an exponent of at
least two digits. -/
def positiveText (digits : Nat) (exponent : Int) : String :=
  let ds := toString digits
  let point : Int := ds.length + exponent
  if -4 < point && point ≤ 16 then
    if point ≤ 0 then "0." ++ zeros point.natAbs ++ ds
    else if exponent ≥ 0 then ds ++ zeros exponent.toNat ++ ".0"
    else String.ofList (ds.toList.take point.toNat) ++ "." ++ String.ofList (ds.toList.drop point.toNat)
  else
    let e := point - 1
    let tail := String.ofList (ds.toList.drop 1)
    let size := toString e.natAbs
    String.ofList (ds.toList.take 1) ++ (if tail.isEmpty then "" else "." ++ tail) ++ "e" ++
      (if e < 0 then "-" else "+") ++ (if size.length < 2 then "0" ++ size else size)

def text : Decimal → String
  | finite negative digits exponent =>
    let (digits, exponent) := dropZeros digits.log2.succ digits exponent
    (if negative then "-" else "") ++ (if digits = 0 then "0.0" else positiveText digits exponent)
  | infinite negative => if negative then "-inf" else "inf"
  | nan => "nan"

def isZero : Decimal → Bool
  | finite _ digits _ => digits == 0
  | _ => false

def toInt? : Decimal → Option Int
  | finite negative digits exponent =>
    let (digits, exponent) := dropZeros digits.log2.succ digits exponent
    if digits = 0 then some 0
    else if exponent ≥ 0 then
      let n : Int := Int.ofNat (digits * Nat.pow 10 exponent.toNat)
      some (if negative then -n else n)
    else none
  | _ => none

def floorShifted (places : Nat) : Decimal → Int
  | .finite negative digits exponent =>
    let n : Int := if negative then -digits else digits
    let e := exponent + places
    let scale := Int.ofNat (Nat.pow 10 e.natAbs)
    if 0 ≤ e then n * scale else Int.fdiv n scale
  | _ => 0

def roundShifted (places : Nat) : Decimal → Int
  | .finite negative digits exponent =>
    let n : Int := if negative then -digits else digits
    let e := exponent + places
    let d := Int.ofNat (Nat.pow 10 e.natAbs)
    if 0 ≤ e then n * d
    else
      let below := Int.fdiv n d
      let rest := n - below * d
      if 2 * rest < d || (2 * rest = d && below % 2 = 0) then below else below + 1
  | _ => 0

end Decimal

end FeedOutline.Data
