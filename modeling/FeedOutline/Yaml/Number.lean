import FeedOutline.Data.Binary
import FeedOutline.Text.Blank
import FeedOutline.Text.Digit
import FeedOutline.Yaml.Token

/-!
Numbers as documents write them: with underscores between digits, in several bases, and in groups of
sixty.
-/
namespace FeedOutline.Yaml

open Data (Decimal)

def dropSign : List Char → List Char
  | '+' :: s => s
  | '-' :: s => s
  | s => s

def isNegative (s : List Char) : Bool :=
  s.head? == some '-'

def isDigitOrLine (c : Char) : Bool :=
  c.isDigit || c == '_'

def isOctalOrLine (c : Char) : Bool :=
  ('0' ≤ c && c ≤ '7') || c == '_'

def isBinaryOrLine (c : Char) : Bool :=
  c == '0' || c == '1' || c == '_'

def isHexOrLine (c : Char) : Bool :=
  isHex c || c == '_'

def isSixtieth (s : List Char) : Bool :=
  match s with
  | [a] => a.isDigit
  | [a, b] => '0' ≤ a && a ≤ '5' && b.isDigit
  | _ => false

def isSexagesimal (isFirst : List Char → Bool) (s : List Char) : Bool :=
  match Text.splitOn ':' s with
  | first :: g :: groups => isFirst first && (g :: groups).all isSixtieth
  | _ => false

def isCount (s : List Char) : Bool :=
  match s with
  | c :: rest => '1' ≤ c && c ≤ '9' && rest.all isDigitOrLine
  | [] => false

def isDigits (s : List Char) : Bool :=
  match s with
  | c :: rest => c.isDigit && rest.all isDigitOrLine
  | [] => false

def looksLikeInt (s : List Char) : Bool :=
  match dropSign s with
  | ['0'] => true
  | '0' :: 'b' :: rest => !rest.isEmpty && rest.all isBinaryOrLine
  | '0' :: 'x' :: rest => !rest.isEmpty && rest.all isHexOrLine
  | '0' :: rest => rest.all isOctalOrLine
  | rest => isCount rest || isSexagesimal isCount rest

def isExponent (s : List Char) : Bool :=
  match s with
  | [] => true
  | e :: sign :: c :: rest =>
    (e == 'e' || e == 'E') && (sign == '+' || sign == '-') && (c :: rest).all Char.isDigit
  | _ => false

def looksLikeFloat (s : List Char) : Bool :=
  let unsigned := dropSign s
  let whole := unsigned.takeWhile (· != '.')
  match unsigned.dropWhile (· != '.') with
  | [] => false
  | _ :: fraction =>
    let tail := fraction.dropWhile isDigitOrLine
    if whole.isEmpty then
      ["inf", "Inf", "INF"].contains (String.ofList fraction) ||
        (unsigned == s && (["nan", "NaN", "NAN"].contains (String.ofList fraction) ||
          (isDigits (fraction.takeWhile isDigitOrLine) && isExponent tail)))
    else (isDigits whole && isExponent tail) || (isSexagesimal isDigits whole && tail.isEmpty)

/-! ### What the texts stand for -/

def numberIn? (base : Nat) (s : List Char) : Option Nat :=
  if !s.isEmpty && s.all (fun c => isHex c && hexValue [c] < base) then
    some (s.foldl (fun n c => base * n + hexValue [c]) 0)
  else none

/-- A number may stand between blanks, and have the digits of any script. -/
def numeral (s : List Char) : List Char :=
  if s.all (·.toNat < 128) then
    Text.trimmed (fun c => c == ' ' || (9 ≤ c.toNat && c.toNat ≤ 13)) s
  else Text.trim (s.map Text.asciiDigit)

def dropBase (base : Nat) (s : List Char) : List Char :=
  match s, [(2, 'b'), (8, 'o'), (16, 'x')].lookup base with
  | '0' :: c :: rest, some letter => if c.toLower == letter then rest else s
  | _, _ => s

def wholeIn (base : Nat) (text : List Char) : Except Fault Int :=
  let s := numeral text
  let digits := dropBase base (dropSign s)
  if base = 10 && Text.mostDigits < digits.length then .error .outOfRange
  else match numberIn? base digits with
    | some n => .ok (if isNegative s then -(n : Int) else n)
    | none => .error .outOfRange

def sixties (parts : List Int) : Int :=
  parts.foldl (fun n part => 60 * n + part) 0

def intOf (text : List Char) : Except Fault Int := do
  let s := text.filter (· != '_')
  let n ←
    match dropSign s with
    | [] => .error .noDigits
    | ['0'] => .ok 0
    | '0' :: 'b' :: rest => wholeIn 2 rest
    | '0' :: 'x' :: rest => wholeIn 16 rest
    | '0' :: rest => wholeIn 8 ('0' :: rest)
    | rest =>
      if rest.contains ':' then ((Text.splitOn ':' rest).mapM (wholeIn 10)).map sixties
      else wholeIn 10 rest
  return if isNegative s then -n else n

def decimal? (s : List Char) : Option Decimal := do
  let mantissa := s.takeWhile (· != 'e')
  let whole := mantissa.takeWhile (· != '.')
  let fraction := (mantissa.dropWhile (· != '.')).drop 1
  let digits ← numberIn? 10 (whole ++ fraction)
  let exponent : Int ←
    match s.dropWhile (· != 'e') with
    | [] => some 0
    | _ :: e => (numberIn? 10 (dropSign e)).map fun n => if isNegative e then -(n : Int) else n
  return (Decimal.finite false digits (exponent - fraction.length)).rounded

def signedDecimal (text : List Char) : Except Fault Decimal :=
  let s := numeral text
  let unsigned := dropSign s
  let size :=
    if ["inf", "infinity"].contains (String.ofList unsigned) then some (Decimal.infinite false)
    else if unsigned == "nan".toList then some .nan
    else decimal? unsigned
  match size with
  | some d => .ok (if isNegative s then d.negated else d)
  | none => .error .outOfRange

/-- The sum of groups, the last group first, each counting sixty times as much as the one before it. -/
def sumOfGroups : Nat → Decimal → List Decimal → Except Fault Decimal
  | _, sum, [] => .ok sum
  | unit, sum, group :: groups =>
    match group.times? unit with
    | some d => sumOfGroups (60 * unit) (sum.plus d) groups
    | none => .error .tooLarge

def floatOf (text : List Char) : Except Fault Decimal := do
  let s := (text.filter (· != '_')).map Char.toLower
  if s.isEmpty then .error .noDigits
  else
    let unsigned := dropSign s
    let d ←
      if unsigned == ".inf".toList then .ok (.infinite false)
      else if unsigned == ".nan".toList then .ok .nan
      else if unsigned.contains ':' then do
        sumOfGroups 1 (.finite false 0 0) (← (Text.splitOn ':' unsigned).mapM signedDecimal).reverse
      else signedDecimal unsigned
    return if isNegative s then d.negated else d

end FeedOutline.Yaml
