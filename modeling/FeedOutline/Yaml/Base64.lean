import FeedOutline.Text.Utf8

/-!
Bytes written in base 64. What is no digit is passed over, and padding ends the text where it is due.
-/
namespace FeedOutline.Yaml

def digit64? (c : Char) : Option Nat :=
  if 'A' ≤ c && c ≤ 'Z' then some (c.toNat - 'A'.toNat)
  else if 'a' ≤ c && c ≤ 'z' then some (c.toNat - 'a'.toNat + 26)
  else if c.isDigit then some (c.toNat - '0'.toNat + 52)
  else if c == '+' then some 62
  else if c == '/' then some 63
  else none

/-- A group of four digits makes three bytes. `count` digits of a group are read, of which the last bits
still belong to the next byte; `padding` counts the signs of padding behind them. -/
def bytes64From (count left padding : Nat) : List Char → Option Text.Bytes
  | [] => if count = 0 then some [] else none
  | c :: s =>
    if c == '=' then
      if 2 ≤ count && 3 ≤ count + padding then some [] else bytes64From count left (padding + 1) s
    else match digit64? c with
      | none => bytes64From count left padding s
      | some n =>
        match count with
        | 0 => bytes64From 1 n 0 s
        | 1 => (bytes64From 2 (n % 16) 0 s).map (UInt8.ofNat (left * 4 + n / 16) :: ·)
        | 2 => (bytes64From 3 (n % 4) 0 s).map (UInt8.ofNat (left * 16 + n / 4) :: ·)
        | _ => (bytes64From 0 0 0 s).map (UInt8.ofNat (left * 64 + n) :: ·)

def bytes64? (s : List Char) : Option Text.Bytes :=
  if s.all (·.toNat < 128) then bytes64From 0 0 0 s else none

end FeedOutline.Yaml
