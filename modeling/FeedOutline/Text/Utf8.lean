import FeedOutline.Text.Quoted

/-!
Text as bytes in UTF-8, and what is wrong with bytes that are no text.
-/
namespace FeedOutline.Text

abbrev Bytes := List UInt8

def encodeUtf8 (s : String) : Bytes :=
  s.toUTF8.toList

inductive BadBytes where
  | start
  | continuation
  | ending
  deriving Repr, BEq, DecidableEq, Inhabited

structure DecodeError where
  cause : BadBytes
  offset : Nat
  bytes : Bytes
  deriving Repr, BEq, DecidableEq, Inhabited

def BadBytes.text : BadBytes → String
  | start => "invalid start byte"
  | continuation => "invalid continuation byte"
  | ending => "unexpected end of data"

def DecodeError.message (e : DecodeError) : String :=
  "'utf-8' codec can't decode " ++
    (match e.bytes with
      | [b] => "byte 0x" ++ String.ofList (hexDigits 2 b.toNat) ++ " in position " ++ toString e.offset
      | bs => "bytes in position " ++ toString e.offset ++ "-" ++ toString (e.offset + bs.length - 1)) ++
    ": " ++ e.cause.text

/-- A character whose first bytes are read: those bytes, last one first, the bits so far, how many
bytes are owed, and the range in which the next one must lie. -/
structure Owed where
  read : Bytes
  bits : Nat
  count : Nat
  low : Nat := 0x80
  high : Nat := 0xBF
  deriving Repr, BEq, DecidableEq, Inhabited

/-- What a first byte promises. Ranges shut out overlong forms, surrogates and numbers beyond the last
character. -/
def owed? (b : UInt8) : Option Owed :=
  let n := b.toNat
  if 0xC2 ≤ n && n ≤ 0xDF then some ⟨[b], n - 0xC0, 1, 0x80, 0xBF⟩
  else if 0xE0 ≤ n && n ≤ 0xEF then
    some ⟨[b], n - 0xE0, 2, if n = 0xE0 then 0xA0 else 0x80, if n = 0xED then 0x9F else 0xBF⟩
  else if 0xF0 ≤ n && n ≤ 0xF4 then
    some ⟨[b], n - 0xF0, 3, if n = 0xF0 then 0x90 else 0x80, if n = 0xF4 then 0x8F else 0xBF⟩
  else none

def decodeFrom (offset : Nat) : Option Owed → Bytes → Except DecodeError (List Char)
  | none, [] => .ok []
  | some o, [] => .error ⟨.ending, offset, o.read.reverse⟩
  | none, b :: bs =>
    if b.toNat < 0x80 then (decodeFrom (offset + 1) none bs).map (Char.ofNat b.toNat :: ·)
    else match owed? b with
      | some o => decodeFrom offset (some o) bs
      | none => .error ⟨.start, offset, [b]⟩
  | some o, b :: bs =>
    if o.low ≤ b.toNat && b.toNat ≤ o.high then
      let bits := o.bits * 64 + (b.toNat - 0x80)
      if o.count = 1 then
        (decodeFrom (offset + o.read.length + 1) none bs).map (Char.ofNat bits :: ·)
      else decodeFrom offset (some ⟨b :: o.read, bits, o.count - 1, 0x80, 0xBF⟩) bs
    else .error ⟨.continuation, offset, o.read.reverse⟩

def decodeUtf8 (bs : Bytes) : Except DecodeError String :=
  (decodeFrom 0 none bs).map String.ofList

end FeedOutline.Text
