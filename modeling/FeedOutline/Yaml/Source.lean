import FeedOutline.Text.Lines
import FeedOutline.Yaml.Cursor

/-!
The characters of a file. They are decoded, checked and handed on in pieces, so that what is wrong with a
later piece shows only to a reader who gets there.
-/
namespace FeedOutline.Yaml

open Text

def pieceSize : Nat := 4096

def chunkSize : Nat := 8192

def mayOccur (c : Char) : Bool :=
  let n := c.toNat
  n == 9 || n == 10 || n == 13 || (0x20 ≤ n && n ≤ 0x7E) || n == 0x85 ||
    (0xA0 ≤ n && n ≤ 0xFFFD) || 0x10000 ≤ n

/-- Where the piece of a character begins. The first two pieces are handed on together. -/
def pieceStart (index : Nat) : Nat :=
  if index < 2 * pieceSize then 0 else index / pieceSize * pieceSize

def culprit (e : DecodeError) : Nat :=
  match e.cause with
  | .start => e.offset
  | .continuation | .ending => e.offset + e.bytes.length

def decodable (bytes : Bytes) : List Char :=
  match decodeFrom 0 none bytes with
  | .ok s => s
  | .error e => (decodeFrom 0 none (bytes.take e.offset)).toOption.getD []

/-- The characters of a file with one kind of line end, those that can be had before its bytes turn out
to be no text, and that fault. -/
def charactersOf (bytes : Bytes) : List Char × Option Fault :=
  match decodeFrom 0 none bytes with
  | .ok s => (unifyReturns s, none)
  | .error e =>
    let known := unifyReturns (decodable (bytes.take (culprit e / chunkSize * chunkSize)))
    (known.take (pieceStart known.length), some (.undecodable e))

def Cursor.ofBytes (bytes : Bytes) : Cursor :=
  let (text, barrier) := charactersOf bytes
  let good := text.takeWhile mayOccur
  let c : Cursor :=
    if good.length = text.length then { rest := text, barrier }
    else { rest := text.take (pieceStart good.length), barrier := some .unprintable }
  if c.peek == '\ufeff' then c.next else c

end FeedOutline.Yaml
