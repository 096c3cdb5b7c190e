import FeedOutline.Text.Quoted

/-!
Texts that may hold lone surrogates, numbers of which only two together make a character. An escape can
give such a text, but no file and no stream can hold it.
-/
namespace FeedOutline.Text

abbrev Surrogate := Fin 0x800

def Surrogate.number (s : Surrogate) : Nat :=
  0xD800 + s

inductive Mark where
  | char (c : Char)
  | surrogate (s : Surrogate)
  deriving Repr, BEq, DecidableEq, Inhabited

namespace Mark

def ofNat (n : Nat) : Mark :=
  if h : 0xD800 ≤ n ∧ n < 0xE000 then .surrogate ⟨n - 0xD800, by omega⟩ else .char (Char.ofNat n)

def char? : Mark → Option Char
  | char c => some c
  | surrogate _ => none

def isSurrogate : Mark → Bool
  | char _ => false
  | surrogate _ => true

/-- A surrogate is shown as the escape that gives it. -/
def shown : Mark → List Char
  | char c => [c]
  | surrogate s => '\\' :: 'u' :: hexDigits 4 s.number

end Mark

/-- A text with a lone surrogate. -/
structure Torn where
  marks : List Mark
  isTorn : marks.any Mark.isSurrogate = true
  deriving Repr, DecidableEq

instance : Inhabited Torn :=
  ⟨⟨[.surrogate 0], rfl⟩⟩

namespace Torn

def chars (t : Torn) : List Char :=
  t.marks.filterMap Mark.char?

def shown (t : Torn) : String :=
  String.ofList (t.marks.flatMap Mark.shown)

def quoted (t : Torn) : String :=
  let mark := quoteMark t.chars
  String.ofList (mark :: t.marks.flatMap (fun
    | .char c => escapeChar mark c
    | m => m.shown) ++ [mark])

def startsWith (start : String) (t : Torn) : Bool :=
  (start.toList.map Mark.char).isPrefixOf t.marks

def contains (part : String) (t : Torn) : Bool :=
  let part := part.toList.map Mark.char
  (List.range (t.marks.length + 1)).any fun n => part.isPrefixOf (t.marks.drop n)

end Torn

/-- A text with or without lone surrogates. -/
inductive AnyText where
  | whole (s : String)
  | torn (t : Torn)
  deriving Repr, DecidableEq, Inhabited

instance : Coe String AnyText :=
  ⟨.whole⟩

namespace AnyText

def ofMarks (ms : List Mark) : AnyText :=
  if h : ms.any Mark.isSurrogate = true then .torn ⟨ms, h⟩
  else .whole (String.ofList (ms.filterMap Mark.char?))

def marks : AnyText → List Mark
  | whole s => s.toList.map .char
  | torn t => t.marks

def chars : AnyText → List Char
  | whole s => s.toList
  | torn t => t.chars

def isEmpty : AnyText → Bool
  | whole s => s.isEmpty
  | torn _ => false

def shown : AnyText → String
  | whole s => s
  | torn t => t.shown

def quoted : AnyText → String
  | whole s => Text.quoted s
  | torn t => t.quoted

end AnyText

end FeedOutline.Text
