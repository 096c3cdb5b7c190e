/-!
Cutting a text into lines, and the line ends of a file as it is read.
-/
namespace FeedOutline.Text

/-- Where a text is cut into lines: the two line ends, the vertical tab, the form feed, three of the
information separators, and the line and paragraph separators of Unicode. -/
def isBreak (c : Char) : Bool :=
  let n := c.toNat
  (10 ≤ n && n ≤ 13) || (28 ≤ n && n ≤ 30) || n == 0x85 || n == 0x2028 || n == 0x2029

def joinReturns : List Char → List Char
  | [] => []
  | c :: s => if c == '\r' && s.head? == some '\n' then joinReturns s else c :: joinReturns s

/-- Cuts after every character of a class; a last line without an end counts if it is not empty. -/
def cutLines (p : Char → Bool) : List Char → List (List Char)
  | [] => []
  | c :: s =>
    if p c then [] :: cutLines p s
    else match cutLines p s with
      | [] => [[c]]
      | l :: ls => (c :: l) :: ls

def lines (s : List Char) : List (List Char) :=
  cutLines isBreak (joinReturns s)

def unifyReturns (s : List Char) : List Char :=
  (joinReturns s).map fun c => if c == '\r' then '\n' else c

end FeedOutline.Text
