/-!
Blank characters and trimming. An address may hold no blank, and every value read from a heading or a
setting is trimmed of them.
-/
namespace FeedOutline.Text

/-- The white space of Unicode together with the four information separators. -/
def isBlank (c : Char) : Bool :=
  let n := c.toNat
  (9 ≤ n && n ≤ 13) || (28 ≤ n && n ≤ 32) || n == 0x85 || n == 0xA0 || n == 0x1680 ||
    (0x2000 ≤ n && n ≤ 0x200A) || n == 0x2028 || n == 0x2029 || n == 0x202F || n == 0x205F ||
    n == 0x3000

/-- A space or a tab, the only blanks that separate the parts of one line. -/
def isGap (c : Char) : Bool :=
  c == ' ' || c == '\t'

def dropTrailing (p : Char → Bool) (s : List Char) : List Char :=
  (s.reverse.dropWhile p).reverse

def trimmed (p : Char → Bool) (s : List Char) : List Char :=
  dropTrailing p (s.dropWhile p)

def trim (s : List Char) : List Char :=
  trimmed isBlank s

def trimString (s : String) : String :=
  String.ofList (trim s.toList)

def isBlankString (s : String) : Bool :=
  s.toList.all isBlank

end FeedOutline.Text
