import FeedOutline.Text.Table.Word

/-!
The characters of words and of tags.
-/
namespace FeedOutline.Text

def isWord (c : Char) : Bool :=
  if c.toNat < 128 then c.isAlphanum || c == '_' else wordRanges.has c

def isTagChar (c : Char) : Bool :=
  isWord c || c == '@' || c == '#' || c == '%'

/-- A tag as an outline can carry it. -/
def isTag (s : List Char) : Bool :=
  !s.isEmpty && s.all isTagChar

end FeedOutline.Text
