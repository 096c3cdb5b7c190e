import FeedOutline.Text.Blank

/-!
Link markup: `[[url]]` and `[[url][title]]`, for a heading that is nothing but a link.
-/
namespace FeedOutline

open Text

structure Link where
  url : String
  title : Option String := none
  deriving Repr, BEq, DecidableEq, Inhabited

namespace Link

def notBracket (c : Char) : Bool :=
  c != ']'

def trimmed? (s : List Char) : Option String :=
  let t := trim s
  if t.isEmpty then none else some (String.ofList t)

/-- Reads a whole text as a link; neither part may hold a closing bracket. -/
def ofText? : List Char → Option Link
  | '[' :: '[' :: s =>
    let url := s.takeWhile notBracket
    if url.isEmpty then none
    else match s.dropWhile notBracket with
      | [']', ']'] => some ⟨String.ofList (trim url), none⟩
      | ']' :: '[' :: t =>
        if t.dropWhile notBracket == [']', ']'] then
          some ⟨String.ofList (trim url), trimmed? (t.takeWhile notBracket)⟩
        else none
      | _ => none
  | _ => none

/-- Brackets would end the markup early, so a title is written with parentheses instead. -/
def roundBrackets (s : List Char) : List Char :=
  s.map fun c => if c == '[' then '(' else if c == ']' then ')' else c

def heading (url : String) (title : Option String) : String :=
  let shown := trim (roundBrackets (title.getD "").toList)
  if shown.isEmpty then url
  else "[[" ++ url ++ "][" ++ String.ofList shown ++ "]]"

end Link

end FeedOutline
