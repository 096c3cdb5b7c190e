import FeedOutline.Text.Blank
import FeedOutline.Text.Split
import FeedOutline.Text.Word

/-!
Heading lines: stars, a text, and at the end of the line an annotation of tags between colons. The
writer of annotations stands beside their reader.
-/
namespace FeedOutline.Outline

open Text

structure Heading where
  text : String
  level : Nat
  tags : List String := []
  deriving Repr, BEq, DecidableEq, Inhabited

def tagGroup? : List Char → Option (List (List Char))
  | ':' :: rest =>
    let parts := splitOn ':' rest
    let names := parts.dropLast
    if parts.getLast? == some [] && !names.isEmpty && names.all isTag then some names else none
  | _ => none

def lastWord (s : List Char) : List Char :=
  (s.reverse.takeWhile (!isGap ·)).reverse

def beforeLastWord (s : List Char) : List Char :=
  (s.reverse.dropWhile (!isGap ·)).reverse

/-- Separates the text of a heading from its annotation. A tag given twice counts once. -/
def splitTags (s : List Char) : List Char × List (List Char) :=
  match tagGroup? (lastWord s) with
  | some names => (trim (beforeLastWord s), names.eraseDups)
  | none => (s, [])

/-- Stars at the start of a line make it a heading if a space, a tab or nothing follows them. -/
def Heading.ofLine? (line : List Char) : Option Heading :=
  let stars := line.takeWhile (· == '*')
  let rest := line.dropWhile (· == '*')
  if !stars.isEmpty && (rest.isEmpty || rest.head?.any isGap) then
    let (text, tags) := splitTags (trim rest)
    some ⟨String.ofList text, stars.length, tags.map String.ofList⟩
  else none

def tagSuffix (tags : List (Option String)) : String :=
  let names := (tags.eraseDups.filterMap id).filter (· != "")
  if names.isEmpty then "" else " :" ++ joined ":" names ++ ":"

end FeedOutline.Outline
