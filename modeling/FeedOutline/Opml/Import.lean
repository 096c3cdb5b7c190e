import FeedOutline.Link
import FeedOutline.Opml.Item
import FeedOutline.Outline.Heading
import FeedOutline.Text.Case

/-!
Writing a subscription list as an outline. Folders become headings with a tag made of their name, so
that feeds inherit the tags of their folders.
-/
namespace FeedOutline.Opml

open Text
open Outline (tagSuffix)

/-- Every run of characters that a tag cannot hold becomes one underscore. -/
def joinRuns : List Char → List Char
  | [] => []
  | c :: s =>
    if isTagChar c then c :: joinRuns s
    else if s.head?.any (!isTagChar ·) then joinRuns s
    else '_' :: joinRuns s

/-- The tag of a folder or category, none if nothing of the name is left. -/
def tagOfName? (name : String) : Option String :=
  let tag := trimmed (· == '_') (joinRuns (lower (trim name.toList)))
  if tag.isEmpty then none else some (String.ofList tag)

def categoryTags (category : String) : List (Option String) :=
  (splitWhere (fun c => c == ',' || c == '/') category.toList).map fun part =>
    tagOfName? (String.ofList part)

def headingLine (level : Nat) (text : String) (tags : List (Option String)) : String :=
  String.ofList (List.replicate level '*') ++ " " ++ text ++ tagSuffix tags

def itemLine (level : Nat) (name url category : String) : String :=
  if url.isEmpty then
    let folderTag := if name.isEmpty then none else tagOfName? name
    headingLine level (if name.isEmpty then "Untitled" else name) (folderTag :: categoryTags category)
  else
    headingLine level (Link.heading url (if name = url then none else some name))
      (categoryTags category)

mutual

def Item.lines (level : Nat) : Item → List String
  | ⟨name, url, category, items⟩ => itemLine level name url category :: linesOf (level + 1) items

def linesOf (level : Nat) : List Item → List String
  | [] => []
  | item :: items => item.lines level ++ linesOf level items

end

mutual

def Item.feedCount : Item → Nat
  | ⟨_, url, _, items⟩ => (if url.isEmpty then 0 else 1) + feedCountOf items

def feedCountOf : List Item → Nat
  | [] => 0
  | item :: items => item.feedCount + feedCountOf items

end

def outlineOf (marker heading : String) (items : List Item) : String :=
  joined "\n" (headingLine 1 heading [some marker] :: linesOf 2 items) ++ "\n"

def toOutline (document marker heading : String) : Except Error String := do
  return outlineOf marker heading (← readItems document)

end FeedOutline.Opml
