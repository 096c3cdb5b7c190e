import FeedOutline.Markup.Reader
import FeedOutline.Text.Blank

/-!
Subscription lists as other readers keep them: feeds and the folders around them.
-/
namespace FeedOutline.Opml

open Text
open Markup (Node)

/-- A feed, or a folder if it has no address. -/
inductive Item where
  | mk (name url category : String) (items : List Item)
  deriving Repr, BEq, Inhabited

def filled? (key : String) (n : Node) : Option String :=
  (n.attribute? key).filter (!·.isEmpty)

def nameOf (n : Node) : String :=
  trimString (((filled? "title" n).or (filled? "text" n)).getD "")

mutual

def itemOf? : Node → Option Item
  | .text _ => none
  | .element tag attributes children =>
    if tag == .plain "outline" then
      let n := Node.element tag attributes []
      some ⟨nameOf n, trimString ((n.attribute? "xmlUrl").getD ""),
        (n.attribute? "category").getD "", itemsOf children⟩
    else none

/-- The items among some nodes; other elements are passed over with all they hold. -/
def itemsOf : List Node → List Item
  | [] => []
  | n :: ns =>
    match itemOf? n with
    | some item => item :: itemsOf ns
    | none => itemsOf ns

end

inductive Error where
  | markup (e : Markup.Error)
  | noBody
  deriving Repr, BEq, DecidableEq, Inhabited

def Error.message : Error → String
  | markup e => "OPML parse error: " ++ e.message
  | noBody => "Invalid OPML: no body element found"

def readItems (document : String) : Except Error (List Item) :=
  match Markup.read document with
  | .error e => .error (.markup e)
  | .ok root =>
    match (root.childrenNamed "body").head? with
    | none => .error .noBody
    | some body => .ok (itemsOf body.children)

end FeedOutline.Opml
