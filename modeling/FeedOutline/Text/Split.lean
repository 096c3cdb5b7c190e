/-!
Taking a text apart at separators and searching it for another.
-/
namespace FeedOutline.Text

/-- The parts between the separators, one more than there are separators. -/
def splitWhere (p : Char → Bool) : List Char → List (List Char)
  | [] => [[]]
  | c :: s =>
    if p c then [] :: splitWhere p s
    else match splitWhere p s with
      | [] => [[c]]
      | part :: parts => (c :: part) :: parts

def splitOn (sep : Char) : List Char → List (List Char) :=
  splitWhere (· == sep)

def contains (part : List Char) : List Char → Bool
  | [] => part.isEmpty
  | c :: s => part.isPrefixOf (c :: s) || contains part s

def containsString (part s : String) : Bool :=
  contains part.toList s.toList

def startsWith (start s : String) : Bool :=
  start.toList.isPrefixOf s.toList

def afterStart? : List Char → List Char → Option (List Char)
  | [], s => some s
  | _ :: _, [] => none
  | a :: start, c :: s => if a == c then afterStart? start s else none

def joined (sep : String) : List String → String
  | [] => ""
  | [s] => s
  | s :: ss => s ++ sep ++ joined sep ss

end FeedOutline.Text
