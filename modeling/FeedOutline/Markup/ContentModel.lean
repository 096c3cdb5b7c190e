import FeedOutline.Markup.Token

/-!
Declarations of what an element may hold. They are read for their form only.
-/
namespace FeedOutline.Markup

inductive ElementScan where
  /-- Before the element's name. -/
  | start
  | named
  /-- Behind the first opening bracket. -/
  | opened
  /-- Between text and elements, in a list that began with text. -/
  | mixed
  | mixedBar
  | mixedName
  /-- Before an item of groups, the innermost first, each with the sign between its items. -/
  | group (signs : List (Option Char))
  | behindItem (signs : List (Option Char))
  deriving Repr, BEq, DecidableEq, Inhabited

namespace ElementScan

def closeGroup : List (Option Char) → Outcome ElementScan Unit
  | _ :: sign :: signs => .more (behindItem (sign :: signs))
  | _ => .done ()

def stepItem (signs : List (Option Char)) : Token → Outcome ElementScan Unit
  | .word _ | .prefixedWord _ | .repeatedWord => .more (behindItem signs)
  | .mark '(' => .more (group (none :: signs))
  | _ => .invalid

/-- All signs between the items of a group are the same. -/
def stepBehindItem (signs : List (Option Char)) : Token → Outcome ElementScan Unit
  | .mark ')' | .repeatedEnd _ => closeGroup signs
  | .mark c =>
    match signs with
    | sign :: signs =>
      if (c == ',' || c == '|') && (sign == none || sign == some c) then .more (group (some c :: signs))
      else .invalid
    | [] => .invalid
  | _ => .invalid

def step : ElementScan → Token → Outcome ElementScan Unit
  | start, .word _ | start, .prefixedWord _ => .more named
  | named, .word w => if w == "EMPTY".toList || w == "ANY".toList then .done () else .invalid
  | named, .mark '(' => .more opened
  | opened, .numberWord w => if w == "PCDATA".toList then .more mixed else .invalid
  | opened, t => stepItem [none] t
  | mixed, .mark ')' | mixed, .repeatedEnd '*' | mixedName, .repeatedEnd '*' => .done ()
  | mixed, .mark '|' | mixedName, .mark '|' => .more mixedBar
  | mixedBar, .word _ | mixedBar, .prefixedWord _ => .more mixedName
  | group signs, t => stepItem signs t
  | behindItem signs, t => stepBehindItem signs t
  | _, _ => .invalid

end ElementScan

end FeedOutline.Markup
