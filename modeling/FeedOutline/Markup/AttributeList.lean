import FeedOutline.Markup.Declarations
import FeedOutline.Markup.Token

/-!
Declarations of the attributes of an element: their kinds and defaults.
-/
namespace FeedOutline.Markup

inductive AttributeListScan where
  /-- Before the element's name. -/
  | start
  /-- Before an attribute's name, or the end. -/
  | next (element : List Char)
  | kind (a : DeclaredAttribute)
  /-- Before one of the words that the value may be, or behind it. -/
  | choice (a : DeclaredAttribute)
  | behindChoice (a : DeclaredAttribute)
  | byNotation (a : DeclaredAttribute)
  | notationChoice (a : DeclaredAttribute)
  | behindNotation (a : DeclaredAttribute)
  /-- Before the default, or what stands for it. -/
  | atDefault (a : DeclaredAttribute)
  | fixed (a : DeclaredAttribute)
  deriving Repr, BEq, DecidableEq, Inhabited

inductive AttributeListStep where
  | more (s : AttributeListScan)
  /-- An attribute is declared. -/
  | declared (a : DeclaredAttribute)
  /-- An attribute is declared whose default is written so. -/
  | declaredWith (a : DeclaredAttribute) (written : List Char)
  | done
  | invalid
  deriving Repr, BEq, DecidableEq, Inhabited

def wordKinds : List String :=
  ["ID", "IDREF", "IDREFS", "ENTITY", "ENTITIES", "NMTOKEN", "NMTOKENS"]

namespace AttributeListScan

def stepKind (a : DeclaredAttribute) (word : String) : AttributeListStep :=
  if word == "CDATA" then .more (atDefault a)
  else if wordKinds.contains word then .more (atDefault { a with isWords := true })
  else if word == "NOTATION" then .more (byNotation { a with isWords := true })
  else .invalid

def stepDefault (a : DeclaredAttribute) (word : String) : AttributeListStep :=
  if word == "IMPLIED" || word == "REQUIRED" then .declared a
  else if word == "FIXED" then .more (fixed a)
  else .invalid

def step : AttributeListScan → Token → AttributeListStep
  | start, .word element | start, .prefixedWord element => .more (next element)
  | next _, .mark '>' => .done
  | next element, .word name | next element, .prefixedWord name => .more (kind ⟨element, name, false, none⟩)
  | kind a, .word w => stepKind a (String.ofList w)
  | kind a, .mark '(' => .more (choice { a with isWords := true })
  | choice a, .word _ | choice a, .prefixedWord _ | choice a, .nameToken => .more (behindChoice a)
  | behindChoice a, .mark '|' => .more (choice a)
  | behindChoice a, .mark ')' | behindNotation a, .mark ')' => .more (atDefault a)
  | byNotation a, .mark '(' => .more (notationChoice a)
  | notationChoice a, .word _ => .more (behindNotation a)
  | behindNotation a, .mark '|' => .more (notationChoice a)
  | atDefault a, .numberWord w => stepDefault a (String.ofList w)
  | atDefault a, .literal text | fixed a, .literal text => .declaredWith a text
  | _, _ => .invalid

end AttributeListScan

end FeedOutline.Markup
