import FeedOutline.Markup.Reference

/-!
Comments and processing instructions, the parts of a document that say nothing about its elements, and
the declaration at its start, which has the form of an instruction.
-/
namespace FeedOutline.Markup

inductive Aside where
  | comment
  | instruction
  /-- The text between `<?xml` and `?>`. -/
  | declaration (body : List Char)
  deriving Repr, BEq, DecidableEq, Inhabited

/-- How far it has come; texts are kept last character first. -/
inductive AsideScan where
  /-- After the first dash of a comment. -/
  | dash
  /-- In a comment, after `dashes` dashes. -/
  | comment (dashes : Nat)
  /-- After the question mark that begins an instruction. -/
  | question
  | target (name : List Char)
  /-- After the question mark that follows the target at once. -/
  | ending (isDeclaration : Bool)
  | body (isDeclaration : Bool) (text : List Char)
  deriving Repr, BEq, DecidableEq, Inhabited

def reservedTarget? (name : List Char) : Option Bool :=
  if name == "xml".toList then some true
  else if name.map Char.toLower == "xml".toList then none
  else some false

def AsideScan.asideOf (isDeclaration : Bool) (text : List Char) : Aside :=
  if isDeclaration then .declaration text.reverse else .instruction

def AsideScan.step : AsideScan → Char → Outcome AsideScan Aside
  | dash, c => if c == '-' then .more (comment 0) else .invalid
  | comment dashes, c =>
    if dashes = 2 then (if c == '>' then .done .comment else .invalid)
    else if c == '-' then .more (comment (dashes + 1))
    else if isLegal c then .more (comment 0) else .invalid
  | question, c => if isNameStart c then .more (target [c]) else .invalid
  | target name, c =>
    if isNameChar c then .more (target (c :: name))
    else match reservedTarget? name.reverse with
      | none => .invalid
      | some isDeclaration =>
        if isSpace c then .more (body isDeclaration [c])
        else if c == '?' then .more (ending isDeclaration) else .invalid
  | ending isDeclaration, c =>
    if c == '>' then .done (asideOf isDeclaration []) else .invalid
  | body isDeclaration text, c =>
    if c == '>' && text.head? == some '?' then .done (asideOf isDeclaration text.tail)
    else if isLegal c then .more (body isDeclaration (c :: text)) else .invalid

end FeedOutline.Markup
