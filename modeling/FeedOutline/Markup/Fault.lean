/-!
What can be wrong with a markup document, and where.
-/
namespace FeedOutline.Markup

inductive Reason where
  | noElement
  | syntaxFault
  | invalidToken
  | unclosedToken
  | unclosedSection
  | mismatchedTag
  | duplicateAttribute
  | junkAfterRoot
  | undefinedEntity
  /-- An entity that some declaration which is not read may define. -/
  | missingEntity (name : String)
  | recursiveEntity
  | asyncEntity
  | binaryEntity
  | externalInAttribute
  | parameterReference
  | badCharacter
  | misplacedDeclaration
  | malformedDeclaration
  | badPublicId
  | unboundPrefix
  | undeclaredPrefix
  | reservedPrefixXml
  | reservedPrefixXmlns
  | reservedSpace
  deriving Repr, BEq, DecidableEq, Inhabited

def Reason.text : Reason → String
  | noElement => "no element found"
  | syntaxFault => "syntax error"
  | invalidToken => "not well-formed (invalid token)"
  | unclosedToken => "unclosed token"
  | unclosedSection => "unclosed CDATA section"
  | mismatchedTag => "mismatched tag"
  | duplicateAttribute => "duplicate attribute"
  | junkAfterRoot => "junk after document element"
  | undefinedEntity => "undefined entity"
  | missingEntity name => "undefined entity &" ++ name ++ ";"
  | recursiveEntity => "recursive entity reference"
  | asyncEntity => "asynchronous entity"
  | binaryEntity => "reference to binary entity"
  | externalInAttribute => "reference to external entity in attribute"
  | parameterReference => "illegal parameter entity reference"
  | badCharacter => "reference to invalid character number"
  | misplacedDeclaration => "XML or text declaration not at start of entity"
  | malformedDeclaration => "XML declaration not well-formed"
  | badPublicId => "illegal character(s) in public id"
  | unboundPrefix => "unbound prefix"
  | undeclaredPrefix => "must not undeclare prefix"
  | reservedPrefixXml =>
    "reserved prefix (xml) must not be undeclared or bound to another namespace name"
  | reservedPrefixXmlns => "reserved prefix (xmlns) must not be declared or undeclared"
  | reservedSpace => "prefix must not be bound to one of the reserved namespace names"

structure Fault where
  reason : Reason
  offset : Nat
  deriving Repr, BEq, DecidableEq, Inhabited

structure Place where
  line : Nat := 1
  column : Nat := 0
  deriving Repr, BEq, DecidableEq, Inhabited

/-- The place after some text; a return, a line feed, or both in a row end a line. -/
def Place.after (p : Place) : List Char → Place
  | [] => p
  | c :: s =>
    if c == '\n' || (c == '\r' && s.head? != some '\n') then after ⟨p.line + 1, 0⟩ s
    else after ⟨p.line, p.column + 1⟩ s

structure Error where
  reason : Reason
  place : Place
  deriving Repr, BEq, DecidableEq, Inhabited

def Error.ofFault (document : List Char) (f : Fault) : Error :=
  ⟨f.reason, Place.after {} (document.take f.offset)⟩

def Error.message (e : Error) : String :=
  e.reason.text ++ ": line " ++ toString e.place.line ++ ", column " ++ toString e.place.column

/-- What one more character makes of an unfinished piece of markup: more of it, the whole of it, or
nothing that is well-formed. -/
inductive Outcome (σ τ : Type) where
  | more (s : σ)
  | done (t : τ)
  | invalid
  deriving Repr, Inhabited

def Outcome.map (f : σ → σ') (g : τ → τ') : Outcome σ τ → Outcome σ' τ'
  | more s => more (f s)
  | done t => done (g t)
  | invalid => invalid

end FeedOutline.Markup
