import FeedOutline.Markup.AttributeList
import FeedOutline.Markup.ContentModel
import FeedOutline.Markup.Declaration
import FeedOutline.Markup.Value

/-!
What stands before the root element: the document's own declaration, and its type with the declarations of
entities, elements, attributes and notations.
-/
namespace FeedOutline.Markup

/-- The text that an entity stands for: numbered characters are resolved, other references kept. -/
inductive EntityScan where
  | plain
  | reference (r : RefScan) (read : List Char) (start : Nat)
  | percent (start : Nat)
  | parameter (start : Nat)
  deriving Repr, BEq, DecidableEq, Inhabited

def entityText (scan : EntityScan) (offset : Nat) : List Char → Except Fault (List Char)
  | [] =>
    match scan with
    | .plain => .ok []
    | .reference _ _ start | .percent start | .parameter start => .error ⟨.invalidToken, start⟩
  | c :: s =>
    match scan with
    | .plain =>
      if c == '&' then entityText (.reference .start [] offset) (offset + 1) s
      else if c == '%' then entityText (.percent offset) (offset + 1) s
      else if c == '\r' then
        if s.head? == some '\n' then entityText .plain (offset + 1) s
        else (entityText .plain (offset + 1) s).map ('\n' :: ·)
      else (entityText .plain (offset + 1) s).map (c :: ·)
    | .reference r read start =>
      match r.step c with
      | .more r => entityText (.reference r (c :: read) start) (offset + 1) s
      | .invalid => .error ⟨.invalidToken, offset⟩
      | .done _ =>
        if read.getLast? == some '#' then
          match Reference.ofText read.reverse with
          | .char (some c) => (entityText .plain (offset + 1) s).map (c :: ·)
          | _ => .error ⟨.badCharacter, start⟩
        else (entityText .plain (offset + 1) s).map (('&' :: read.reverse ++ [';']) ++ ·)
    | .percent start =>
      if isNameStart c then entityText (.parameter start) (offset + 1) s
      else .error ⟨.invalidToken, offset⟩
    | .parameter start =>
      if isNameChar c then entityText (.parameter start) (offset + 1) s
      else if c == ';' then .error ⟨.parameterReference, start⟩
      else .error ⟨.invalidToken, offset⟩

inductive Prolog where
  /-- Nothing is behind. -/
  | opening
  | beforeDoctype
  | doctype
  | doctypeNamed
  | publicId
  | systemId
  | behindId
  | subset
  | behindSubset
  | behindDoctype
  | entity
  | parameterEntity
  | entityNamed (name : Option (List Char))
  | entityPublicId (name : Option (List Char))
  | entitySystemId (name : Option (List Char))
  | entityBehindId (name : Option (List Char))
  | entityKind (name : Option (List Char))
  | element (s : ElementScan)
  | attributeList (s : AttributeListScan)
  | notationStart
  | notationNamed
  | notationPublicId
  | notationSystemId
  | notationBehindPublicId
  | declarationEnd
  deriving Repr, BEq, DecidableEq, Inhabited

def isPublicIdChar (c : Char) : Bool :=
  c.isAlphanum || c == '\r' || c == '\n' || " -'()+,./:=?;!*#@$_%".contains c

def publicIdFault? (text : List Char) (offset : Nat) : Option Fault :=
  if text.all isPublicIdChar then none
  else some ⟨.badPublicId, offset + 1 + (text.takeWhile isPublicIdChar).length⟩

namespace Prolog

def allowsRoot : Prolog → Bool
  | opening | beforeDoctype | behindDoctype => true
  | _ => false

def allowsAside (p : Prolog) : Bool :=
  p.allowsRoot || p == subset

def afterAside : Prolog → Prolog
  | opening => beforeDoctype
  | p => p

def declare (d : Declarations) (name : Option (List Char)) (body : EntityBody) : Declarations :=
  match name with
  | some name => d.declare name body
  | none => d

def ofDeclaration? (word : String) : Option Prolog :=
  [("ENTITY", entity), ("ELEMENT", element .start), ("ATTLIST", attributeList .start),
    ("NOTATION", notationStart)].lookup word

def stepAttributes (d : Declarations) (s : AttributeListScan) (t : Placed) :
    Except Fault (Declarations × Prolog) :=
  match s.step t.token with
  | .more s => .ok (d, attributeList s)
  | .declared a => .ok (d.declareAttribute a, attributeList (.next a.element))
  | .declaredWith a written =>
    if d.isOver then .ok (d, attributeList (.next a.element))
    else do
      let value ← attributeValue d a.isWords t.offset (t.offset + 1) written
      return (d.declareAttribute { a with default? := some value }, attributeList (.next a.element))
  | .done => .ok (d, subset)
  | .invalid => .error ⟨.syntaxFault, t.offset⟩

/-- Reads one token; `first` is the place where a declaration of the document would begin. -/
def step (first : Nat) (d : Declarations) (p : Prolog) (t : Placed) :
    Except Fault (Declarations × Prolog) :=
  match p, t.token with
  | _, .fault r => .error ⟨r, t.offset⟩
  | _, .finish => .error ⟨.noElement, t.offset⟩
  | opening, .aside (.declaration body) =>
    if t.offset = first then
      match readDeclaration body with
      | .ok standsAlone => .ok ({ d with standsAlone }, beforeDoctype)
      | .error rest => .error ⟨.malformedDeclaration, t.offset + 5 + (body.length - rest.length)⟩
    else .error ⟨.misplacedDeclaration, t.offset⟩
  | _, .aside (.declaration _) => .error ⟨.misplacedDeclaration, t.offset⟩
  | p, .aside _ =>
    if p.allowsAside then .ok (d, p.afterAside) else .error ⟨.syntaxFault, t.offset⟩
  | opening, .declaration word | beforeDoctype, .declaration word =>
    if word == "DOCTYPE".toList then .ok (d, doctype) else .error ⟨.syntaxFault, t.offset⟩
  | doctype, .word _ | doctype, .prefixedWord _ => .ok (d, doctypeNamed)
  | doctypeNamed, .mark '[' => .ok (d, subset)
  | doctypeNamed, .mark '>' => .ok (d, behindDoctype)
  | doctypeNamed, .word w =>
    if w == "SYSTEM".toList then .ok ({ d with isPartial := true }, systemId)
    else if w == "PUBLIC".toList then .ok ({ d with isPartial := true }, publicId)
    else .error ⟨.syntaxFault, t.offset⟩
  | publicId, .literal text =>
    match publicIdFault? text t.offset with
    | some f => .error f
    | none => .ok (d, systemId)
  | systemId, .literal _ => .ok (d, behindId)
  | behindId, .mark '[' => .ok (d, subset)
  | behindId, .mark '>' => .ok (d, behindDoctype)
  | subset, .mark ']' => .ok (d, behindSubset)
  | behindSubset, .mark '>' => .ok (d, behindDoctype)
  | subset, .parameter _ => .ok ({ d with isPartial := true, isOver := !d.standsAlone }, subset)
  | subset, .declaration word =>
    match ofDeclaration? (String.ofList word) with
    | some p => .ok (d, p)
    | none => .error ⟨.syntaxFault, t.offset⟩
  | entity, .mark '%' => .ok (d, parameterEntity)
  | entity, .word name => .ok (d, entityNamed (some name))
  | parameterEntity, .word _ => .ok (d, entityNamed none)
  | entityNamed name, .literal text =>
    if d.isOver then .ok (d, declarationEnd)
    else do
      let body ← entityText .plain (t.offset + 1) text
      return (declare d name (.text body), declarationEnd)
  | entityNamed name, .word w =>
    if w == "SYSTEM".toList then .ok (d, entitySystemId name)
    else if w == "PUBLIC".toList then .ok (d, entityPublicId name)
    else .error ⟨.syntaxFault, t.offset⟩
  | entityPublicId name, .literal text =>
    match publicIdFault? text t.offset with
    | some f => .error f
    | none => .ok (d, entitySystemId name)
  | entitySystemId name, .literal _ => .ok (d, entityBehindId name)
  | entityBehindId name, .mark '>' => .ok (declare d name .external, subset)
  | entityBehindId (some name), .word w =>
    if w == "NDATA".toList then .ok (d, entityKind (some name)) else .error ⟨.syntaxFault, t.offset⟩
  | entityKind name, .word _ => .ok (declare d name .binary, declarationEnd)
  | _, .parameter _ => .error ⟨.parameterReference, t.offset⟩
  | element s, token =>
    match s.step token with
    | .more s => .ok (d, element s)
    | .done _ => .ok (d, declarationEnd)
    | .invalid => .error ⟨.syntaxFault, t.offset⟩
  | attributeList s, _ => stepAttributes d s t
  | notationStart, .word _ => .ok (d, notationNamed)
  | notationNamed, .word w =>
    if w == "SYSTEM".toList then .ok (d, notationSystemId)
    else if w == "PUBLIC".toList then .ok (d, notationPublicId)
    else .error ⟨.syntaxFault, t.offset⟩
  | notationPublicId, .literal text =>
    match publicIdFault? text t.offset with
    | some f => .error f
    | none => .ok (d, notationBehindPublicId)
  | notationSystemId, .literal _ | notationBehindPublicId, .literal _ => .ok (d, declarationEnd)
  | notationBehindPublicId, .mark '>' | declarationEnd, .mark '>' => .ok (d, subset)
  | _, _ => .error ⟨.syntaxFault, t.offset⟩

end Prolog

end FeedOutline.Markup
