import FeedOutline.Markup.Node
import FeedOutline.Markup.Tag
import FeedOutline.Markup.Value

/-!
The attributes of a tag, with the defaults that are declared for it and the namespaces that they declare.
-/
namespace FeedOutline.Markup

/-- Namespaces by prefix, the innermost first; the empty prefix is that of names without one. -/
abbrev Spaces := List (List Char × List Char)

def xmlSpace : List Char :=
  "http://www.w3.org/XML/1998/namespace".toList

def xmlnsSpace : List Char :=
  "http://www.w3.org/2000/xmlns/".toList

def Spaces.initial : Spaces :=
  [("xml".toList, xmlSpace)]

def splitName (name : List Char) : Option (List Char) × List Char :=
  match name.dropWhile (· != ':') with
  | _ :: rest => (some (name.takeWhile (· != ':')), rest)
  | [] => (none, name)

def declaredPrefix? (name : List Char) : Option (List Char) :=
  if name == "xmlns".toList then some []
  else match splitName name with
    | (some p, rest) => if p == "xmlns".toList then some rest else none
    | (none, _) => none

/-- What is wrong with declaring a namespace. The closing brace is reserved. -/
def spaceFault? (pre space : List Char) : Option Reason :=
  if space.isEmpty && !pre.isEmpty then some .undeclaredPrefix
  else if pre == "xmlns".toList then some .reservedPrefixXmlns
  else if space.contains '\x7d' then some .syntaxFault
  else if pre == "xml".toList && space != xmlSpace then some .reservedPrefixXml
  else if pre != "xml".toList && space == xmlSpace then some .reservedSpace
  else if space == xmlnsSpace then some .reservedSpace
  else none

abbrev Valued := List Char × List Char

structure TagAttributes where
  valued : List Valued := []
  spaces : Spaces
  deriving Repr, Inhabited

def TagAttributes.add (tagStart : Nat) (t : TagAttributes) (a : Valued) : Except Fault TagAttributes :=
  match declaredPrefix? a.1 with
  | none => .ok { t with valued := t.valued ++ [a] }
  | some pre =>
    match spaceFault? pre a.2 with
    | some reason => .error ⟨reason, tagStart⟩
    | none => .ok { t with spaces := (pre, a.2) :: t.spaces }

def readAttributes (d : Declarations) (element : List Char) (tagStart : Nat) (seen : List (List Char))
    (t : TagAttributes) : List RawAttribute → Except Fault TagAttributes
  | [] => .ok t
  | a :: as =>
    if seen.contains a.name then .error ⟨.duplicateAttribute, a.start⟩
    else do
      let value ← attributeValue d (d.isWords element a.name) tagStart a.valueStart a.value
      readAttributes d element tagStart (a.name :: seen) (← t.add tagStart (a.name, value)) as

def defaultsFor (d : Declarations) (tag : Tag) : List Valued :=
  ((d.attributesOf tag.name).filter fun a => !tag.attributes.any (·.name == a.name)).filterMap fun a =>
    a.default?.map fun value => (a.name, value)

def allAttributes (d : Declarations) (tagStart : Nat) (spaces : Spaces) (tag : Tag) :
    Except Fault TagAttributes := do
  let written ← readAttributes d tag.name tagStart [] ⟨[], spaces⟩ tag.attributes
  (defaultsFor d tag).foldlM (TagAttributes.add tagStart) written

def attributeName? (spaces : Spaces) (name : List Char) : Option Name :=
  match splitName name with
  | (none, text) => some ⟨none, String.ofList text⟩
  | (some p, text) => (spaces.lookup p).map fun space =>
    ⟨some (String.ofList space), String.ofList text⟩

def elementName? (spaces : Spaces) (name : List Char) : Option Name :=
  match splitName name with
  | (none, text) =>
    let space := (spaces.lookup []).getD []
    some ⟨if space.isEmpty then none else some (String.ofList space), String.ofList text⟩
  | (some p, text) => (spaces.lookup p).map fun space =>
    ⟨some (String.ofList space), String.ofList text⟩

def nameAttributes (spaces : Spaces) (tagStart : Nat) (seen : List Name) :
    List Valued → Except Fault (List (Name × String))
  | [] => .ok []
  | (raw, value) :: rest =>
    match attributeName? spaces raw with
    | none => .error ⟨.unboundPrefix, tagStart⟩
    | some name =>
      if seen.contains name then .error ⟨.duplicateAttribute, tagStart⟩
      else do
        let rest ← nameAttributes spaces tagStart (name :: seen) rest
        return (name, String.ofList value) :: rest

end FeedOutline.Markup
