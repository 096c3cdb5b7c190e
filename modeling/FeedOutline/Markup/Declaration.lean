import FeedOutline.Markup.Reference

/-!
The declaration at the start of a document: a version, and perhaps an encoding and whether the document
stands alone. Texts are decoded already, so the encoding is only checked for its form.
-/
namespace FeedOutline.Markup

structure Setting where
  name : List Char
  value : List Char
  nameOn : List Char
  valueOn : List Char
  rest : List Char
  deriving Repr, BEq, DecidableEq, Inhabited

def isSettingChar (c : Char) : Bool :=
  c.isAlphanum || c == '.' || c == '-' || c == '_'

def isSettingName (c : Char) : Bool :=
  c != '=' && !isSpace c && c.toNat < 128

def setting? (s : List Char) : Except (List Char) (Option Setting) :=
  let nameOn := s.dropWhile isSpace
  if nameOn.isEmpty then .ok none
  else if !s.head?.any isSpace then .error s
  else
    let name := nameOn.takeWhile isSettingName
    match (nameOn.dropWhile isSettingName).dropWhile isSpace with
    | '=' :: rest =>
      if name.isEmpty && nameOn.head? == some '=' then .error nameOn
      else match rest.dropWhile isSpace with
        | mark :: valueOn =>
          let behind := valueOn.dropWhile isSettingChar
          if mark != '"' && mark != '\'' then .error (mark :: valueOn)
          else if behind.head? != some mark then .error behind
          else .ok (some ⟨name, valueOn.takeWhile isSettingChar, nameOn, valueOn, behind.tail⟩)
        | [] => .error []
    | other => .error other

def encodingFault? (s : Setting) : Option (List Char) :=
  if s.value.head?.any Char.isAlpha then none else some s.valueOn

def standsAlone? (s : Setting) : Except (List Char) Bool :=
  let rest := s.rest.dropWhile isSpace
  if s.name != "standalone".toList then .error s.nameOn
  else if s.value != "yes".toList && s.value != "no".toList then .error s.valueOn
  else if !rest.isEmpty then .error rest
  else .ok (s.value == "yes".toList)

/-- Reads what stands between `<?xml` and `?>`: whether the document stands alone. -/
def readDeclaration (body : List Char) : Except (List Char) Bool := do
  match ← setting? body with
  | none => .error body
  | some version =>
    if version.name != "version".toList then .error version.nameOn
    else match ← setting? version.rest with
      | none => .ok false
      | some second =>
        if second.name == "encoding".toList then
          match encodingFault? second with
          | some fault => .error fault
          | none => match ← setting? second.rest with
            | none => .ok false
            | some third => standsAlone? third
        else standsAlone? second

end FeedOutline.Markup
