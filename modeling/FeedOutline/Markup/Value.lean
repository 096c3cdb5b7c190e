import FeedOutline.Markup.Declarations

/-!
Values of attributes, with their references resolved.
-/
namespace FeedOutline.Markup

inductive ValuePart where
  | char (c : Char)
  | reference (r : Reference)
  | bad
  deriving Repr, BEq, DecidableEq, Inhabited

/-- Takes a value apart, with the place of each part. White space counts as spaces, a line end as one.
`pending` is a reference that began at `start`. -/
def valueParts (pending : Option (RefScan × List Char)) (start offset : Nat) :
    List Char → List (ValuePart × Nat)
  | [] => if pending.isSome then [(.bad, start)] else []
  | c :: s =>
    match pending with
    | none =>
      if c == '&' then valueParts (some (.start, [])) offset (offset + 1) s
      else if c == '<' then [(.bad, offset)]
      else if c == '\r' && s.head? == some '\n' then valueParts none start (offset + 1) s
      else (.char (if isSpace c then ' ' else c), offset) :: valueParts none start (offset + 1) s
    | some (r, read) =>
      match r.step c with
      | .more r => valueParts (some (r, c :: read)) start (offset + 1) s
      | .done _ =>
        (.reference (Reference.ofText read.reverse), start) :: valueParts none start (offset + 1) s
      | .invalid => [(.bad, offset)]

def partText (entity : List Char → Nat → Except (Reason × Option Nat) (List Char)) :
    ValuePart × Nat → Except (Reason × Option Nat) (List Char)
  | (.char c, _) => .ok [c]
  | (.reference (.char (some c)), _) => .ok [c]
  | (.reference (.char none), offset) => .error (.badCharacter, some offset)
  | (.reference (.entity name), offset) => entity name offset
  | (.bad, offset) => .error (.invalidToken, some offset)

def partsText (entity : List Char → Nat → Except (Reason × Option Nat) (List Char)) :
    List (ValuePart × Nat) → Except (Reason × Option Nat) (List Char)
  | [] => .ok []
  | p :: ps => do return (← partText entity p) ++ (← partsText entity ps)

/-- The text of an entity inside of a value. The entities in `within` are being resolved, of which
there can be at most `fuel` more. -/
def entityInValue (d : Declarations) : Nat → List (List Char) → List Char → Nat →
    Except (Reason × Option Nat) (List Char)
  | 0, _, _, offset => .error (.recursiveEntity, some offset)
  | fuel + 1, within, name, offset =>
    match d.entity? name with
    | none => if d.isComplete then .error (.undefinedEntity, none) else .ok []
    | some body =>
      if within.contains name then .error (.recursiveEntity, some offset)
      else match body with
        | .external => .error (.externalInAttribute, some offset)
        | .binary => .error (.binaryEntity, some offset)
        | .text s =>
          match partsText (entityInValue d fuel (name :: within)) (valueParts none 0 0 s) with
          | .ok text => .ok text
          | .error (reason, _) => .error (reason, none)

def joinedWords (s : List Char) : List Char :=
  let joined := s.foldl (fun read c =>
    if c == ' ' && (read.isEmpty || read.head? == some ' ') then read else c :: read) []
  (if joined.head? == some ' ' then joined.tail else joined).reverse

/-- The value of an attribute as it is written after `offset` characters. A fault inside of an entity counts
as one at `start`. -/
def attributeValue (d : Declarations) (isWords : Bool) (start offset : Nat) (written : List Char) :
    Except Fault (List Char) :=
  match partsText (entityInValue d (d.entities.length + 1) []) (valueParts none 0 offset written) with
  | .ok text => .ok (if isWords then joinedWords text else text)
  | .error (reason, place) => .error ⟨reason, place.getD start⟩

end FeedOutline.Markup
