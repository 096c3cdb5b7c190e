import FeedOutline.Text.Table.Case

/-!
Upper and lower case of a text. Both may change its length; the lower case of a capital sigma depends
on where in a word it stands.
-/
namespace FeedOutline.Text

def CaseRun.covers (r : CaseRun) (n : Nat) : Bool :=
  r.first ≤ n && n ≤ r.last && (n - r.first) % r.step == 0

def shiftBy (runs : List CaseRun) (c : Char) : Char :=
  match runs.find? (·.covers c.toNat) with
  | some r => Char.ofNat (Int.toNat (c.toNat + r.shift))
  | none => c

def upperChar (c : Char) : List Char :=
  if c.toNat < 128 then [c.toUpper]
  else match upperSpecial.lookup c.toNat with
    | some cs => cs.map Char.ofNat
    | none => [shiftBy upperRuns c]

def upper (s : List Char) : List Char :=
  s.flatMap upperChar

/-- The lower case of a letter on its own. The capital I with a dot keeps its dot as a mark. -/
def lowerChar (c : Char) : List Char :=
  if c.toNat < 128 then [c.toLower]
  else if c == 'İ' then ['i', '\u0307']
  else [shiftBy lowerRuns c]

def casedNext (s : List Char) : Bool :=
  match s.find? (fun c => !caseIgnorableRanges.has c) with
  | some c => casedRanges.has c
  | none => false

/-- `before` holds, last first, what has been passed. A capital sigma that ends a word has a lower
case of its own. -/
def lowerAfter (before : List Char) : List Char → List Char
  | [] => []
  | c :: s =>
    (if c == 'Σ' then [if casedNext before && !casedNext s then 'ς' else 'σ'] else lowerChar c) ++
      lowerAfter (c :: before) s

def lower (s : List Char) : List Char :=
  lowerAfter [] s

def upperString (s : String) : String :=
  String.ofList (upper s.toList)

def lowerString (s : String) : String :=
  String.ofList (lower s.toList)

end FeedOutline.Text
