import FeedOutline.Text.Torn
import FeedOutline.Yaml.Number
import FeedOutline.Yaml.Time

/-!
Tags: what kind of value a node stands for, and the kind that a text without quotes has by its form.
-/
namespace FeedOutline.Yaml

inductive Tag where
  | null
  | bool
  | int
  | float
  | time
  | bytes
  | text
  | list
  | map
  | set
  /-- A list of pairs. -/
  | pairs
  /-- The key under which other mappings are merged in. -/
  | merge
  /-- A single equals sign. -/
  | default
  | other
  deriving Repr, BEq, DecidableEq, Inhabited

def tagSpace : String :=
  "tag:yaml.org,2002:"

def Tag.ofName (name : String) : Tag :=
  match Text.afterStart? tagSpace.toList name.toList with
  | none => .other
  | some rest =>
    ([("null", .null), ("bool", .bool), ("int", .int), ("float", .float), ("timestamp", .time),
      ("binary", .bytes), ("str", .text), ("seq", .list), ("map", .map), ("set", .set), ("omap", .pairs),
      ("pairs", .pairs), ("merge", .merge),
      ("value", .default)].lookup (String.ofList rest)).getD .other

def truthWords : List (String × Bool) :=
  [("yes", true), ("true", true), ("on", true), ("no", false), ("false", false), ("off", false)]

def truth? (s : String) : Option Bool :=
  truthWords.lookup (s.map Char.toLower)

def looksLikeTruth (s : String) : Bool :=
  (truth? s).isSome &&
    (s == s.map Char.toLower || s == s.map Char.toUpper || s == (s.map Char.toLower).capitalize)

def looksLikeNull (s : String) : Bool :=
  ["", "~", "null", "Null", "NULL"].contains s

def Tag.ofWord (s : String) : Tag :=
  let cs := s.toList
  if looksLikeTruth s then .bool
  else if looksLikeFloat cs then .float
  else if looksLikeInt cs then .int
  else if s == "<<" then .merge
  else if looksLikeNull s then .null
  else if looksLikeTime cs then .time
  else if s == "=" then .default
  else if ["!", "&", "*"].contains s then .other
  else .text

/-- The tag of a text by its form. A line feed behind a word does not count. -/
def Tag.ofPlain (s : String) : Tag :=
  if s == "\n" then .text else .ofWord (String.ofList (dropLastFeed s.toList))

/-- A text with a lone surrogate has the form of nothing else. -/
def Tag.ofText : Text.AnyText → Tag
  | .whole s => ofPlain s
  | .torn _ => .text

end FeedOutline.Yaml
