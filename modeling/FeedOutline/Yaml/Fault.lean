import FeedOutline.Text.Utf8

/-!
What can be wrong with a document.
-/
namespace FeedOutline.Yaml

inductive Fault where
  /-- It holds a character that may not occur. -/
  | unprintable
  /-- Some characters make no token. -/
  | token
  /-- The tokens make no document. -/
  | structural
  /-- An anchor is unknown or used twice, or there are several documents. -/
  | composition
  /-- A value does not fit its tag. -/
  | construction
  /-- Its bytes are no text. -/
  | undecodable (e : Text.DecodeError)
  /-- A number or a time is malformed or out of range. -/
  | outOfRange
  /-- A number has more digits than its kind can hold. -/
  | tooLarge
  /-- A number has no digits. -/
  | noDigits
  /-- A word is neither true nor false. -/
  | noTruth
  /-- A text is no time. -/
  | noTime
  /-- A mapping is no time. -/
  | mappingAsTime
  /-- A value is given by itself. -/
  | endless
  deriving Repr, BEq, DecidableEq, Inhabited

namespace Fault

/-- The faults that a document's reader is asked to report; the others end the program. -/
def isReported : Fault → Bool
  | unprintable | token | structural | composition | construction => true
  | undecodable _ | outOfRange | tooLarge | noDigits | noTruth | noTime | mappingAsTime | endless => false

def message : Fault → String
  | unprintable => "a character that may not occur"
  | token => "no token can begin here"
  | structural => "a token in the wrong place"
  | composition => "an anchor or a second document"
  | construction => "a value that does not fit its tag"
  | undecodable e => e.message
  | outOfRange => "a value out of range"
  | tooLarge => "a number that is too large"
  | noDigits => "a number without digits"
  | noTruth => "a word that is neither true nor false"
  | noTime => "a text that is no time"
  | mappingAsTime => "a mapping that is no time"
  | endless => "a value that is given by itself"

end Fault

end FeedOutline.Yaml
