import FeedOutline.Data.Value
import FeedOutline.Keyword
import FeedOutline.TagSet
import FeedOutline.Text.Blank

/-!
Rules that tag entries, and when a rule is refused.
-/
namespace FeedOutline

open Text
open Data (Value)

structure KeywordRule where
  field : Keyword
  value : String
  addTags : TagSet := .empty
  deriving DecidableEq, Inhabited

/-- Adds tags to every entry of one feed and may give the feed a title. -/
structure SubscriptionRule where
  feedUrl : String
  addTags : TagSet := .empty
  title : Option String := none
  deriving DecidableEq, Inhabited

inductive Rule where
  | keyword (r : KeywordRule)
  | subscription (r : SubscriptionRule)
  deriving DecidableEq, Inhabited

inductive RuleError where
  | notKeyword (field : Value)
  | emptyValue (field : Keyword)
  | emptyUrl
  | blankInUrl (url : String)
  deriving Repr, BEq, Inhabited

def RuleError.message : RuleError → String
  | notKeyword field => "Rule field must be a Keyword, got " ++ field.kindName
  | emptyValue field => "Rule value for '" ++ field.name ++ "' cannot be empty"
  | emptyUrl => "Subscription URL cannot be empty"
  | blankInUrl url => "Subscription URL cannot contain whitespace: '" ++ url ++ "'"

inductive RuleField where
  | keyword (k : Keyword)
  | other (v : Value)
  deriving Repr, BEq, Inhabited

def KeywordRule.make (field : RuleField) (value : String) (addTags : TagSet) :
    Except RuleError KeywordRule :=
  match field with
  | .other v => .error (.notKeyword v)
  | .keyword k => if isBlankString value then .error (.emptyValue k) else .ok ⟨k, value, addTags⟩

def SubscriptionRule.make (feedUrl : String) (addTags : TagSet) (title : Option String) :
    Except RuleError SubscriptionRule :=
  if isBlankString feedUrl then .error .emptyUrl
  else if feedUrl.toList.any isBlank then .error (.blankInUrl feedUrl)
  else .ok ⟨feedUrl, addTags, title⟩

end FeedOutline
