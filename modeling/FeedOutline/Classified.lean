import FeedOutline.Flat
import FeedOutline.Keyword
import FeedOutline.Link
import FeedOutline.Text.Split

/-!
What a flattened heading stands for: a filter on a keyword, a subscription to a feed, or nothing.
-/
namespace FeedOutline

open Text

structure KeywordFilter where
  keyword : Keyword
  value : String
  tags : List String := []
  deriving Repr, BEq, DecidableEq, Inhabited

structure Subscription where
  url : String
  tags : List String := []
  title : Option String := none
  deriving Repr, BEq, DecidableEq, Inhabited

inductive Classified where
  | filter (f : KeywordFilter)
  | subscription (s : Subscription)
  deriving Repr, BEq, DecidableEq, Inhabited

namespace FlatEntry

/-- A heading that mentions a web address or a keyword and is not ignored. -/
def isRelevant (ignoreTag : String) (keywords : List Keyword) (e : FlatEntry) : Bool :=
  !e.tags.contains ignoreTag &&
    (containsString "http" e.heading || keywords.any fun k => containsString k.name e.heading)

def keywordValue? (keywords : List Keyword) (e : FlatEntry) : Option (Keyword × List Char) :=
  keywords.findSome? fun k =>
    (afterStart? (k.name ++ ":").toList e.heading.toList).map fun rest => (k, trim rest)

def subscription? (e : FlatEntry) : Option Subscription :=
  let heading := trim e.heading.toList
  if "http".toList.isPrefixOf heading then some ⟨String.ofList heading, e.tags, none⟩
  else (Link.ofText? heading).map fun l => ⟨l.url, e.tags, l.title⟩

/-- A keyword without a value is dropped and not read as an address. -/
def classify? (keywords : List Keyword) (e : FlatEntry) : Option Classified :=
  match e.keywordValue? keywords with
  | some (k, value) =>
    if value.isEmpty then none else some (.filter ⟨k, String.ofList value, e.tags⟩)
  | none => e.subscription?.map .subscription

end FlatEntry

def relevant (ignoreTag : String) (keywords : List Keyword) (entries : List FlatEntry) :
    List FlatEntry :=
  entries.filter (·.isRelevant ignoreTag keywords)

def classify (ignoreTag : String) (keywords : List Keyword) (entries : List FlatEntry) :
    List Classified :=
  (relevant ignoreTag keywords entries).filterMap (·.classify? keywords)

end FeedOutline
