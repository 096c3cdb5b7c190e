import FeedOutline.RuleTable
import FeedOutline.Text.Split

/-!
Feed entries, and the tags that a rule table adds to them.
-/
namespace FeedOutline

open Text

structure Entry where
  feedUrl : String
  feedTitle : Option String := none
  feedAuthors : List String := []
  title : Option String := none
  link : Option String := none
  contentType : Option String := none
  enclosures : List String := []
  tags : TagSet := .empty
  deriving DecidableEq, Inhabited

namespace Entry

def valuesFor (e : Entry) (k : Keyword) : List String :=
  let values := match k with
    | .feedTitle => e.feedTitle.toList
    | .feedUrl => [e.feedUrl]
    | .feedAuthor => e.feedAuthors
    | .entryTitle => e.title.toList
    | .entryLink => e.link.toList
    | .entryContentType => e.contentType.toList
    | .entryEnclosure => e.enclosures
  values.filter (!·.isEmpty)

/-- A field with several values matches if one contains the rule's text, any other if its value
begins with it. -/
def matchesRule (e : Entry) (r : KeywordRule) : Bool :=
  if r.field.isMultiValued then (e.valuesFor r.field).any (containsString r.value)
  else (e.valuesFor r.field).any (startsWith r.value)

structure Tagging where
  entry : Entry
  added : TagSet := .empty
  deriving DecidableEq, Inhabited

def Tagging.add (t : Tagging) (tags : TagSet) : Tagging where
  entry := { t.entry with tags := t.entry.tags.union tags }
  added := t.added.union (tags.diff t.entry.tags)

/-- Adds the tags of every matching keyword rule, then those of the feed's subscriptions. -/
def apply (e : Entry) (table : RuleTable) : Tagging :=
  let byKeyword := table.keywordRules.foldl
    (fun t r => if t.entry.matchesRule r then t.add r.addTags else t) ⟨e, .empty⟩
  (table.subscriptionsFor e.feedUrl).foldl (fun t r => t.add r.addTags) byKeyword

end Entry

end FeedOutline
