import FeedOutline.Classified
import FeedOutline.Ledger
import FeedOutline.Rule

/-!
Rule tables: the rules of one compilation in order, and their views by feed.
-/
namespace FeedOutline

structure RuleTable where
  keywordRules : List KeywordRule := []
  subscriptionRules : List SubscriptionRule := []
  deriving DecidableEq, Inhabited

namespace RuleTable

def empty : RuleTable := {}

def ruleCount (t : RuleTable) : Nat :=
  t.keywordRules.length + t.subscriptionRules.length

def isEmpty (t : RuleTable) : Bool :=
  t.ruleCount == 0

abbrev FeedIndex := List (String × List SubscriptionRule)

def FeedIndex.add (r : SubscriptionRule) (index : FeedIndex) : FeedIndex :=
  upsert r.feedUrl (fun rules => rules.getD [] ++ [r]) index

def feedIndex (t : RuleTable) : FeedIndex :=
  t.subscriptionRules.foldl (fun index r => index.add r) []

def feedUrls (t : RuleTable) : List String :=
  t.feedIndex.map (·.1)

def subscriptionsFor (t : RuleTable) (url : String) : List SubscriptionRule :=
  (t.feedIndex.lookup url).getD []

/-- Display titles by feed. A feed's place is that of its first titled rule, its title that of the
last. -/
abbrev Titles := List (String × String)

def Titles.give (url title : String) (titles : Titles) : Titles :=
  upsert url (fun _ => title) titles

def titles (t : RuleTable) : Titles :=
  t.subscriptionRules.foldl (fun titles r =>
    match r.title with
    | some title => if title.isEmpty then titles else Titles.give r.feedUrl title titles
    | none => titles) []

def keywordRulesFor (classified : List Classified) (k : Keyword) : List KeywordRule :=
  classified.filterMap fun
    | .filter f =>
      if f.keyword = k then (KeywordRule.make (.keyword k) f.value (.ofList f.tags)).toOption else none
    | .subscription _ => none

/-- One rule for each classified heading that makes a valid one. Keyword rules are grouped by keyword,
in the order of the keywords. -/
def build (keywords : List Keyword) (classified : List Classified) : RuleTable where
  keywordRules := keywords.flatMap (keywordRulesFor classified)
  subscriptionRules := classified.filterMap fun
    | .filter _ => none
    | .subscription s => (SubscriptionRule.make s.url (.ofList s.tags) s.title).toOption

end RuleTable

end FeedOutline
