import FeedOutline.Proofs.Entry
import FeedOutline.Proofs.Grouping
import FeedOutline.Proofs.LastGives
import FeedOutline.Proofs.Opml.Items

/-!
The views of a rule table side by side. The feeds, the rules of each, the titles and the written list are made
from the subscription rules independently of each other, and they agree.
-/
namespace FeedOutline

open Markup (Node)
open Text (joined)

namespace RuleTable

variable {t : RuleTable} {url title : String}

theorem subscriptionsFor_ne_nil_iff : t.subscriptionsFor url ≠ [] ↔ url ∈ t.feedUrls := by
  rw [subscriptionsFor_eq, feedUrls_eq]
  constructor
  · exact fun hne => by_contra fun h => hne (rulesOf_eq_nil h)
  · intro h
    obtain ⟨r, hr⟩ := mem_urlsOf.1 h
    exact List.ne_nil_of_mem (mem_rulesOf.2 hr)

theorem flatMap_subscriptionsFor_perm (t : RuleTable) :
    (t.feedUrls.flatMap t.subscriptionsFor).Perm t.subscriptionRules := by
  have hgroups : t.feedUrls.flatMap t.subscriptionsFor =
      groups (·.feedUrl) t.feedUrls t.subscriptionRules := by
    rw [groups]
    exact List.flatMap_congr fun url _ => t.subscriptionsFor_eq url
  rw [hgroups, feedUrls_eq]
  exact groups_perm (nodup_urlsOf _) fun r hr => mem_urlsOf.2 ⟨r, hr, rfl⟩

def Titles.GivenBy (r : SubscriptionRule) (title : String) : Prop :=
  r.title = some title ∧ title ≠ ""

theorem Titles.givenBy_iff {r : SubscriptionRule} :
    GivenBy r title ↔ r.shownTitle? = some title := by
  simp [GivenBy, SubscriptionRule.shownTitle?, Option.filter_eq_some_iff]

theorem lookup_titles_eq_some_iff :
    t.titles.lookup url = some title ↔ LastGives Titles.GivenBy (t.subscriptionsFor url) title := by
  have hgiven : ∀ r title, Titles.GivenBy r title ↔ r.shownTitle? = some title :=
    fun _ _ => Titles.givenBy_iff
  rw [lookup_titles, subscriptionsFor_eq, LastGives.iff_getLast? hgiven]

end RuleTable

namespace Opml

/-- The element tells what the table says of the feed. -/
structure Shows (t : RuleTable) (url : String) (n : Node) : Prop where
  outline : n.hasName "outline" = true
  xmlUrl : n.attribute? "xmlUrl" = some url
  title : n.attribute? "title" = some ((t.titles.lookup url).getD url)
  text : n.attribute? "text" = some ((t.titles.lookup url).getD url)
  category : ∃ tags : List String, tags.Pairwise (· < ·) ∧
    (∀ tag, tag ∈ tags ↔ ∃ r ∈ t.subscriptionsFor url, tag ∈ r.addTags) ∧
    n.attribute? "category" = if tags = [] then none else some (joined "," tags)

theorem category_feedNode (url : String) (title : Option String) (tags : TagSet) :
    (feedNode url title tags).attribute? "category" =
      if tags.toList = [] then none else some (joined "," tags.toList) := by
  simp only [feedNode, TagSet.isEmpty, List.isEmpty_iff]
  split <;> rfl

theorem shows_feedNode (t : RuleTable) (url : String) :
    Shows t url (feedNode url (t.titles.lookup url) (tagsOf (rulesOf t.subscriptionRules url))) := by
  refine ⟨rfl, rfl, rfl, rfl, _, (tagsOf (rulesOf t.subscriptionRules url)).sorted, fun tag => ?_,
    category_feedNode _ _ _⟩
  rw [RuleTable.subscriptionsFor_eq]
  exact mem_tagsOf

theorem forall₂_shows_feedNodes (t : RuleTable) : List.Forall₂ (Shows t) t.feedUrls (feedNodes t) := by
  rw [RuleTable.feedUrls_eq, feedNodes, tagsByFeed_eq, List.map_map, List.forall₂_map_right_iff,
    List.forall₂_same]
  exact fun url _ => shows_feedNode t url

end Opml

/-- The feeds are those of the rules, each where it comes first; each has its rules in order, and together they
have every rule once; the last of its titles is shown; and the list has one element for each feed, in the same
order, with its tags and its title. -/
theorem RuleTable.views_agree (t : RuleTable) :
    (t.feedUrls.Nodup ∧ t.feedUrls = (t.subscriptionRules.map (·.feedUrl)).eraseDups) ∧
      (∀ url, t.subscriptionsFor url = t.subscriptionRules.filter (·.feedUrl = url) ∧
        (t.subscriptionsFor url ≠ [] ↔ url ∈ t.feedUrls)) ∧
      (t.feedUrls.flatMap t.subscriptionsFor).Perm t.subscriptionRules ∧
      (t.titles.map (·.1)).Nodup ∧
      (∀ url title, t.titles.lookup url = some title ↔
        LastGives Titles.GivenBy (t.subscriptionsFor url) title) ∧
      ∀ top, ∃ body, (Opml.rootNode t top).childrenNamed "body" = [body] ∧
        List.Forall₂ (Opml.Shows t) t.feedUrls body.children := by
  refine ⟨⟨feedUrls_eq t ▸ nodup_urlsOf _, feedUrls_eq t⟩,
    fun url => ⟨subscriptionsFor_eq t url, subscriptionsFor_ne_nil_iff⟩,
    flatMap_subscriptionsFor_perm t, nodup_titles t, fun _ _ => lookup_titles_eq_some_iff, fun top => ?_⟩
  exact ⟨_, rfl, Opml.forall₂_shows_feedNodes t⟩

example :
    let old : SubscriptionRule := ⟨"http://a.example", .ofList ["x"], some "Old"⟩
    let other : SubscriptionRule := ⟨"http://b.example", .empty, some ""⟩
    let new : SubscriptionRule := ⟨"http://a.example", .ofList ["w", "x"], some "New"⟩
    let t : RuleTable := ⟨[], [old, other, new]⟩
    t.feedUrls = ["http://a.example", "http://b.example"] ∧
      t.subscriptionsFor "http://a.example" = [old, new] ∧ t.titles = [("http://a.example", "New")] ∧
      (Opml.feedNodes t).map (·.attribute? "category") = [some "w,x", none] := by
  decide +kernel

end FeedOutline
