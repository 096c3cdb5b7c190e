import FeedOutline.Entry
import FeedOutline.Proofs.RuleTable.Feeds
import FeedOutline.Proofs.TagSet

/-!
What an entry is tagged with. Besides its own tags it gets those of every rule that applies to it, and
nothing else about it changes.
-/
namespace FeedOutline

namespace RuleTable

theorem subscriptionsFor_eq (t : RuleTable) (url : String) :
    t.subscriptionsFor url = rulesOf t.subscriptionRules url := by
  rw [subscriptionsFor, feedIndex_eq, lookup_map_keys]
  split
  · rfl
  · next h => rw [rulesOf_eq_nil h, Option.getD_none]

end RuleTable

namespace Entry

/-- A rule of the table that applies to the entry adds the tag. -/
def Gains (e : Entry) (t : RuleTable) (tag : String) : Prop :=
  (∃ r ∈ t.keywordRules, e.matchesRule r = true ∧ tag ∈ r.addTags) ∨
    ∃ r ∈ t.subscriptionRules, r.feedUrl = e.feedUrl ∧ tag ∈ r.addTags

/-- The entry is the one at the start with other tags, namely those of the start and those that
`gained` tells. -/
structure TaggedFrom (e start : Entry) (gained : String → Prop) : Prop where
  entry_eq : ∃ tags, e = { start with tags }
  mem_tags : ∀ tag, tag ∈ e.tags ↔ tag ∈ start.tags ∨ gained tag

variable {e start : Entry} {t : Tagging} {gained gained' : String → Prop}

namespace TaggedFrom

theorem refl (e : Entry) : e.TaggedFrom e fun _ => False :=
  ⟨⟨e.tags, rfl⟩, fun tag => by simp⟩

theorem congr (h : e.TaggedFrom start gained) (heq : ∀ tag, gained tag ↔ gained' tag) :
    e.TaggedFrom start gained' :=
  ⟨h.entry_eq, fun tag => by rw [h.mem_tags, heq]⟩

theorem add (h : t.entry.TaggedFrom start gained) (tags : TagSet) :
    (t.add tags).entry.TaggedFrom start fun tag => gained tag ∨ tag ∈ tags := by
  obtain ⟨old, hold⟩ := h.entry_eq
  constructor
  · exact ⟨old.union tags, by rw [Tagging.add, hold]⟩
  · intro tag
    rw [Tagging.add, TagSet.mem_union, h.mem_tags, or_assoc]

theorem matchesRule (h : e.TaggedFrom start gained) (r : KeywordRule) :
    e.matchesRule r = start.matchesRule r := by
  obtain ⟨tags, rfl⟩ := h.entry_eq
  rfl

theorem feedUrl (h : e.TaggedFrom start gained) : e.feedUrl = start.feedUrl := by
  obtain ⟨tags, rfl⟩ := h.entry_eq
  rfl

theorem foldl_keyword (h : t.entry.TaggedFrom start gained) (rs : List KeywordRule) :
    (rs.foldl (fun t r => if t.entry.matchesRule r then t.add r.addTags else t) t).entry.TaggedFrom start
      fun tag => gained tag ∨ ∃ r ∈ rs, start.matchesRule r = true ∧ tag ∈ r.addTags := by
  induction rs generalizing t gained with
  | nil => exact h.congr fun tag => by simp
  | cons r rs ih =>
    rw [List.foldl_cons, h.matchesRule]
    split
    · next hr => exact (ih (h.add r.addTags)).congr fun tag => by simp [hr, or_assoc]
    · next hr => exact (ih h).congr fun tag => by simp [hr]

theorem foldl_subscription (h : t.entry.TaggedFrom start gained) (rs : List SubscriptionRule) :
    (rs.foldl (fun t r => t.add r.addTags) t).entry.TaggedFrom start
      fun tag => gained tag ∨ ∃ r ∈ rs, tag ∈ r.addTags := by
  induction rs generalizing t gained with
  | nil => exact h.congr fun tag => by simp
  | cons r rs ih => exact (ih (h.add r.addTags)).congr fun tag => by simp [or_assoc]

theorem apply (h : e.TaggedFrom start gained) (table : RuleTable) :
    (e.apply table).entry.TaggedFrom start fun tag => gained tag ∨ start.Gains table tag := by
  have hstart : (Tagging.mk e .empty).entry.TaggedFrom start gained := h
  have hrules := (hstart.foldl_keyword table.keywordRules).foldl_subscription
    (table.subscriptionsFor e.feedUrl)
  refine hrules.congr fun tag => ?_
  rw [RuleTable.subscriptionsFor_eq, h.feedUrl]
  simp only [mem_rulesOf, Gains, and_assoc, or_assoc]

end TaggedFrom

theorem mem_tags_apply {e : Entry} {table : RuleTable} {tag : String} :
    tag ∈ (e.apply table).entry.tags ↔ tag ∈ e.tags ∨ e.Gains table tag := by
  simpa using ((TaggedFrom.refl e).apply table).mem_tags tag

end Entry

end FeedOutline
