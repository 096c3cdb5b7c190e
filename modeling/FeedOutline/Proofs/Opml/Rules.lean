import FeedOutline.Compile
import FeedOutline.Proofs.Flat.Inheritance
import FeedOutline.Proofs.Opml.Headings

/-!
Compiling the outline of a subscription list. Every feed makes the rule that it was written for, and the
heading above the feeds makes none.
-/
namespace FeedOutline

open Opml (IsHeadingText outlineOf feedItem feedTree feedTree_eq level_feeds parse_outlineOf)
open Outline (Node walkAll)
open Text

namespace SubscriptionRule

def entry (r : SubscriptionRule) : FlatEntry :=
  ⟨r.heading, r.addTags.toList⟩

variable {r r' : SubscriptionRule}

theorem Portable.names_trim (h : r.Portable) : NamesFeed (trim r.heading.toList) r.feedUrl r.title := by
  have htrim : trim r.heading.toList = r.heading.toList := h.isHeadingText.trimmed.trimmed_eq
  rw [htrim]
  exact h.names

theorem Portable.subscription?_entry (h : r.Portable) :
    r.entry.subscription? = some ⟨r.feedUrl, r.addTags.toList, r.title⟩ :=
  FlatEntry.subscription?_eq_some_iff.2 ⟨h.names_trim, rfl⟩

theorem Portable.classify?_entry (h : r.Portable) (keywords : List Keyword) :
    r.entry.classify? keywords = some (.subscription ⟨r.feedUrl, r.addTags.toList, r.title⟩) := by
  have hkeyword : r.entry.keywordValue? keywords = none :=
    FlatEntry.keywordValue?_eq_none_iff.2 fun k _ => h.feedText.no_keyword k
  rw [FlatEntry.classify?, hkeyword, h.subscription?_entry]
  rfl

theorem Portable.isRelevant_entry (h : r.Portable) {ignoreTag : String} (hignore : ignoreTag ∉ r.addTags)
    (keywords : List Keyword) : r.entry.isRelevant ignoreTag keywords = true :=
  FlatEntry.isRelevant_iff.2 ⟨hignore, .inl h.http_infix_heading⟩

theorem Portable.feedUrl_eq (h : r.Portable) (h' : r'.Portable) (heq : r.heading = r'.heading) :
    r.feedUrl = r'.feedUrl := by
  have hread : r.entry.subscription? = some ⟨r'.feedUrl, r.addTags.toList, r'.title⟩ := by
    refine FlatEntry.subscription?_eq_some_iff.2 ⟨?_, rfl⟩
    rw [entry, heq]
    exact h'.names_trim
  rw [h.subscription?_entry, Option.some.injEq, Subscription.mk.injEq] at hread
  exact hread.1

end SubscriptionRule

namespace Selection

variable {s : Selection} {rs : List SubscriptionRule} {top : String}

theorem treesOf_outlineOf (h : ∀ r ∈ rs, r.Portable) (htop : IsHeadingText top.toList)
    (hmarker : isTag s.marker.toList = true) (hmarked : ∀ r ∈ rs, s.marker ∉ r.addTags) :
    s.treesOf (outlineOf s.marker top (rs.map feedItem)) = [feedTree s.marker top rs] := by
  have hroot : (feedTree s.marker top rs).isMarked s.marker = true := by simp [feedTree, Node.isMarked]
  have hfeeds : (rs.map SubscriptionRule.node).filter (·.isMarked s.marker) = [] := by
    simpa [SubscriptionRule.node, Node.isMarked, TagSet.mem_def] using hmarked
  have hwalk : walkAll [feedTree s.marker top rs] = feedTree s.marker top rs :: rs.map SubscriptionRule.node := by
    rw [feedTree_eq, Outline.walkAll_over, List.map_map]
    rfl
  rw [treesOf, parse_outlineOf h htop hmarker, Outline.marked, hwalk, List.filter_cons_of_pos hroot, hfeeds]

theorem dedupe_eq_self {entries : List FlatEntry} (h : (entries.map (·.heading)).Nodup) :
    dedupe entries = entries :=
  eraseDups_eq_self h.of_map

theorem nodup_headings (h : ∀ r ∈ rs, r.Portable) (htop : ¬ "http".toList <:+: top.toList)
    (hnodup : (rs.map (·.feedUrl)).Nodup) : (top :: rs.map (·.heading)).Nodup := by
  rw [List.nodup_cons]
  constructor
  · intro hmem
    obtain ⟨r, hr, rfl⟩ := List.mem_map.1 hmem
    exact htop (h r hr).http_infix_heading
  · rw [List.Nodup, List.pairwise_map] at hnodup ⊢
    exact hnodup.imp_of_mem fun hr hr' hne heq => hne ((h _ hr).feedUrl_eq (h _ hr') heq)

theorem flattenAll_feedTree (h : ∀ r ∈ rs, r.Portable) (htop : ¬ "http".toList <:+: top.toList)
    (hnodup : (rs.map (·.feedUrl)).Nodup) :
    flattenAll [feedTree s.marker top rs] =
      ⟨top, [s.marker]⟩ :: rs.map fun r => ⟨r.heading, [s.marker] ++ r.addTags.toList⟩ := by
  have hflat : flatten (feedTree s.marker top rs) =
      ⟨top, [s.marker]⟩ :: rs.map fun r => ⟨r.heading, [s.marker] ++ r.addTags.toList⟩ := by
    rw [feedTree_eq, flatten_over Nat.one_lt_two (level_feeds rs), List.map_map]
    rfl
  rw [flattenAll, List.flatMap_singleton, hflat]
  refine dedupe_eq_self ?_
  rw [List.map_cons, List.map_map]
  exact nodup_headings h htop hnodup

theorem withoutTag_entry {r : SubscriptionRule} {marker : String} (h : marker ∉ r.addTags) :
    FlatEntry.withoutTag marker ⟨r.heading, [marker] ++ r.addTags.toList⟩ = r.entry := by
  have htags : r.addTags.toList.filter (· != marker) = r.addTags.toList := by
    rw [List.filter_eq_self]
    intro t ht
    simpa using fun heq : t = marker => h (heq ▸ ht)
  simp [FlatEntry.withoutTag, SubscriptionRule.entry, htags]

theorem entriesOf_feedTree (h : ∀ r ∈ rs, r.Portable) (htop : ¬ "http".toList <:+: top.toList)
    (hmarked : ∀ r ∈ rs, s.marker ∉ r.addTags) (hnodup : (rs.map (·.feedUrl)).Nodup) :
    s.entriesOf [feedTree s.marker top rs] = ⟨top, []⟩ :: rs.map SubscriptionRule.entry := by
  have hcleanup : cleanup s.marker (flattenAll [feedTree s.marker top rs]) =
      ⟨top, []⟩ :: rs.map SubscriptionRule.entry := by
    rw [flattenAll_feedTree h htop hnodup, cleanup, List.map_cons, List.map_map]
    refine List.cons_eq_cons.2 ⟨by simp [FlatEntry.withoutTag], List.map_congr_left fun r hr => ?_⟩
    exact withoutTag_entry (hmarked r hr)
  rw [entriesOf, hcleanup]
  refine dedupe_eq_self ?_
  rw [List.map_cons, List.map_map]
  exact nodup_headings h htop hnodup

/-- The rules of the outline are those that it was written for. -/
theorem compileTexts_outlineOf (h : ∀ r ∈ rs, r.Portable) (htop : IsHeadingText top.toList)
    (hhttp : ¬ "http".toList <:+: top.toList)
    (hkeyword : ∀ k ∈ s.keywords, ¬ k.name.toList <:+: top.toList)
    (hmarker : isTag s.marker.toList = true) (hmarked : ∀ r ∈ rs, s.marker ∉ r.addTags)
    (hignored : ∀ r ∈ rs, s.ignoreTag ∉ r.addTags) (hnodup : (rs.map (·.feedUrl)).Nodup) :
    s.compileTexts [outlineOf s.marker top (rs.map feedItem)] = ⟨[], rs⟩ := by
  have hsilent : ¬ (⟨top, []⟩ : FlatEntry).isRelevant s.ignoreTag s.keywords = true := by
    rw [FlatEntry.isRelevant_iff]
    rintro ⟨-, hinfix | ⟨k, hk, hinfix⟩⟩
    · exact hhttp hinfix
    · exact hkeyword k hk hinfix
  have hrelevant : (rs.map SubscriptionRule.entry).filter (·.isRelevant s.ignoreTag s.keywords) =
      rs.map SubscriptionRule.entry := by
    rw [List.filter_eq_self, List.forall_mem_map]
    exact fun r hr => (h r hr).isRelevant_entry (hignored r hr) s.keywords
  have hclassify : (rs.map SubscriptionRule.entry).filterMap (·.classify? s.keywords) =
      rs.map fun r => .subscription ⟨r.feedUrl, r.addTags.toList, r.title⟩ := by
    rw [List.filterMap_map, ← List.filterMap_eq_map]
    exact List.filterMap_congr fun r hr => (h r hr).classify?_entry s.keywords
  rw [compileTexts, List.flatMap_singleton, treesOf_outlineOf h htop hmarker hmarked,
    entriesOf_feedTree h hhttp hmarked hnodup, tableOf, classify, relevant,
    List.filter_cons_of_neg hsilent, hrelevant, hclassify]
  exact RuleTable.build_subscriptions fun r hr => (h r hr).made

end Selection

end FeedOutline
