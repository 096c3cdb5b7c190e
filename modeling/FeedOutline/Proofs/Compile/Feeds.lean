import FeedOutline.Proofs.Compile.Ignored
import FeedOutline.Proofs.Opml.Admitted
import FeedOutline.Proofs.Opml.RoundTrip
import FeedOutline.Proofs.Outline.Declared

/-!
The feeds of a compiled table. Whatever the documents are, each feed has a title and tags as a heading can
give them, and neither of the two is lost when the rules of one feed are put together.
-/
namespace FeedOutline

open Outline (Node parse walkAll)
open Text

namespace Selection

variable {s : Selection} {texts : List String} {r : SubscriptionRule}

theorem mem_tags_of_selects {h : Node} {tags : List String} (hselects : s.Selects texts h tags) :
    ∀ t ∈ tags, isTag t.toList = true ∧ t ≠ s.marker := by
  obtain ⟨text, -, root, hroot, -, path, hpath, rfl⟩ := hselects
  intro t ht
  obtain ⟨⟨n, hn, htag⟩, hne⟩ := mem_pathTags_iff.1 ht
  exact ⟨Outline.isTag_of_mem_parse (Outline.mem_walkAll_of_leads hroot hpath n hn) t htag, hne⟩

theorem isBreak_of_selects {h : Node} {tags : List String} (hselects : s.Selects texts h tags) :
    ∀ c ∈ h.text.toList, isBreak c = false := by
  obtain ⟨text, -, root, hroot, -, path, hpath, -⟩ := hselects
  have hh : h ∈ path := List.mem_of_getLast? hpath.getLast?_eq
  exact Outline.isBreak_of_mem_parse (Outline.mem_walkAll_of_leads hroot hpath h hh)

theorem admitted_of_mem (hr : r ∈ (s.compileTexts texts).subscriptionRules) : r.Admitted := by
  obtain ⟨h, tags, hselects, hrule⟩ := mem_subscriptionRules_iff.1 hr
  refine ⟨SubscriptionRule.make_eq_ok_iff.2 ⟨rfl, hrule.url_ne, hrule.no_blank⟩, hrule.names.bracket,
    fun t ht => ?_, fun t ht => ?_⟩
  · obtain ⟨hne, htrim, -⟩ := hrule.names.of_title t ht
    have hshown : t.toList <:+: h.text.toList := (hrule.names.title_infix t ht).trans (trim_infix_self _)
    exact ⟨hne, htrim, fun c hc => isBreak_of_selects hselects c (hshown.subset hc)⟩
  · exact (mem_tags_of_selects hselects t ((hrule.mem_tags t).1 ht)).1

theorem mentioned_of_mem (hr : r ∈ (s.compileTexts texts).subscriptionRules) :
    r.Mentioned s.keywords := by
  obtain ⟨h, tags, -, hrule⟩ := mem_subscriptionRules_iff.1 hr
  have hmentions : Mentions s.keywords (trim h.text.toList) := mentions_trim_iff.2 hrule.relevant
  intro t ht
  rcases hrule.names.mentions_iff.1 hmentions with hurl | ⟨t', ht', htitle⟩
  · exact .inl hurl
  · exact .inr (Option.mem_unique ht' ht ▸ htitle)

theorem admitted_feeds (hr : r ∈ (s.compileTexts texts).feeds) : r.Admitted := by
  obtain ⟨⟨r', hr', hurl⟩, htitle, htags⟩ := RuleTable.exists_of_mem_feeds hr
  have hadmitted := admitted_of_mem hr'
  have hshown : ∀ t ∈ r.title, ∃ r'' ∈ (s.compileTexts texts).subscriptionRules,
      r''.feedUrl = r.feedUrl ∧ r''.title = some t := by
    intro t ht
    rw [htitle] at ht
    obtain ⟨r'', hr'', hurl'', htitle'', -⟩ := RuleTable.exists_of_lookup_titles ht
    exact ⟨r'', hr'', hurl'', htitle''⟩
  refine ⟨SubscriptionRule.make_eq_ok_iff.2 ⟨rfl, hurl ▸ hadmitted.url_ne, hurl ▸ hadmitted.no_blank⟩,
    fun hmem => ⟨hurl ▸ (hadmitted.bracket (hurl ▸ hmem)).1, ?_⟩, fun t ht => ?_, fun t ht => ?_⟩
  · rw [Option.eq_none_iff_forall_ne_some]
    intro t ht
    obtain ⟨r'', hr'', hurl'', htitle''⟩ := hshown t ht
    have hnone := ((admitted_of_mem hr'').bracket (hurl'' ▸ hmem)).2
    rw [htitle''] at hnone
    cases hnone
  · obtain ⟨r'', hr'', -, htitle''⟩ := hshown t ht
    exact (admitted_of_mem hr'').title t htitle''
  · obtain ⟨r'', hr'', -, htag⟩ := (htags t).1 ht
    exact (admitted_of_mem hr'').tag t htag

theorem mentioned_feeds (hr : r ∈ (s.compileTexts texts).feeds) : r.Mentioned s.keywords := by
  intro t ht
  rw [(RuleTable.exists_of_mem_feeds hr).2.1] at ht
  obtain ⟨r'', hr'', hurl, htitle, -⟩ := RuleTable.exists_of_lookup_titles ht
  rw [← hurl]
  exact mentioned_of_mem hr'' t htitle

/-! With an empty marker nothing is marked. -/

theorem treesOf_eq_nil (hmarker : s.marker = "") (text : String) : s.treesOf text = [] := by
  rw [treesOf, Outline.marked, List.filter_eq_nil_iff]
  intro n hn
  rw [isMarked_iff]
  rintro (htag | hid)
  · exact absurd (Outline.isTag_of_mem_parse hn _ htag) (by simp [hmarker, isTag])
  · exact Outline.id_ne_of_mem_parse hn (hmarker ▸ hid)

theorem subscriptionRules_eq_nil (hmarker : s.marker = "") (texts : List String) :
    (s.compileTexts texts).subscriptionRules = [] := by
  have htrees : texts.flatMap s.treesOf = [] := by
    simp [List.flatMap_eq_nil_iff, treesOf_eq_nil hmarker]
  rw [compileTexts, htrees]
  rfl

end Selection

end FeedOutline
