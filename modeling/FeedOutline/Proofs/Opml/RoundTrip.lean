import FeedOutline.Proofs.Compile.Documents
import FeedOutline.Proofs.Opml.Rules
import FeedOutline.Proofs.RuleTable.Feeds

/-!
The round trip of a table. Its subscription list is read into an outline whose table has the same feeds
with the same tags and titles, and one rule for each.
-/
namespace FeedOutline

open Compile (Stores table)
open Disk (FileTree)
open Text

namespace RuleTable

variable {t : RuleTable} {r : SubscriptionRule} {url title tag : String}

def feed (t : RuleTable) (url : String) : SubscriptionRule :=
  ⟨url, Opml.tagsOf (rulesOf t.subscriptionRules url), t.titles.lookup url⟩

theorem feeds_eq (t : RuleTable) : t.feeds = (urlsOf t.subscriptionRules).map t.feed := by
  rw [feeds, feedIndex_eq, List.map_map]
  rfl

theorem map_feedUrl_feeds (t : RuleTable) : t.feeds.map (·.feedUrl) = urlsOf t.subscriptionRules := by
  rw [feeds_eq, List.map_map]
  exact List.map_id _

theorem nodup_feeds (t : RuleTable) : (t.feeds.map (·.feedUrl)).Nodup := by
  rw [map_feedUrl_feeds]
  exact nodup_urlsOf _

theorem exists_of_mem_feeds (h : r ∈ t.feeds) :
    (∃ r' ∈ t.subscriptionRules, r'.feedUrl = r.feedUrl) ∧ r.title = t.titles.lookup r.feedUrl ∧
      ∀ tag, tag ∈ r.addTags ↔ ∃ r' ∈ t.subscriptionRules, r'.feedUrl = r.feedUrl ∧ tag ∈ r'.addTags := by
  rw [feeds_eq] at h
  obtain ⟨url, hurl, rfl⟩ := List.mem_map.1 h
  refine ⟨mem_urlsOf.1 hurl, rfl, fun tag => ?_⟩
  have htag : tag ∈ Opml.tagsOf (rulesOf t.subscriptionRules url) ↔
      ∃ r' ∈ t.subscriptionRules, r'.feedUrl = url ∧ tag ∈ r'.addTags := by
    simp only [Opml.mem_tagsOf, mem_rulesOf, and_assoc]
  exact htag

theorem mem_feedUrl_feeds_iff :
    (∃ r ∈ t.feeds, r.feedUrl = url) ↔ ∃ r ∈ t.subscriptionRules, r.feedUrl = url := by
  rw [← mem_urlsOf, ← mem_urlsOf, urlsOf, List.mem_eraseDups, map_feedUrl_feeds]

theorem not_mem_feeds (h : ∀ r ∈ t.subscriptionRules, tag ∉ r.addTags) :
    ∀ r ∈ t.feeds, tag ∉ r.addTags := by
  intro r hr hmem
  obtain ⟨r', hr', -, hmem'⟩ := ((exists_of_mem_feeds hr).2.2 tag).1 hmem
  exact h r' hr' hmem'

theorem exists_of_lookup_titles (h : t.titles.lookup url = some title) :
    ∃ r ∈ t.subscriptionRules, r.feedUrl = url ∧ r.title = some title ∧ title.isEmpty = false := by
  rw [lookup_titles] at h
  obtain ⟨r, hr, hshown⟩ := List.mem_filterMap.1 (List.mem_of_getLast? h)
  obtain ⟨hmem, hurl⟩ := mem_rulesOf.1 hr
  rw [SubscriptionRule.shownTitle?, Option.filter_eq_some_iff] at hshown
  exact ⟨r, hmem, hurl, hshown.1, by simpa using hshown.2⟩

theorem portable_feeds (h : ∀ r ∈ t.subscriptionRules, r.Portable) : ∀ r ∈ t.feeds, r.Portable := by
  intro r hr
  obtain ⟨⟨r', hr', hurl⟩, htitle, htags⟩ := exists_of_mem_feeds hr
  have hportable := h r' hr'
  obtain ⟨-, hne, hblank⟩ := SubscriptionRule.make_eq_ok_iff.1 hportable.made
  rw [hurl] at hne hblank
  refine ⟨SubscriptionRule.make_eq_ok_iff.2 ⟨rfl, hne, hblank⟩, hurl ▸ hportable.starts,
    hurl ▸ hportable.no_bracket, hurl ▸ hportable.legal, ?_, ?_⟩
  · intro title htitle'
    rw [htitle] at htitle'
    obtain ⟨r'', hr'', hurl'', htitle'', -⟩ := exists_of_lookup_titles htitle'
    exact hurl'' ▸ (h r'' hr'').title title htitle''
  · intro tag htag
    obtain ⟨r'', hr'', -, htag''⟩ := (htags tag).1 htag
    exact (h r'' hr'').tag tag htag''

theorem rulesOf_feeds_of_mem (h : url ∈ urlsOf t.subscriptionRules) :
    rulesOf t.feeds url = [t.feed url] := by
  rw [rulesOf, feeds_eq, List.filter_map]
  exact congrArg (List.map t.feed) (filter_urlsOf h)

theorem shownTitle?_feed (t : RuleTable) (url : String) :
    (t.feed url).shownTitle? = t.titles.lookup url := by
  rw [SubscriptionRule.shownTitle?, feed]
  cases h : t.titles.lookup url with
  | none => rfl
  | some title =>
    obtain ⟨-, -, -, -, hne⟩ := exists_of_lookup_titles h
    simp [Option.filter_some, hne]

theorem lookup_titles_feeds (keywordRules : List KeywordRule) (t : RuleTable) (url : String) :
    (titles ⟨keywordRules, t.feeds⟩).lookup url = t.titles.lookup url := by
  rw [lookup_titles]
  dsimp only
  by_cases h : url ∈ urlsOf t.subscriptionRules
  · rw [rulesOf_feeds_of_mem h, List.filterMap_cons, shownTitle?_feed]
    cases t.titles.lookup url <;> rfl
  · have hfeeds : url ∉ urlsOf t.feeds := by
      rwa [urlsOf, map_feedUrl_feeds, List.mem_eraseDups]
    rw [lookup_titles, rulesOf_eq_nil h, rulesOf_eq_nil hfeeds]

theorem feedUrls_feeds (keywordRules : List KeywordRule) (t : RuleTable) :
    feedUrls ⟨keywordRules, t.feeds⟩ = t.feedUrls := by
  rw [feedUrls_eq, feedUrls_eq, urlsOf, eraseDups_eq_self t.nodup_feeds, map_feedUrl_feeds]

end RuleTable

namespace Opml

theorem toOutline_ofTable {t : RuleTable} (h : ∀ r ∈ t.feeds, r.Admitted ∧ r.Legal)
    (marker top : String) :
    toOutline (ofTable t defaultTitle) marker top =
      .ok (outlineOf marker top (t.feeds.map feedItem)) := by
  have htitle : ∀ c ∈ defaultTitle.toList, Markup.isLegal c = true ∧ c ≠ '\r' := by decide
  rw [toOutline, readItems_ofTable h htitle]
  rfl

theorem isHeadingText_default : IsHeadingText "Imported feeds".toList := by
  constructor
  · constructor <;> decide
  · decide
  · decide
  · decide

theorem http_not_infix_default : ¬ "http".toList <:+: "Imported feeds".toList := by
  rw [← contains_iff]
  decide

theorem name_not_infix_default (k : Keyword) : ¬ k.name.toList <:+: "Imported feeds".toList := by
  rw [← contains_iff]
  cases k <;> decide

theorem not_mentions_default (keywords : List Keyword) : ¬ Mentions keywords "Imported feeds".toList :=
  fun h => h.elim http_not_infix_default fun ⟨k, _, hname⟩ => name_not_infix_default k hname

/-- The list of a table is read into an outline whose table has the same feeds, in the same order, with
the same tags and titles, and one rule for each. -/
theorem compile_toOutline_ofTable {t : RuleTable} {s : Selection}
    (hmarker : isTag s.marker.toList = true)
    (h : ∀ r ∈ t.subscriptionRules, r.Portable ∧ s.marker ∉ r.addTags ∧ s.ignoreTag ∉ r.addTags) :
    ∃ outline, toOutline (ofTable t defaultTitle) s.marker "Imported feeds" = .ok outline ∧
      ∀ env files document, Stores env files document outline →
        ∃ t', table s env files [document] = .ok t' ∧ t'.keywordRules = [] ∧
          (t'.subscriptionRules.map (·.feedUrl)).Nodup ∧ t'.feedUrls = t.feedUrls ∧
          (∀ url, (∃ r' ∈ t'.subscriptionRules, r'.feedUrl = url) ↔
            ∃ r ∈ t.subscriptionRules, r.feedUrl = url) ∧
          (∀ r' ∈ t'.subscriptionRules, ∀ tag, tag ∈ r'.addTags ↔
            ∃ r ∈ t.subscriptionRules, r.feedUrl = r'.feedUrl ∧ tag ∈ r.addTags) ∧
          ∀ url, t'.titles.lookup url = t.titles.lookup url := by
  have hportable : ∀ r ∈ t.subscriptionRules, r.Portable := fun r hr => (h r hr).1
  have hfeeds : ∀ r ∈ t.feeds, r.Admitted ∧ r.Legal := by
    intro r hr
    have hr' := RuleTable.portable_feeds hportable r hr
    exact ⟨hr'.admitted, hr'.isLegal⟩
  have hmarked : ∀ r ∈ t.feeds, s.marker ∉ r.addTags :=
    RuleTable.not_mem_feeds fun r hr => (h r hr).2.1
  have hignored : ∀ r ∈ t.feeds, s.ignoreTag ∉ r.addTags :=
    RuleTable.not_mem_feeds fun r hr => (h r hr).2.2
  have hcompile := Selection.compileTexts_outlineOf (RuleTable.portable_feeds hportable)
    isHeadingText_default http_not_infix_default (fun k _ => name_not_infix_default k) hmarker hmarked
    hignored t.nodup_feeds
  refine ⟨_, toOutline_ofTable hfeeds _ _, fun env files document hstores => ?_⟩
  have hreturn := return_not_mem_outlineOf (RuleTable.portable_feeds hportable) isHeadingText_default
    hmarker
  have htable := Compile.table_eq s (.cons (hstores.holds hreturn) .nil)
  rw [hcompile] at htable
  exact ⟨_, htable, rfl, t.nodup_feeds, RuleTable.feedUrls_feeds [] t,
    fun _ => RuleTable.mem_feedUrl_feeds_iff, fun _ hr => (RuleTable.exists_of_mem_feeds hr).2.2,
    RuleTable.lookup_titles_feeds [] t⟩

theorem compile_toOutline_ofTable_of_repeated :
    let first : SubscriptionRule :=
      ⟨"http://a.example/?x=1&y=2", .ofList ["news", "c#"], some "A <\"b\">"⟩
    let second : SubscriptionRule := ⟨"https://b.example", .empty, none⟩
    let third : SubscriptionRule :=
      ⟨"http://a.example/?x=1&y=2", .ofList ["old", "news"], some "Ü :a:"⟩
    let t : RuleTable := ⟨[⟨.entryTitle, "Lean", .ofList ["lean"]⟩], [first, second, third]⟩
    let s : Selection := {}
    isTag s.marker.toList = true ∧
      (∀ r ∈ t.subscriptionRules, r.Portable ∧ s.marker ∉ r.addTags ∧ s.ignoreTag ∉ r.addTags) ∧
      ∃ outline, toOutline (ofTable t defaultTitle) s.marker "Imported feeds" = .ok outline ∧
        let files : FileTree := { entries := [(["a.org"], .file (encodeUtf8 outline))] }
        Stores {} files "a.org" outline ∧
          ∃ t', table s {} files ["a.org"] = .ok t' ∧ t'.keywordRules = [] ∧
            (t'.subscriptionRules.map (·.feedUrl)).Nodup ∧
            t'.feedUrls = ["http://a.example/?x=1&y=2", "https://b.example"] ∧
            (∀ r ∈ t'.subscriptionRules, r.feedUrl = "http://a.example/?x=1&y=2" →
              r.addTags = .ofList ["news", "old", "c#"]) ∧
            t'.titles.lookup "http://a.example/?x=1&y=2" = some "Ü :a:" ∧
            t'.titles.lookup "https://b.example" = none := by
  intro first second third t s
  have hmarker : isTag s.marker.toList = true := by decide
  have h : ∀ r ∈ t.subscriptionRules, r.Portable ∧ s.marker ∉ r.addTags ∧ s.ignoreTag ∉ r.addTags := by
    decide +kernel
  obtain ⟨outline, houtline, hcompile⟩ := compile_toOutline_ofTable hmarker h
  let files : FileTree := { entries := [(["a.org"], .file (encodeUtf8 outline))] }
  have hstores : Stores {} files "a.org" outline := ⟨_, rfl, rfl⟩
  obtain ⟨t', ht', hkeyword, hnodup, hurls, -, htags, htitles⟩ := hcompile {} files "a.org" hstores
  refine ⟨hmarker, h, outline, houtline, hstores, t', ht', hkeyword, hnodup, ?_, ?_, ?_, ?_⟩
  · rw [hurls]
    decide +kernel
  · intro r hr hurl
    have hunion : r.addTags = tagsOf (rulesOf t.subscriptionRules "http://a.example/?x=1&y=2") := by
      refine TagSet.ext fun tag => ?_
      rw [htags r hr tag, hurl, mem_tagsOf]
      simp only [mem_rulesOf, and_assoc]
    rw [hunion]
    decide +kernel
  · rw [htitles]
    decide +kernel
  · rw [htitles]
    decide +kernel

end Opml

end FeedOutline
