import FeedOutline.Proofs.Compile.Feeds
import FeedOutline.Proofs.Compile.Parts
import FeedOutline.Proofs.Compile.Union
import FeedOutline.Proofs.Except
import FeedOutline.Proofs.Opml.Items

/-!
Which feeds come back from the subscription list of a table. The list is read if it holds only what a
document may hold. A feed comes back if its line names it and none of the tags there makes it ignored.
-/
namespace FeedOutline

open Compile (Stores table)
open Disk (FileTree)
open Opml (IsHeadingText outlineOf headingLine linesOf feedItem toOutline ofTable)
open Outline (Heading)
open Text

namespace SubscriptionRule

def lineTags (r : SubscriptionRule) : List String :=
  Outline.writtenTags (r.addTags.toList.map Opml.tagOfName?)

/-- The line of the feed names it, and the tag of ignored headings is not one of the tags there. -/
@[mk_iff] structure Returns (s : Selection) (r : SubscriptionRule) : Prop where
  named : r.IsNamed
  kept : s.ignoreTag = s.marker ∨ some s.ignoreTag ∉ r.addTags.toList.map Opml.tagOfName?

instance (s : Selection) : DecidablePred (Returns s) :=
  fun r => decidable_of_iff' _ (returns_iff s r)

variable {r : SubscriptionRule}

theorem isTag_lineTags (r : SubscriptionRule) : ∀ t ∈ r.lineTags, isTag t.toList = true := by
  refine Outline.isTag_writtenTags fun t ht => ?_
  obtain ⟨name, -, hname⟩ := List.mem_map.1 ht
  exact Opml.isTagChar_tagOfName? hname

theorem mem_lineTags {t : String} : t ∈ r.lineTags ↔ some t ∈ r.addTags.toList.map Opml.tagOfName? := by
  rw [lineTags, Outline.mem_writtenTags, and_iff_left_iff_imp]
  rintro hmem rfl
  obtain ⟨name, -, hname⟩ := List.mem_map.1 hmem
  exact Opml.tagOfName?_ne name hname

end SubscriptionRule

namespace Selection

variable {s : Selection} {h : Heading} {r : SubscriptionRule} {rs : List SubscriptionRule}
variable {text top : String}

def own (s : Selection) (h : Heading) : FlatEntry :=
  ⟨h.text, h.tags.filter (· != s.marker)⟩

def feed? (s : Selection) (h : Heading) : Option String :=
  (s.subscriptionRule? (s.own h)).map (·.feedUrl)

theorem feed?_eq_some_iff {url : String} : s.feed? h = some url ↔
    ∃ rule, SubscriptionOf s h.text (h.tags.filter (· != s.marker)) rule ∧ rule.feedUrl = url := by
  rw [feed?, Option.map_eq_some_iff]
  simp only [subscriptionRule?_eq_some_iff, own]

theorem feed?_eq_none
    (hno : ∀ rule, ¬ SubscriptionOf s h.text (h.tags.filter (· != s.marker)) rule) :
    s.feed? h = none := by
  rw [Option.eq_none_iff_forall_ne_some]
  intro url hurl
  obtain ⟨rule, hrule, -⟩ := feed?_eq_some_iff.1 hurl
  exact hno rule hrule

theorem mem_ownTags_iff : s.ignoreTag ∈ r.lineTags.filter (· != s.marker) ↔
    ¬ (s.ignoreTag = s.marker ∨ some s.ignoreTag ∉ r.addTags.toList.map Opml.tagOfName?) := by
  rw [List.mem_filter, SubscriptionRule.mem_lineTags, not_or, not_not, and_comm, bne_iff_ne]

theorem feed?_named (h : r.Admitted) (hnamed : r.IsNamed) (hmentions : r.Mentioned s.keywords) :
    s.feed? ⟨r.written, 2, r.lineTags⟩ = if r.Returns s then some r.feedUrl else none := by
  obtain ⟨title, htext⟩ := h.feedText_written hnamed
  have htrim : trim r.written.toList = r.written.toList := (htext.trimmed h.no_blank).trimmed_eq
  have hnames := htext.names h.no_blank
  rw [String.ofList_toList, ← htrim] at hnames
  split_ifs with hreturns
  · let rule : SubscriptionRule :=
      ⟨r.feedUrl, .ofList (r.lineTags.filter (· != s.marker)), title.map String.ofList⟩
    refine feed?_eq_some_iff.2 ⟨rule, ?_, rfl⟩
    exact ⟨fun hmem => mem_ownTags_iff.1 hmem hreturns.kept, h.mentions_written hnamed hmentions,
      fun k _ => htext.no_keyword k, hnames, h.url_ne, h.no_blank, fun t => TagSet.mem_ofList⟩
  · refine feed?_eq_none fun rule hrule => hreturns ⟨hnamed, ?_⟩
    exact not_not.1 fun hignored => hrule.not_ignored (mem_ownTags_iff.2 hignored)

theorem exists_heading (h : r.Admitted) (hmentions : r.Mentioned s.keywords) :
    ∃ hd : Heading, hd.level = 2 ∧ (s.feed? hd = if r.Returns s then some r.feedUrl else none) ∧
      hd.OnLine (headingLine 2 r.written (r.addTags.toList.map Opml.tagOfName?)) := by
  have htags := r.isTag_lineTags
  have hnodup : r.lineTags.Nodup := Outline.nodup_writtenTags _
  rw [← Opml.headingLine_writtenTags, ← SubscriptionRule.lineTags]
  by_cases hnamed : r.IsNamed
  · obtain ⟨title, htext⟩ := h.feedText_written hnamed
    exact ⟨_, rfl, feed?_named h hnamed hmentions,
      Opml.headingLine_read Nat.two_pos (htext.isHeadingText h.no_blank) htags hnodup⟩
  · -- the bare address may be read as tags, with no text left, but it names no feed either way
    have hreturns : ¬ r.Returns s := fun hreturns => hnamed hreturns.named
    have hne : r.feedUrl.toList ≠ [] := by simpa using h.url_ne
    have hline := Outline.ofLine?_suffixed Nat.two_pos (.of_forall h.no_blank) hne (r.lineTags.map some)
    rw [← Opml.toList_headingLine] at hline
    rw [SubscriptionRule.Admitted.written_eq hnamed, if_neg hreturns]
    refine ⟨_, rfl, feed?_eq_none ?_, Opml.isBreak_headingLine ?_ fun t ht => ?_, hline⟩
    · refine fun rule hrule => h.not_namesFeed hnamed ?_ _ _ hrule.names
      rw [String.toList_ofList]
      exact Outline.splitTags_word h.no_blank htags hnodup
    · exact fun c hc => isBreak_of_not_isBlank (h.no_blank c hc)
    · exact (isTag_iff.1 (htags t (by simpa using ht))).2

theorem flatEntries_over {top : Heading} {below : List Heading} {level : Nat}
    (hparse : Outline.parse text = [top.over below]) (htop : top.level < level)
    (hlevel : ∀ g ∈ below, g.level = level) (hmarker : top.tags = [s.marker]) :
    s.flatEntries text =
      (top :: (below ++ below.filter fun g => (g.node none).isMarked s.marker)).map s.own := by
  have hroot : (top.over below).isMarked s.marker = true := by
    simp [Heading.over, Heading.node, Outline.Node.isMarked, hmarker]
  -- a heading below that has the marker among its own tags is a tree once more
  have htrees : s.treesOf text =
      top.over below :: (below.filter fun g => (g.node none).isMarked s.marker).map (·.node none) := by
    rw [treesOf, hparse, Outline.marked, Outline.walkAll_over, List.filter_cons_of_pos hroot,
      List.filter_map]
    rfl
  have hfirst : (flatten (top.over below)).map (·.withoutTag s.marker) =
      (top :: below).map s.own := by
    simp [flatten_over htop hlevel, FlatEntry.withoutTag, own, hmarker]
  have hleaves (gs : List Heading) :
      ((gs.map (·.node none)).flatMap flatten).map (·.withoutTag s.marker) = gs.map s.own := by
    rw [List.flatMap_map, List.map_flatMap]
    simp only [flatten_leaf, List.map_singleton]
    exact List.map_eq_flatMap.symm
  rw [flatEntries, htrees, List.flatMap_cons, List.map_append, hfirst, hleaves, ← List.map_append,
    List.cons_append]

theorem feedUrls_over {top : Heading} {below : List Heading} {level : Nat}
    (hparse : Outline.parse text = [top.over below]) (htop : top.level < level)
    (hlevel : ∀ g ∈ below, g.level = level) (hmarker : top.tags = [s.marker])
    (hsilent : s.feed? top = none) :
    (s.compileTexts [text]).feedUrls = (below.filterMap s.feed?).eraseDups := by
  have hfeeds : s.feedsOf text =
      (top :: (below ++ below.filter fun g => (g.node none).isMarked s.marker)).filterMap s.feed? := by
    rw [feedsOf, flatEntries_over hparse htop hlevel hmarker, List.filterMap_map]
    rfl
  have hagain : ∀ url ∈ (below.filter fun g => (g.node none).isMarked s.marker).filterMap s.feed?,
      url ∈ below.filterMap s.feed? := by
    intro url hurl
    obtain ⟨g, hg, hfeed⟩ := List.mem_filterMap.1 hurl
    exact List.mem_filterMap.2 ⟨g, List.mem_of_mem_filter hg, hfeed⟩
  rw [feedUrls_compileTexts, List.flatMap_singleton, hfeeds, List.filterMap_cons_none hsilent,
    List.filterMap_append, eraseDups_append_of_subset hagain]

theorem feedUrls_outlineOf (h : ∀ r ∈ rs, r.Admitted)
    (hmentions : ∀ r ∈ rs, r.Mentioned s.keywords)
    (hmarker : isTag s.marker.toList = true) (hnodup : (rs.map (·.feedUrl)).Nodup)
    (htop : IsHeadingText top.toList) (hsilent : ¬ Mentions s.keywords top.toList) :
    (s.compileTexts [outlineOf s.marker top (rs.map feedItem)]).feedUrls =
      (rs.filter (·.Returns s)).map (·.feedUrl) := by
  choose! heading hlevel hfeed hline using fun r hr => exists_heading (h r hr) (hmentions r hr)
  have hbelow : ∀ g ∈ rs.map heading, g.level = 2 := List.forall_mem_map.2 hlevel
  have hread : List.Forall₂ Heading.OnLine
      (headingLine 1 top [some s.marker] :: linesOf 2 (rs.map feedItem))
      (⟨top, 1, [s.marker]⟩ :: rs.map heading) := by
    rw [Opml.linesOf_feeds h]
    refine .cons (Opml.topLine_read htop hmarker) ?_
    rw [List.forall₂_map_left_iff, List.forall₂_map_right_iff, List.forall₂_same]
    exact hline
  have hparse := Outline.parse_over Nat.one_lt_two hbelow hread
  have hnone : s.feed? ⟨top, 1, [s.marker]⟩ = none :=
    feed?_eq_none fun _ hrule => hsilent hrule.relevant
  have hfeeds : (rs.map heading).filterMap s.feed? = (rs.filter (·.Returns s)).map (·.feedUrl) := by
    rw [List.filterMap_map, ← List.filterMap_eq_map, List.filterMap_filter]
    refine List.filterMap_congr fun r hr => ?_
    simpa using hfeed r hr
  have hkept : ((rs.filter (·.Returns s)).map (·.feedUrl)).Nodup :=
    hnodup.sublist (List.filter_sublist.map _)
  rw [outlineOf, feedUrls_over hparse Nat.one_lt_two hbelow rfl hnone, hfeeds, eraseDups_eq_self hkept]

theorem feeds_eq_nil (hmarker : s.marker = "") (texts : List String) : (s.compileTexts texts).feeds = [] := by
  rw [RuleTable.feeds_eq, subscriptionRules_eq_nil hmarker]
  rfl

end Selection

theorem Compile.exists_texts_of_table {s : Selection} {env : Environment} {files : FileTree}
    {documents : List String} {t : RuleTable} (h : table s env files documents = .ok t) :
    ∃ texts, t = s.compileTexts texts := by
  obtain ⟨texts, -, ht⟩ := bind_eq_ok.1 h
  exact ⟨texts, (Except.ok.inj ht).symm⟩

namespace Opml

theorem toOutline_ofTable_iff {t : RuleTable} (h : ∀ r ∈ t.feeds, r.Admitted) (marker top : String) :
    (∃ outline, toOutline (ofTable t defaultTitle) marker top = .ok outline) ↔ ∀ r ∈ t.feeds, r.Legal := by
  have htitle : ∀ c ∈ defaultTitle.toList, Markup.isLegal c = true ∧ c ≠ '\r' := by decide
  rw [← readItems_ofTable_iff h htitle]
  simp only [toOutline, bind_eq_ok]
  constructor
  · rintro ⟨-, items, hitems, -⟩
    exact ⟨items, hitems⟩
  · rintro ⟨items, hitems⟩
    exact ⟨_, items, hitems, rfl⟩

theorem feedUrls_toOutline {s : Selection} {texts : List String} {outline : String}
    (hmarker : ∀ c ∈ s.marker.toList, isTagChar c = true)
    (hlegal : ∀ r ∈ (s.compileTexts texts).feeds, r.Legal)
    (h : toOutline (ofTable (s.compileTexts texts) defaultTitle) s.marker "Imported feeds" = .ok outline) :
    (s.compileTexts [outline]).feedUrls =
      ((s.compileTexts texts).feeds.filter (·.Returns s)).map (·.feedUrl) := by
  by_cases hempty : s.marker = ""
  · rw [Selection.feeds_eq_nil hempty, RuleTable.feedUrls_eq, Selection.subscriptionRules_eq_nil hempty]
    rfl
  · rw [toOutline_ofTable fun r hr => ⟨Selection.admitted_feeds hr, hlegal r hr⟩] at h
    rw [← Except.ok.inj h]
    exact Selection.feedUrls_outlineOf (fun r hr => Selection.admitted_feeds hr)
      (fun r hr => Selection.mentioned_feeds hr) (isTag_iff.2 ⟨by simpa using hempty, hmarker⟩)
      (RuleTable.nodup_feeds _) isHeadingText_default (not_mentions_default _)

/-- The subscription list of a table is read if and only if it holds only what a document may hold. Its
outline then gives the feeds that return, in their order, and so none is lost if and only if all do. -/
theorem feedUrls_returned {s : Selection} {env : Environment} {files : FileTree}
    {documents : List String} {t : RuleTable} (hmarker : ∀ c ∈ s.marker.toList, isTagChar c = true)
    (ht : table s env files documents = .ok t) :
    ((∃ outline, toOutline (ofTable t defaultTitle) s.marker "Imported feeds" = .ok outline) ↔
      ∀ r ∈ t.feeds, r.Legal) ∧
    ∀ outline, toOutline (ofTable t defaultTitle) s.marker "Imported feeds" = .ok outline →
      ∀ env' files' document, Stores env' files' document outline →
        ∃ t', table s env' files' [document] = .ok t' ∧
          t'.feedUrls = (t.feeds.filter (·.Returns s)).map (·.feedUrl) ∧
          (t'.feedUrls = t.feedUrls ↔ ∀ r ∈ t.feeds, r.Returns s) := by
  obtain ⟨texts, rfl⟩ := Compile.exists_texts_of_table ht
  have hread := toOutline_ofTable_iff (t := s.compileTexts texts)
    (fun r hr => Selection.admitted_feeds hr) s.marker "Imported feeds"
  refine ⟨hread, fun outline houtline env' files' document hstores => ?_⟩
  have hfeeds := feedUrls_toOutline hmarker (hread.1 ⟨outline, houtline⟩) houtline
  refine ⟨_, Compile.table_eq_of_stores s (.cons hstores .nil), hfeeds, ?_⟩
  rw [hfeeds, RuleTable.feedUrls_eq, ← RuleTable.map_feedUrl_feeds]
  constructor
  · intro heq
    have hlength := congrArg List.length heq
    rw [List.length_map, List.length_map, List.length_filter_eq_length_iff] at hlength
    simpa using hlength
  · intro hall
    rw [List.filter_eq_self.2 (by simpa using hall)]

theorem feedUrls_returned_of_titled :
    let text := "* Feeds :elfeed:News:\n** http://a.example :Old:\n** [[feed:https://b.example][B]]\n" ++
      "** [[feed:https://c.example]]\n** https://d.example :c#:\n"
    let files : FileTree := { entries := [(["a.org"], .file (encodeUtf8 text))] }
    let s : Selection := { ignoreTag := "old" }
    (∀ c ∈ s.marker.toList, isTagChar c = true) ∧ ∃ t, table s {} files ["a.org"] = .ok t ∧
      t.feedUrls = ["http://a.example", "feed:https://b.example", "feed:https://c.example",
        "https://d.example"] ∧
      ∃ outline, toOutline (ofTable t defaultTitle) s.marker "Imported feeds" = .ok outline ∧
        let files' : FileTree := { entries := [(["b.org"], .file (encodeUtf8 outline))] }
        Stores {} files' "b.org" outline ∧ ∃ t', table s {} files' ["b.org"] = .ok t' ∧
          t'.feedUrls = ["feed:https://b.example", "https://d.example"] ∧ t'.feedUrls ≠ t.feedUrls := by
  intro text files s
  have hmarker : ∀ c ∈ s.marker.toList, isTagChar c = true := by decide
  have hstores : Stores {} files "a.org" text := ⟨_, rfl, by decide +kernel⟩
  have ht := Compile.table_eq_of_stores s (.cons hstores .nil)
  have hrules : s.compileTexts [text] = ⟨[], [⟨"http://a.example", .ofList ["News", "Old"], none⟩,
      ⟨"feed:https://b.example", .ofList ["News"], some "B"⟩,
      ⟨"feed:https://c.example", .ofList ["News"], none⟩,
      ⟨"https://d.example", .ofList ["News", "c#"], none⟩]⟩ := by
    decide +kernel
  rw [hrules] at ht
  obtain ⟨hread, hback⟩ := feedUrls_returned hmarker ht
  obtain ⟨outline, houtline⟩ := hread.2 (by decide +kernel)
  let files' : FileTree := { entries := [(["b.org"], .file (encodeUtf8 outline))] }
  have hstores' : Stores {} files' "b.org" outline := ⟨_, rfl, rfl⟩
  obtain ⟨t', ht', hfeeds, -⟩ := hback outline houtline {} files' "b.org" hstores'
  have hreturned : t'.feedUrls = ["feed:https://b.example", "https://d.example"] := by
    rw [hfeeds]
    decide +kernel
  refine ⟨hmarker, _, ht, by decide +kernel, outline, houtline, hstores', t', ht', hreturned, ?_⟩
  rw [hreturned]
  decide +kernel

/-- A link without a title is written as its bare address, which is no feed by itself. -/
theorem bare_feed_lost :
    let text := "* Feeds :elfeed:\n** [[feed:https://a.example/rss]]\n"
    let outline := "* Imported feeds :elfeed:\n** feed:https://a.example/rss\n"
    let files : FileTree := { entries := [(["a.org"], .file (encodeUtf8 text)), (["b.org"], .file (encodeUtf8 outline))] }
    let s : Selection := {}
    ∃ t t', table s {} files ["a.org"] = .ok t ∧ t.feedUrls = ["feed:https://a.example/rss"] ∧
      toOutline (ofTable t defaultTitle) s.marker "Imported feeds" = .ok outline ∧
      table s {} files ["b.org"] = .ok t' ∧ t'.feedUrls = [] := by
  intro text outline files s
  have hstores : Stores {} files "a.org" text := ⟨_, rfl, by decide +kernel⟩
  have hstores' : Stores {} files "b.org" outline := ⟨_, rfl, by decide +kernel⟩
  have hlegal : ∀ r ∈ (s.compileTexts [text]).feeds, r.Legal := by decide +kernel
  have houtline : toOutline (ofTable (s.compileTexts [text]) defaultTitle) s.marker "Imported feeds" =
      .ok outline := by
    rw [toOutline_ofTable fun r hr => ⟨Selection.admitted_feeds hr, hlegal r hr⟩]
    decide +kernel
  exact ⟨_, _, Compile.table_eq_of_stores s (.cons hstores .nil), by decide +kernel, houtline,
    Compile.table_eq_of_stores s (.cons hstores' .nil), by decide +kernel⟩

end Opml

end FeedOutline
