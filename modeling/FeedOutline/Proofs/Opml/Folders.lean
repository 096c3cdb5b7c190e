import FeedOutline.Proofs.Compile.Feeds
import FeedOutline.Proofs.Compile.Parts
import FeedOutline.Proofs.Opml.Tree

/-!
What an imported list with folders is compiled to. Each feed makes one rule, with the tags that come of it and
of the items that enclose it, and the folders make none.
-/
namespace FeedOutline

open Compile (Stores table)
open Disk (FileTree)
open Opml
open Outline (Leads walkAll)
open Text

/-! Items as headings. -/

namespace Opml.Item

/-- The title of a feed is its name, if it has one that is not its address. -/
def title? (i : Item) : Option String :=
  if i.name = "" ∨ i.name = i.url then none
  else some (String.ofList (Link.roundBrackets i.name.toList))

/-- A feed with a plain web address, or a folder whose name makes a tag and nothing else. -/
@[mk_iff] structure Importable (s : Selection) (i : Item) : Prop where
  feed : i.url ≠ "" → "http".toList <+: i.url.toList ∧
    (∀ c ∈ i.url.toList, isBlank c = false ∧ c ≠ ']') ∧ ∀ c ∈ i.name.toList, isBreak c = false
  folder : i.url = "" → i.name ≠ "" → (∀ c ∈ i.name.toList, isBreak c = false) ∧
    ¬ Mentions s.keywords i.name.toList ∧ tagOfName? i.name ≠ none
  unmarked : ¬ i.Gives s.marker

instance (i : Item) (tag : String) : Decidable (i.Gives tag) :=
  inferInstanceAs (Decidable (_ ∨ _))

instance (s : Selection) : DecidablePred (Importable s) :=
  fun i => decidable_of_iff' _ (importable_iff s i)

structure Subscribed (path : List Item) (i : Item) (rule : SubscriptionRule) : Prop where
  url_ne : i.url ≠ ""
  feedUrl : rule.feedUrl = i.url
  title : rule.title = i.title?
  mem_tags : ∀ t, t ∈ rule.addTags ↔ ∃ j ∈ path, j.Gives t

theorem isHeadingText_untitled : IsHeadingText "Untitled".toList := by
  constructor
  · constructor <;> decide
  · decide
  · decide
  · decide

theorem not_mentions_untitled (keywords : List Keyword) : ¬ Mentions keywords "Untitled".toList := by
  simp only [Mentions, ← contains_iff]
  rintro (hhttp | ⟨k, -, hname⟩)
  · revert hhttp
    decide
  · revert hname
    cases k <;> decide

theorem text_feed {i : Item} (hurl : i.url ≠ "") :
    i.text = Link.heading i.url (if i.name = i.url then none else some i.name) := by
  rw [text, itemText, if_neg (by simpa using hurl)]

theorem text_folder {i : Item} (hurl : i.url = "") :
    i.text = if i.name = "" then "Untitled" else i.name := by
  rw [text, itemText, if_pos (by simpa using hurl)]
  simp

namespace Importable

variable {s : Selection} {i : Item} {tags : List String}

theorem no_blank (h : i.Importable s) (hurl : i.url ≠ "") : ∀ c ∈ i.url.toList, isBlank c = false :=
  fun c hc => ((h.feed hurl).2.1 c hc).1

theorem feedText (h : i.Importable s) (htrim : Trimmed isBlank i.name.toList) (hurl : i.url ≠ "") :
    FeedText i.url.toList i.text.toList (i.title?.map String.toList) := by
  obtain ⟨hhttp, hplain, hbreak⟩ := h.feed hurl
  have hno : ']' ∉ i.url.toList := fun hmem => (hplain _ hmem).2 rfl
  rw [text_feed hurl, title?]
  by_cases hsame : i.name = i.url
  · rw [if_pos hsame, if_pos (.inr hsame)]
    exact feedText_address hhttp
  · by_cases hempty : i.name = ""
    · have hbare : Link.heading i.url (some "") = i.url := rfl
      rw [if_neg hsame, if_pos (.inl hempty), hempty, hbare]
      exact .address hhttp
    · rw [if_neg hsame, if_neg (not_or.2 ⟨hempty, hsame⟩)]
      simpa using feedText_titled hurl hno hempty htrim hbreak

theorem legible (h : i.Importable s) (htrim : Trimmed isBlank i.name.toList) : i.Legible := by
  by_cases hurl : i.url = ""
  · by_cases hempty : i.name = ""
    · have hshown : i.text = "Untitled" := by rw [text_folder hurl, if_pos hempty]
      have htext := isHeadingText_untitled
      rw [← hshown] at htext
      exact ⟨htext.trimmed, htext.ne_nil, htext.no_break, fun _ => htext.no_tags⟩
    · -- the name may end like an annotation, but the tag made of it is written behind it
      obtain ⟨hbreak, -, htag⟩ := h.folder hurl hempty
      obtain ⟨tag, hname⟩ := Option.ne_none_iff_exists'.1 htag
      have hmem : tag ∈ i.tags := mem_tags.2 (.inr ⟨hurl, hempty, hname⟩)
      have htext : i.text = i.name := by rw [text_folder hurl, if_neg hempty]
      rw [← htext] at htrim hbreak
      refine ⟨htrim, by simpa [htext] using hempty, hbreak, fun hnil => ?_⟩
      exact absurd hmem (hnil ▸ List.not_mem_nil)
  · have htext := (h.feedText htrim hurl).isHeadingText (h.no_blank hurl)
    exact ⟨htext.trimmed, htext.ne_nil, htext.no_break, fun _ => htext.no_tags⟩

theorem not_mentions_folder (h : i.Importable s) (hurl : i.url = "") :
    ¬ Mentions s.keywords i.text.toList := by
  rw [text_folder hurl]
  split_ifs with hempty
  · exact not_mentions_untitled _
  · exact (h.folder hurl hempty).2.1

theorem not_keywordOf (h : i.Importable s) (htrim : Trimmed isBlank i.name.toList) (rule : KeywordRule) :
    ¬ KeywordOf s i.text tags rule := by
  intro hrule
  by_cases hurl : i.url = ""
  · exact h.not_mentions_folder hurl hrule.mentions
  · obtain ⟨rest, hrest, -⟩ := hrule.starts
    exact (h.feedText htrim hurl).no_keyword rule.field ⟨rest, hrest.symm⟩

theorem subscriptionOf_iff (h : i.Importable s) (htrim : Trimmed isBlank i.name.toList)
    {rule : SubscriptionRule} : SubscriptionOf s i.text tags rule ↔
      i.url ≠ "" ∧ rule.feedUrl = i.url ∧ rule.title = i.title? ∧
        (∀ t, t ∈ rule.addTags ↔ t ∈ tags) ∧ s.ignoreTag ∉ tags := by
  by_cases hurl : i.url = ""
  · refine iff_of_false (fun hrule => ?_) fun hfeed => hfeed.1 hurl
    exact h.not_mentions_folder hurl hrule.relevant
  · have htext := h.feedText htrim hurl
    have hnames := htext.names (h.no_blank hurl)
    rw [Option.map_map, String.ofList_toList, String.ofList_comp_toList, Option.map_id_fun, id,
      ← (htext.trimmed (h.no_blank hurl)).trimmed_eq] at hnames
    constructor
    · intro hrule
      obtain ⟨hfeed, htitle⟩ := hrule.names.unique hnames
      exact ⟨hurl, hfeed, htitle, hrule.mem_tags, hrule.not_ignored⟩
    · rintro ⟨-, hfeed, htitle, hmem, hignored⟩
      have hhttp : "http".toList <:+: i.text.toList :=
        (h.feed hurl).1.isInfix.trans (hnames.url_infix.trans (trim_infix_self _))
      exact ⟨hignored, .inl hhttp, fun k _ => htext.no_keyword k, hfeed ▸ htitle ▸ hnames, hfeed ▸ hurl,
        hfeed ▸ h.no_blank hurl, hmem⟩

end Importable

end Opml.Item

/-! Rules. -/

namespace Selection

variable {s : Selection} {outline top : String} {items : List Item}

/-- The marker selects the top heading, if it is not empty, and no other. -/
theorem marks_treeOf_iff (h : ∀ path i, Within items path i → ¬ i.Gives s.marker) {r : Outline.Node}
    (hr : r ∈ walkAll [treeOf s.marker top items]) :
    s.Marks r ↔ s.marker ≠ "" ∧ r = treeOf s.marker top items := by
  rw [Outline.walkAll_cons, Outline.walkAll_nil, List.append_nil, List.mem_cons] at hr
  rcases hr with rfl | hr
  · simp [Marks, treeOf, Outline.mem_writtenTags]
  · -- below the top heading no item gives the marker, and no line gives an id
    obtain ⟨n, hn, above, hpath⟩ := Outline.mem_walkAll_iff.1 hr
    obtain ⟨path, i, hi, hwritten, -⟩ := exists_within_of_leads hpath hn
    have hlevel : r ≠ treeOf s.marker top items := by
      rintro rfl
      have hdeeper := (nested_nodesOf items 2).lt_of_mem_walkAll (l := 1)
        (fun m hm => by rw [level_of_mem_nodesOf m hm]; decide) _ hr
      exact absurd hdeeper (by simp [treeOf])
    refine iff_of_false ?_ fun hroot => hlevel hroot.2
    rintro (htag | hid)
    · exact h path i hi (Item.mem_tags.1 (hwritten.tags ▸ htag))
    · rw [hwritten.id] at hid
      cases hid

theorem pathTags_treeOf (h : ∀ path i, Within items path i → ¬ i.Gives s.marker) {path : List Item}
    {i : Item} (hi : Within items path i) {above : List Outline.Node}
    (habove : above.map (·.tags) = path.map Item.tags) :
    s.pathTags (treeOf s.marker top items :: above) = path.flatMap Item.tags := by
  have htop : (treeOf s.marker top items).tags.filter (· != s.marker) = [] := by
    simp [treeOf, Outline.mem_writtenTags]
  have hkept : ∀ t ∈ path.flatMap Item.tags, (t != s.marker) = true := by
    intro t ht
    obtain ⟨j, hj, htag⟩ := List.mem_flatMap.1 ht
    obtain ⟨path', hj'⟩ := hi.exists_of_mem j hj
    exact bne_iff_ne.2 fun heq => h path' j hj' (Item.mem_tags.1 (heq ▸ htag))
  rw [pathTags, List.flatMap_cons, List.filter_append, htop, List.nil_append, List.flatMap_def, habove,
    ← List.flatMap_def, List.filter_eq_self.2 hkept]

/-- What is selected is the top heading and every item, with the tags that come of those on the path. -/
theorem exists_selects_iff (hparse : Outline.parse outline = [treeOf s.marker top items])
    (h : ∀ path i, Within items path i → ¬ i.Gives s.marker) {P : String → List String → Prop} :
    (∃ n tags, s.Selects [outline] n tags ∧ P n.text tags) ↔
      s.marker ≠ "" ∧ (P top [] ∨ ∃ path i, Within items path i ∧ P i.text (path.flatMap Item.tags)) := by
  have htop : s.pathTags [treeOf s.marker top items] = [] := by
    simp [pathTags, treeOf, Outline.mem_writtenTags]
  constructor
  · rintro ⟨n, -, ⟨text, htext, r, hr, hmarks, above, hpath, rfl⟩, hP⟩
    rw [List.mem_singleton.1 htext, hparse] at hr
    obtain ⟨hmarker, rfl⟩ := (marks_treeOf_iff h hr).1 hmarks
    refine ⟨hmarker, ?_⟩
    cases hpath with
    | here =>
      rw [htop] at hP
      exact .inl hP
    | down hc hpath =>
      obtain ⟨path, i, hi, hwritten, habove⟩ := exists_within_of_leads hpath hc
      rw [pathTags_treeOf h hi habove, hwritten.text] at hP
      exact .inr ⟨path, i, hi, hP⟩
  · rintro ⟨hmarker, hP⟩
    have hroot : treeOf s.marker top items ∈ walkAll [treeOf s.marker top items] := by simp
    have hmarks := (marks_treeOf_iff h hroot).2 ⟨hmarker, rfl⟩
    rw [← hparse] at hroot
    rcases hP with hP | ⟨path, i, hi, hP⟩
    · exact ⟨_, [], ⟨outline, List.mem_singleton_self _, _, hroot, hmarks, _, .here _, htop.symm⟩, hP⟩
    · obtain ⟨n, hn, above, m, hpath, hwritten, habove⟩ := hi.exists_leads 2
      refine ⟨m, _, ⟨outline, List.mem_singleton_self _, _, hroot, hmarks, _, .down hn hpath, rfl⟩, ?_⟩
      rwa [pathTags_treeOf h hi habove, hwritten.text]

theorem mem_subscriptionRules_treeOf_iff (hparse : Outline.parse outline = [treeOf s.marker top items])
    (h : ∀ path i, Within items path i → i.Importable s ∧ Trimmed isBlank i.name.toList)
    (htop : ¬ Mentions s.keywords top.toList) {rule : SubscriptionRule} :
    rule ∈ (s.compileTexts [outline]).subscriptionRules ↔ s.marker ≠ "" ∧ s.ignoreTag ∉ rule.addTags ∧
      ∃ path i, Within items path i ∧ i.Subscribed path rule := by
  have hunmarked : ∀ path i, Within items path i → ¬ i.Gives s.marker :=
    fun path i hi => (h path i hi).1.unmarked
  have hgives (path : List Item) (t : String) :
      t ∈ path.flatMap Item.tags ↔ ∃ j ∈ path, j.Gives t := by
    simp only [List.mem_flatMap, Item.mem_tags]
  have hselects := exists_selects_iff hparse hunmarked (P := (SubscriptionOf s · · rule))
  rw [mem_subscriptionRules_iff, hselects]
  refine and_congr_right fun _ => ⟨?_, ?_⟩
  · rintro (hrule | ⟨path, i, hi, hrule⟩)
    · exact absurd hrule.relevant htop
    · obtain ⟨himportable, htrim⟩ := h path i hi
      obtain ⟨hurl, hfeed, htitle, hmem, hignored⟩ := (himportable.subscriptionOf_iff htrim).1 hrule
      exact ⟨fun hmark => hignored ((hmem _).1 hmark), path, i, hi, hurl, hfeed, htitle,
        fun t => (hmem t).trans (hgives path t)⟩
  · rintro ⟨hignored, path, i, hi, hrule⟩
    obtain ⟨himportable, htrim⟩ := h path i hi
    have hmem : ∀ t, t ∈ rule.addTags ↔ t ∈ path.flatMap Item.tags :=
      fun t => (hrule.mem_tags t).trans (hgives path t).symm
    exact .inr ⟨path, i, hi, (himportable.subscriptionOf_iff htrim).2
      ⟨hrule.url_ne, hrule.feedUrl, hrule.title, hmem, fun hmark => hignored ((hmem _).2 hmark)⟩⟩

theorem keywordRules_treeOf (hparse : Outline.parse outline = [treeOf s.marker top items])
    (h : ∀ path i, Within items path i → i.Importable s ∧ Trimmed isBlank i.name.toList)
    (htop : ¬ Mentions s.keywords top.toList) : (s.compileTexts [outline]).keywordRules = [] := by
  refine List.eq_nil_iff_forall_not_mem.2 fun rule hmem => ?_
  have hselects := exists_selects_iff hparse (fun path i hi => (h path i hi).1.unmarked)
    (P := (KeywordOf s · · rule))
  rw [mem_keywordRules_iff, hselects] at hmem
  obtain ⟨-, hrule | ⟨path, i, hi, hrule⟩⟩ := hmem
  · exact htop hrule.mentions
  · obtain ⟨himportable, htrim⟩ := h path i hi
    exact himportable.not_keywordOf htrim rule hrule

end Selection

namespace Opml

/-- An imported list is compiled to one rule for each feed, with the tags that come of it and of all that
encloses it, unless one of these is the tag of ignored headings. With an empty marker nothing is found. -/
theorem mem_rules_toOutline {s : Selection} {document : String} {items : List Item}
    (hmarker : ∀ c ∈ s.marker.toList, isTagChar c = true) (hread : readItems document = .ok items)
    (h : ∀ path i, Within items path i → i.Importable s) :
    ∃ outline, toOutline document s.marker "Imported feeds" = .ok outline ∧
      ∀ env files document', Stores env files document' outline →
        ∃ t, table s env files [document'] = .ok t ∧ t.keywordRules = [] ∧
          ∀ rule, rule ∈ t.subscriptionRules ↔ s.marker ≠ "" ∧ s.ignoreTag ∉ rule.addTags ∧
            ∃ path i, Within items path i ∧ i.Subscribed path rule := by
  obtain ⟨ns, rfl⟩ := exists_itemsOf_of_readItems hread
  have hitems : ∀ path i, Within (itemsOf ns) path i → i.Importable s ∧ Trimmed isBlank i.name.toList :=
    fun path i hi => ⟨h path i hi, (trimmed_of_within_itemsOf ns path i hi).1⟩
  have hparse := parse_outlineOf_items isHeadingText_default hmarker
    fun path i hi => (hitems path i hi).1.legible (hitems path i hi).2
  refine ⟨outlineOf s.marker "Imported feeds" (itemsOf ns), by rw [toOutline, hread]; rfl, ?_⟩
  intro env files document' hstores
  exact ⟨_, Compile.table_eq_of_stores s (.cons hstores .nil),
    Selection.keywordRules_treeOf hparse hitems (not_mentions_default _),
    fun rule => Selection.mem_subscriptionRules_treeOf_iff hparse hitems (not_mentions_default _)⟩

set_option maxRecDepth 2000 in
theorem mem_rules_toOutline_of_nested :
    let document := "<opml><body><outline text=\"T :x:\" category=\"Top/b\">" ++
      "<outline title=\"[A]\" xmlUrl=\" http://a\" category=\"c#,,C\">" ++
      "<outline text=\"http://b\" xmlUrl=\"http://b\"/></outline>" ++
      "<outline category=\"old\"><outline xmlUrl=\"http://c\"/></outline></outline></body></opml>"
    let feed : Item := ⟨"[A]", "http://a", "c#,,C", [⟨"http://b", "http://b", "", []⟩]⟩
    let items : List Item := [⟨"T :x:", "", "Top/b", [feed, ⟨"", "", "old", [⟨"", "http://c", "", []⟩]⟩]⟩]
    let outline := "* Imported feeds :elfeed:\n** T :x: :t_x:top:b:\n*** [[http://a][(A)]] :c#:c:\n" ++
      "**** http://b\n*** Untitled :old:\n**** http://c\n"
    let files : FileTree := { entries := [(["a.org"], .file (encodeUtf8 outline))] }
    let s : Selection := { ignoreTag := "old" }
    (∀ c ∈ s.marker.toList, isTagChar c = true) ∧ readItems document = .ok items ∧
      (∀ path i, Within items path i → i.Importable s) ∧
      toOutline document s.marker "Imported feeds" = .ok outline ∧ Stores {} files "a.org" outline ∧
      ∃ t, table s {} files ["a.org"] = .ok t ∧ t.keywordRules = [] ∧
        (∀ rule, rule ∈ t.subscriptionRules ↔ s.marker ≠ "" ∧ s.ignoreTag ∉ rule.addTags ∧
          ∃ path i, Within items path i ∧ i.Subscribed path rule) ∧
        t.subscriptionRules = [⟨"http://a", .ofList ["t_x", "top", "b", "c#", "c"], some "(A)"⟩,
          ⟨"http://b", .ofList ["t_x", "top", "b", "c#", "c"], none⟩] := by
  intro document feed items outline files s
  let nodes : List Markup.Node :=
    [.element (.plain "outline") [(.plain "text", "T :x:"), (.plain "category", "Top/b")]
      [.element (.plain "outline")
          [(.plain "title", "[A]"), (.plain "xmlUrl", " http://a"), (.plain "category", "c#,,C")]
          [.element (.plain "outline") [(.plain "text", "http://b"), (.plain "xmlUrl", "http://b")] []],
        .element (.plain "outline") [(.plain "category", "old")]
          [.element (.plain "outline") [(.plain "xmlUrl", "http://c")] []]]]
  have hmarker : ∀ c ∈ s.marker.toList, isTagChar c = true := by decide
  have hnodes : Markup.read document =
      .ok (.element (.plain "opml") [] [.element (.plain "body") [] nodes]) := by
    unfold document nodes
    rfl
  have hitems : itemsOf nodes = items := by
    unfold nodes items feed
    rfl
  have hread : readItems document = .ok items :=
    (readItems_eq hnodes rfl).trans (congrArg Except.ok hitems)
  have himportable : ∀ path i, Within items path i → i.Importable s := by
    simp only [items, feed, Within.forall_cons, Within.forall_nil, Item.items]
    decide +kernel
  have hstores : Stores {} files "a.org" outline := ⟨_, rfl, by decide +kernel⟩
  obtain ⟨outline', houtline, hcompile⟩ := mem_rules_toOutline hmarker hread himportable
  have hwritten : outline' = outline := by
    have hwhole : toOutline document s.marker "Imported feeds" =
        .ok (outlineOf s.marker "Imported feeds" items) := by
      rw [toOutline, hread]
      rfl
    rw [← Except.ok.inj (hwhole.symm.trans houtline)]
    decide +kernel
  rw [hwritten] at houtline hcompile
  obtain ⟨t, ht, hkeyword, hrules⟩ := hcompile {} files "a.org" hstores
  refine ⟨hmarker, hread, himportable, houtline, hstores, t, ht, hkeyword, hrules, ?_⟩
  rw [Except.ok.inj (ht.symm.trans (Compile.table_eq_of_stores s (.cons hstores .nil)))]
  decide +kernel

/-- An empty marker is left out of the outline, and then nothing there is selected. -/
theorem unmarked_feed_lost :
    let document := "<opml><body><outline xmlUrl=\"http://a.example\"/></body></opml>"
    let feed : Item := ⟨"", "http://a.example", "", []⟩
    let rule : SubscriptionRule := ⟨"http://a.example", .empty, none⟩
    let outline := "* Imported feeds\n** http://a.example\n"
    let files : FileTree := { entries := [(["a.org"], .file (encodeUtf8 outline))] }
    let s : Selection := { marker := "" }
    (∀ c ∈ s.marker.toList, isTagChar c = true) ∧ readItems document = .ok [feed] ∧
      (∀ path i, Within [feed] path i → i.Importable s) ∧
      toOutline document s.marker "Imported feeds" = .ok outline ∧ Stores {} files "a.org" outline ∧
      (∃ path i, Within [feed] path i ∧ i.Subscribed path rule ∧ s.ignoreTag ∉ rule.addTags) ∧
      ∃ t, table s {} files ["a.org"] = .ok t ∧ rule ∉ t.subscriptionRules := by
  intro document feed rule outline files s
  let node : Markup.Node := .element (.plain "outline") [(.plain "xmlUrl", "http://a.example")] []
  have hnode : Markup.read document =
      .ok (.element (.plain "opml") [] [.element (.plain "body") [] [node]]) := by
    unfold document node
    rfl
  have hitem : itemsOf [node] = [feed] := by
    unfold node feed
    rfl
  have hread : readItems document = .ok [feed] :=
    (readItems_eq hnode rfl).trans (congrArg Except.ok hitem)
  have himportable : ∀ path i, Within [feed] path i → i.Importable s := by
    simp only [feed, Within.forall_cons, Within.forall_nil, Item.items]
    decide +kernel
  have houtline : toOutline document s.marker "Imported feeds" = .ok outline := by
    rw [toOutline, hread]
    decide +kernel
  have hstores : Stores {} files "a.org" outline := ⟨_, rfl, by decide +kernel⟩
  have hgives : ∀ t, ¬ feed.Gives t := by
    rintro t (hcategory | ⟨hurl, -⟩)
    · simp [feed, Item.category, categoryTags_empty] at hcategory
    · simp [feed, Item.url] at hurl
  have hsubscribed : feed.Subscribed [feed] rule :=
    ⟨by decide, rfl, by decide, fun t => by simp [rule, hgives]⟩
  refine ⟨by decide, hread, himportable, houtline, hstores,
    ⟨[feed], feed, .here (List.mem_singleton_self _), hsubscribed, by decide⟩, _,
    Compile.table_eq_of_stores s (.cons hstores .nil), ?_⟩
  rw [Selection.subscriptionRules_eq_nil rfl]
  exact List.not_mem_nil

end Opml

end FeedOutline
