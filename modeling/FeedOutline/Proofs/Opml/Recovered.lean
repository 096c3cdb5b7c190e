import FeedOutline.Proofs.Compile.Parts
import FeedOutline.Proofs.Compile.Sources
import FeedOutline.Proofs.Opml.FeedText
import FeedOutline.Proofs.Opml.Forged
import FeedOutline.Proofs.Opml.Headings

/-!
What is read of the heading that is written for a feed. Brackets of the title are rounded off, but those of
the address are not, so a closing one in it ends the link early.
-/
namespace FeedOutline

open Compile (Stores table)
open Disk (FileTree)
open Outline (Heading Leads levels listing parse walkAll)
open Text

namespace Link

/-- The title that the heading of a feed shows, none if nothing is left of it. -/
def shownTitle? (title : Option String) : Option String :=
  title.bind fun t => trimmed? (roundBrackets t.toList)

variable {url t : String} {title : Option String}

theorem shownTitle?_eq (title : Option String) : shownTitle? title =
    if trim (roundBrackets (title.getD "").toList) = [] then none
    else some (String.ofList (trim (roundBrackets (title.getD "").toList))) := by
  cases title with
  | none => rfl
  | some t => exact trimmed?_eq _

theorem heading_of_untitled (h : shownTitle? title = none) : heading url title = url := by
  rw [shownTitle?_eq] at h
  split at h
  · next hnil => simp [heading, hnil]
  · cases h

theorem heading_of_titled (h : shownTitle? title = some t) : (heading url title).toList =
    "[[".toList ++ url.toList ++ "][".toList ++ t.toList ++ "]]".toList := by
  rw [shownTitle?_eq] at h
  split at h
  · cases h
  · next hne =>
    cases Option.some.inj h
    simp [heading, hne]

theorem of_shownTitle? (h : shownTitle? title = some t) :
    t.toList ≠ [] ∧ Trimmed isBlank t.toList ∧ ']' ∉ t.toList := by
  rw [shownTitle?_eq] at h
  split at h
  · cases h
  · next hne =>
    cases Option.some.inj h
    rw [String.toList_ofList]
    refine ⟨hne, trimmed_trimmed _ _, fun hmem => ?_⟩
    exact (mem_roundBrackets (mem_of_mem_trimmed hmem)).1 rfl

theorem isHeadingText_heading (hhttp : "http".toList <+: url.toList)
    (hblank : ∀ c ∈ url.toList, isBlank c = false)
    (hbreak : ∀ t ∈ title, ∀ c ∈ t.toList, isBreak c = false) :
    Opml.IsHeadingText (heading url title).toList := by
  have hurl : ∀ c ∈ url.toList, isBreak c = false := fun c hc => isBreak_of_not_isBlank (hblank c hc)
  have hline := Opml.isBreak_heading hurl hbreak
  cases hshown : shownTitle? title with
  | none =>
    rw [heading_of_untitled hshown]
    exact Opml.isHeadingText_address hhttp hblank
  | some t =>
    rw [heading_of_titled hshown] at hline ⊢
    simp only [List.forall_mem_append] at hline
    exact Opml.isHeadingText_link hurl hline.1.2

end Link

/-! What the text of a heading names. -/

theorem NamesFeed.count_closing {s : List Char} {url : String} {title : Option String}
    (h : NamesFeed s url title) : "http".toList <+: s ∨ s.count ']' ≤ 3 := by
  cases h with
  | address hhttp => exact .inl hhttp
  | bare _ hu =>
    right
    simp [List.count_append, List.count_eq_zero.2 hu]
  | titled _ hu ht =>
    right
    simp [List.count_append, List.count_eq_zero.2 hu, List.count_eq_zero.2 ht]

theorem not_namesFeed_link {u t : List Char} {url : String} {title : Option String} (hu : ']' ∈ u) :
    ¬ NamesFeed ("[[".toList ++ u ++ "][".toList ++ t ++ "]]".toList) url title := by
  intro h
  rcases h.count_closing with hhttp | hcount
  · simp at hhttp
  · have hpos := List.count_pos_iff.2 hu
    simp [List.count_append] at hcount
    omega

section

variable {url : String} {title : Option String} {tags : List String}

theorem ne_empty_of_http (hhttp : "http".toList <+: url.toList) : url ≠ "" := by
  rintro rfl
  simp at hhttp

/-- The heading of a feed names this feed with the title that it shows, or nothing. -/
theorem namesFeed_heading_iff (hhttp : "http".toList <+: url.toList)
    (hblank : ∀ c ∈ url.toList, isBlank c = false) {url' : String} {title' : Option String} :
    NamesFeed (trim (Link.heading url title).toList) url' title' ↔
      (']' ∈ url.toList → Link.shownTitle? title = none) ∧ url' = url ∧
        title' = Link.shownTitle? title := by
  have htrim : trim url.toList = url.toList := (Trimmed.of_forall hblank).trimmed_eq
  cases hshown : Link.shownTitle? title with
  | none =>
    have hnames : NamesFeed (trim url.toList) url none := by
      rw [htrim]
      simpa using NamesFeed.address hhttp
    rw [Link.heading_of_untitled hshown]
    constructor
    · exact fun h => ⟨fun _ => rfl, h.unique hnames⟩
    · rintro ⟨-, rfl, rfl⟩
      exact hnames
  | some t =>
    obtain ⟨hne, ht, hno⟩ := Link.of_shownTitle? hshown
    have hlink : trim ("[[".toList ++ url.toList ++ "][".toList ++ t.toList ++ "]]".toList) =
        "[[".toList ++ url.toList ++ "][".toList ++ t.toList ++ "]]".toList :=
      (Opml.trimmed_link _ _).trimmed_eq
    rw [Link.heading_of_titled hshown]
    by_cases hbracket : ']' ∈ url.toList
    · rw [hlink]
      exact iff_of_false (not_namesFeed_link hbracket) fun h => absurd (h.1 hbracket) (by simp)
    · have hurl : url.toList ≠ [] := mt String.toList_eq_nil_iff.1 (ne_empty_of_http hhttp)
      have hnames := NamesFeed.titled hurl hbracket hno
      have htitle : trim t.toList = t.toList := ht.trimmed_eq
      rw [htrim, htitle, if_neg hne, String.ofList_toList, String.ofList_toList, ← hlink] at hnames
      constructor
      · exact fun h => ⟨fun hmem => absurd hmem hbracket, h.unique hnames⟩
      · rintro ⟨-, rfl, rfl⟩
        exact hnames

theorem no_keyword_heading (hhttp : "http".toList <+: url.toList) (k : Keyword) :
    ¬ k.start <+: (Link.heading url title).toList := by
  apply Keyword.not_prefix_of_head?
  cases hshown : Link.shownTitle? title with
  | none =>
    obtain ⟨rest, hrest⟩ := hhttp
    rw [Link.heading_of_untitled hshown, ← hrest]
    exact .inl rfl
  | some t =>
    rw [Link.heading_of_titled hshown]
    exact .inr (by simp)

theorem http_infix_heading (hhttp : "http".toList <+: url.toList) :
    "http".toList <:+: (Link.heading url title).toList := by
  cases hshown : Link.shownTitle? title with
  | none =>
    rw [Link.heading_of_untitled hshown]
    exact hhttp.isInfix
  | some t =>
    rw [Link.heading_of_titled hshown]
    exact hhttp.isInfix.trans ⟨"[[".toList, "][".toList ++ t.toList ++ "]]".toList, by simp⟩

theorem classify?_heading (hhttp : "http".toList <+: url.toList)
    (hblank : ∀ c ∈ url.toList, isBlank c = false) (title : Option String) (tags : List String)
    (keywords : List Keyword) :
    (⟨Link.heading url title, tags⟩ : FlatEntry).classify? keywords =
      if ']' ∈ url.toList ∧ (Link.shownTitle? title).isSome then none
      else some (.subscription ⟨url, tags, Link.shownTitle? title⟩) := by
  split
  · next hlost =>
    rw [Option.eq_none_iff_forall_ne_some]
    intro c hc
    cases c with
    | filter f =>
      obtain ⟨⟨-, rest, hrest, -⟩, -⟩ := FlatEntry.classify?_eq_filter_iff.1 hc
      exact no_keyword_heading hhttp f.keyword ⟨rest, hrest.symm⟩
    | subscription sub =>
      obtain ⟨-, hnames, -⟩ := FlatEntry.classify?_eq_subscription_iff.1 hc
      have hnone := ((namesFeed_heading_iff hhttp hblank).1 hnames).1 hlost.1
      simp [hnone] at hlost
  · next hkept =>
    apply FlatEntry.classify?_eq_subscription_iff.2
    refine ⟨fun k _ => no_keyword_heading hhttp k, (namesFeed_heading_iff hhttp hblank).2 ?_, rfl⟩
    refine ⟨fun hmem => ?_, rfl, rfl⟩
    simpa [hmem] using hkept

theorem subscriptionOf_heading_iff (hhttp : "http".toList <+: url.toList)
    (hblank : ∀ c ∈ url.toList, isBlank c = false) {s : Selection} {rule : SubscriptionRule} :
    SubscriptionOf s (Link.heading url title) tags rule ↔
      (']' ∈ url.toList → Link.shownTitle? title = none) ∧ rule.feedUrl = url ∧
        rule.title = Link.shownTitle? title ∧ (∀ t, t ∈ rule.addTags ↔ t ∈ tags) ∧
        s.ignoreTag ∉ tags := by
  constructor
  · intro h
    obtain ⟨hkept, hurl, htitle⟩ := (namesFeed_heading_iff hhttp hblank).1 h.names
    exact ⟨hkept, hurl, htitle, h.mem_tags, h.not_ignored⟩
  · rintro ⟨hkept, hurl, htitle, hmem, hignored⟩
    have hne := ne_empty_of_http hhttp
    exact ⟨hignored, .inl (http_infix_heading hhttp), fun k _ => no_keyword_heading hhttp k,
      (namesFeed_heading_iff hhttp hblank).2 ⟨hkept, hurl, htitle⟩, hurl ▸ hne, hurl ▸ hblank, hmem⟩

end

namespace Opml

/-! Feeds of a list. -/

variable {s : Selection} {marker top document url : String} {title : Option String} {ns : List Markup.Node}
  {o : Nat × Markup.Node}

structure IsFeed (o : Nat × Markup.Node) (url : String) (title : Option String) : Prop where
  url_eq : urlOf o.2 = url
  title_eq : (if nameOf o.2 = url then none else some (nameOf o.2)) = title

theorem exists_mem_parse (hhttp : "http".toList <+: url.toList)
    (hblank : ∀ c ∈ url.toList, isBlank c = false)
    (hbreak : ∀ t ∈ title, ∀ c ∈ t.toList, isBreak c = false)
    (hmarker : ∀ c ∈ marker.toList, isTagChar c = true) (htop : ∀ c ∈ top.toList, isBreak c = false)
    (ho : o ∈ outlinesOf 1 ns) (hfeed : IsFeed o url title) :
    ∃ n ∈ walkAll (parse (outlineOf marker top (itemsOf ns))), n.text = Link.heading url title := by
  let tags := Outline.writtenTags (itemTags (nameOf o.2) (urlOf o.2) ((o.2.attribute? "category").getD ""))
  have hne : (urlOf o.2).isEmpty = false := by simpa [hfeed.url_eq] using ne_empty_of_http hhttp
  have htext : itemText (nameOf o.2) (urlOf o.2) = Link.heading url title := by
    rw [itemText, hne, hfeed.url_eq, hfeed.title_eq]
    rfl
  have hline : Heading.OnLine (elementLine o) ⟨Link.heading url title, o.1 + 1, tags⟩ := by
    rw [elementLine, itemLine_eq, ← headingLine_writtenTags, htext]
    exact headingLine_read (Nat.succ_pos o.1) (Link.isHeadingText_heading hhttp hblank hbreak)
      (Outline.isTag_writtenTags fun _ => isTagChar_itemTags) (Outline.nodup_writtenTags _)
  have hmem : (⟨Link.heading url title, o.1 + 1, tags⟩ : Heading).node none ∈
      (listing (parse (outlineOf marker top (itemsOf ns)))).map Outline.Node.withoutId := by
    rw [Outline.withoutId_listing_parse, lines_outlineOf hmarker htop]
    apply List.mem_map_of_mem
    apply List.mem_filterMap.2
    refine ⟨_, List.mem_cons_of_mem _ (List.mem_flatMap.2 ⟨o, ho, ?_⟩), hline.2⟩
    rw [lines_of_no_break (closed_elementLine o).1 hline.1]
    exact List.mem_singleton_self _
  obtain ⟨m, hm, hbare⟩ := List.mem_map.1 hmem
  obtain ⟨n, hn, rfl⟩ := List.mem_map.1 hm
  exact ⟨n, hn, congrArg Outline.Node.text hbare⟩

theorem exists_selects_heading (hhttp : "http".toList <+: url.toList)
    (hblank : ∀ c ∈ url.toList, isBlank c = false)
    (hbreak : ∀ t ∈ title, ∀ c ∈ t.toList, isBreak c = false) (hmarker : isTag s.marker.toList = true)
    (htop : ∀ c ∈ top.toList, isBreak c = false) (hnone : ∀ o ∈ outlinesOf 1 ns, forgedBy o = [])
    (ho : o ∈ outlinesOf 1 ns) (hfeed : IsFeed o url title) :
    ∃ n tags, s.Selects [outlineOf s.marker top (itemsOf ns)] n tags ∧ n.text = Link.heading url title := by
  obtain ⟨hne, htag⟩ := isTag_iff.1 hmarker
  obtain ⟨tree, hparse, -, htags, -⟩ := exists_tree_of_forges_none htag htop hnone
  obtain ⟨n, hn, htext⟩ := exists_mem_parse hhttp hblank hbreak htag htop ho hfeed
  have hroot : tree ∈ walkAll (parse (outlineOf s.marker top (itemsOf ns))) := by simp [hparse]
  have hmarks : s.Marks tree := .inl (htags (by simpa using hne))
  rw [hparse] at hn
  obtain ⟨root, hmem, path, hpath⟩ := Outline.mem_walkAll_iff.1 hn
  cases List.mem_singleton.1 hmem
  exact ⟨n, s.pathTags path, ⟨_, List.mem_singleton_self _, tree, hroot, hmarks, path, hpath, rfl⟩, htext⟩

theorem exists_rule_iff {n : Outline.Node} {tags : List String} {texts : List String}
    (hhttp : "http".toList <+: url.toList) (hblank : ∀ c ∈ url.toList, isBlank c = false)
    (hselects : s.Selects texts n tags) (htext : n.text = Link.heading url title)
    (hignored : s.ignoreTag ∉ tags) :
    (∃ rule ∈ (s.compileTexts texts).subscriptionRules, rule.feedUrl = url ∧
        rule.title = Link.shownTitle? title ∧ ∀ t, t ∈ rule.addTags ↔ t ∈ tags) ↔
      (']' ∈ url.toList → Link.shownTitle? title = none) := by
  constructor
  · rintro ⟨rule, hrule, rfl, htitle, -⟩ hbracket
    obtain ⟨m, tags', -, hmakes⟩ := Selection.mem_subscriptionRules_iff.1 hrule
    rw [← htitle]
    exact (hmakes.names.bracket hbracket).2
  · intro hkept
    refine ⟨⟨url, .ofList tags, Link.shownTitle? title⟩, ?_, rfl, rfl, by simp⟩
    refine Selection.mem_subscriptionRules_iff.2 ⟨n, tags, hselects, ?_⟩
    rw [htext]
    exact (subscriptionOf_heading_iff hhttp hblank).2 ⟨hkept, rfl, rfl, by simp, hignored⟩

/-- The heading that is written for a feed is read as this feed with the title that it shows, unless the
address holds a closing bracket and a title is shown; and so are the feeds of an imported list. -/
theorem recovered_iff {url : String} {title : Option String} (hhttp : "http".toList <+: url.toList)
    (hblank : ∀ c ∈ url.toList, isBlank c = false)
    (hbreak : ∀ t ∈ title, ∀ c ∈ t.toList, isBreak c = false) :
    (∀ tags keywords, (⟨Link.heading url title, tags⟩ : FlatEntry).classify? keywords =
        if ']' ∈ url.toList ∧ (Link.shownTitle? title).isSome then none
        else some (.subscription ⟨url, tags, Link.shownTitle? title⟩)) ∧
      ∀ (s : Selection) (document top : String) (root body : Markup.Node),
        isTag s.marker.toList = true → (∀ c ∈ top.toList, isBreak c = false) →
        Markup.read document = .ok root → (root.childrenNamed "body").head? = some body →
        (∀ o ∈ outlinesOf 1 body.children, forgedBy o = []) →
        ∃ outline, toOutline document s.marker top = .ok outline ∧
          ∀ env files path, Stores env files path outline →
            ∃ t, table s env files [path] = .ok t ∧
              ∀ o ∈ outlinesOf 1 body.children, IsFeed o url title →
                ∃ n tags, s.Selects [outline] n tags ∧ n.text = Link.heading url title ∧
                  (s.ignoreTag ∉ tags →
                    ((∃ rule ∈ t.subscriptionRules, rule.feedUrl = url ∧
                        rule.title = Link.shownTitle? title ∧ ∀ t', t' ∈ rule.addTags ↔ t' ∈ tags) ↔
                      (']' ∈ url.toList → Link.shownTitle? title = none))) := by
  refine ⟨fun tags keywords => classify?_heading hhttp hblank title tags keywords, ?_⟩
  intro s document top root body hmarker htop hread hbody hnone
  refine ⟨_, toOutline_eq hread hbody s.marker top, fun env files path hstores => ?_⟩
  refine ⟨_, Compile.table_eq_of_stores s (.cons hstores .nil), fun o ho hfeed => ?_⟩
  obtain ⟨n, tags, hselects, htext⟩ :=
    exists_selects_heading hhttp hblank hbreak hmarker htop hnone ho hfeed
  exact ⟨n, tags, hselects, htext, exists_rule_iff hhttp hblank hselects htext⟩

set_option maxRecDepth 2000 in
theorem recovered_iff_of_brackets :
    let url := "http://a.example/[x"
    let title := some "A [b] :c:"
    let document := "<opml><body><outline text=\"News\">" ++
      "<outline title=\" A [b] :c:\" xmlUrl=\"http://a.example/[x \"/></outline></body></opml>"
    let feed : Markup.Node := .element (.plain "outline")
      [(.plain "title", " A [b] :c:"), (.plain "xmlUrl", "http://a.example/[x ")] []
    let folder : Markup.Node := .element (.plain "outline") [(.plain "text", "News")] [feed]
    let body : Markup.Node := .element (.plain "body") [] [folder]
    let root : Markup.Node := .element (.plain "opml") [] [body]
    let outline := "* Imported feeds :elfeed:\n** News :news:\n*** [[http://a.example/[x][A (b) :c:]]\n"
    let files : FileTree := { entries := [(["a.org"], .file (encodeUtf8 outline))] }
    let s : Selection := {}
    ("http".toList <+: url.toList ∧ (∀ c ∈ url.toList, isBlank c = false) ∧
        ∀ t ∈ title, ∀ c ∈ t.toList, isBreak c = false) ∧
      (isTag s.marker.toList = true ∧ (∀ c ∈ "Imported feeds".toList, isBreak c = false) ∧
        Markup.read document = .ok root ∧ (root.childrenNamed "body").head? = some body ∧
        ∀ o ∈ outlinesOf 1 body.children, forgedBy o = []) ∧
      toOutline document s.marker "Imported feeds" = .ok outline ∧
      Stores {} files "a.org" outline ∧ (2, feed) ∈ outlinesOf 1 body.children ∧
      IsFeed (2, feed) url title ∧
      (⟨Link.heading url title, ["x"]⟩ : FlatEntry).classify? Keyword.all =
        some (.subscription ⟨url, ["x"], some "A (b) :c:"⟩) ∧
      ∃ t, table s {} files ["a.org"] = .ok t ∧
        ∃ rule ∈ t.subscriptionRules, rule.feedUrl = url ∧ rule.title = some "A (b) :c:" := by
  intro url title document feed folder body root outline files s
  have hhttp : "http".toList <+: url.toList := by decide
  have hblank : ∀ c ∈ url.toList, isBlank c = false := by decide
  have hbreak : ∀ t ∈ title, ∀ c ∈ t.toList, isBreak c = false := by
    intro t ht
    cases Option.some.inj ht
    decide
  have hmarker : isTag s.marker.toList = true := by decide
  have htop : ∀ c ∈ "Imported feeds".toList, isBreak c = false := by decide
  have hread : Markup.read document = .ok root := by
    unfold document root body folder feed
    rfl
  have hbody : (root.childrenNamed "body").head? = some body := rfl
  have hnone : ∀ o ∈ outlinesOf 1 body.children, forgedBy o = [] := by decide +kernel
  have hstores : Stores {} files "a.org" outline := ⟨_, rfl, by decide +kernel⟩
  have hfeed : IsFeed (2, feed) url title := by
    constructor <;> decide +kernel
  have hmem : (2, feed) ∈ outlinesOf 1 body.children := by
    simp [body, folder, feed, outlinesOf, outlinesAt, Markup.Node.children]
  obtain ⟨hclassify, himport⟩ := recovered_iff hhttp hblank hbreak
  obtain ⟨outline', houtline, hcompile⟩ := himport s document _ root body hmarker htop hread hbody hnone
  have hwritten : outline' = outline := by
    rw [← Except.ok.inj ((toOutline_eq hread hbody s.marker "Imported feeds").symm.trans houtline)]
    decide +kernel
  subst hwritten
  obtain ⟨t, ht, hrules⟩ := hcompile {} files "a.org" hstores
  obtain ⟨n, tags, hselects, htext, hiff⟩ := hrules (2, feed) hmem hfeed
  have hignored : ∀ e ∈ s.entriesOf ([outline].flatMap s.treesOf), s.ignoreTag ∉ e.tags := by
    decide +kernel
  obtain ⟨rule, hrule, hurl, htitle, -⟩ :=
    (hiff (hignored _ (Selection.mem_entriesOf_texts_iff.2 ⟨n, tags, hselects, rfl⟩))).2 (by decide)
  refine ⟨⟨hhttp, hblank, hbreak⟩, ⟨hmarker, htop, hread, hbody, hnone⟩, houtline, hstores, hmem, hfeed,
    ?_, t, ht, rule, hrule, hurl, ?_⟩
  · rw [hclassify]
    decide +kernel
  · rw [htitle]
    decide +kernel

/-- A feed at a numeric address of the sixth version is lost, as the address holds a closing bracket. -/
theorem bracketed_feed_lost :
    let url := "http://[::1]/feed"
    let document := "<opml><body><outline text=\"T\" xmlUrl=\"http://[::1]/feed\"/></body></opml>"
    let outline := "* Imported feeds :elfeed:\n** [[http://[::1]/feed][T]]\n"
    ("http".toList <+: url.toList ∧ (∀ c ∈ url.toList, isBlank c = false) ∧
        ∀ c ∈ "T".toList, isBreak c = false) ∧
      Link.shownTitle? (some "T") = some "T" ∧
      (⟨Link.heading url (some "T"), []⟩ : FlatEntry).classify? Keyword.all ≠
        some (.subscription ⟨url, [], some "T"⟩) ∧
      toOutline document "elfeed" "Imported feeds" = .ok outline ∧
      (Selection.compileTexts {} [outline]).subscriptionRules = [] := by
  intro url document outline
  let feed : Markup.Node :=
    .element (.plain "outline") [(.plain "text", "T"), (.plain "xmlUrl", "http://[::1]/feed")] []
  have hread : Markup.read document =
      .ok (.element (.plain "opml") [] [.element (.plain "body") [] [feed]]) := by
    unfold document feed
    rfl
  have houtline : toOutline document "elfeed" "Imported feeds" = .ok outline := by
    rw [toOutline_eq hread rfl]
    decide +kernel
  exact ⟨by decide, by decide, by decide +kernel, houtline, by decide +kernel⟩

end Opml

end FeedOutline
