import FeedOutline.Proofs.Classified.Named
import FeedOutline.Proofs.Compile.Ignored
import FeedOutline.Proofs.Compile.Union
import FeedOutline.Proofs.Flat.Paths
import FeedOutline.Proofs.LastGives
import FeedOutline.Proofs.Opml.Items
import FeedOutline.Proofs.Outline.Declared
import FeedOutline.Proofs.RuleTable.Feeds

/-!
The title of a feed. The last one counts, in the order in which the headings come from the marked ones and not in
that of the lines; and a heading that comes again with the same text and tags is passed over.
-/
namespace FeedOutline

open Compile (Holds table)
open Disk (FileTree)
open Outline (Leads Node pathsAll walkAll)
open Text

namespace Selection

variable {s : Selection} {texts : List String} {url title : String}

def Titles (s : Selection) (url : String) (e : FlatEntry) (title : String) : Prop :=
  ∃ rule, SubscriptionOf s e.heading e.tags rule ∧ rule.feedUrl = url ∧ rule.title = some title

/-- The headings at and below each marked one, marked ones in the order of the lines, with the tags declared on the
way from there. -/
def visited (s : Selection) (text : String) : List FlatEntry :=
  (s.treesOf text).flatMap fun r => (r.paths []).map fun path => (FlatEntry.atEnd path).withoutTag s.marker

def TrailTitles (s : Selection) (url : String) (trail : List Node) (title : String) : Prop :=
  ∃ h rule, trail.getLast? = some h ∧ s.Contributes trail h (.subscription rule) ∧ rule.feedUrl = url ∧
    rule.title = some title

/-! Tables. -/

theorem flatEntries_eq (s : Selection) (text : String) : s.flatEntries text = s.visited text := by
  unfold flatEntries visited
  rw [List.map_flatMap]
  apply List.flatMap_congr
  intro r hr
  obtain ⟨-, hflatten, -⟩ := flatten_eq_map_paths hr
  rw [hflatten, List.map_map]
  rfl

def titleFor? (s : Selection) (url : String) (e : FlatEntry) : Option String :=
  (s.subscriptionRule? e).bind fun rule => if rule.feedUrl = url then rule.title else none

theorem titles_iff {e : FlatEntry} : s.Titles url e title ↔ s.titleFor? url e = some title := by
  simp only [Titles, titleFor?, Option.bind_eq_some_iff, ← subscriptionRule?_eq_some_iff]
  constructor
  · rintro ⟨rule, hrule, hurl, htitle⟩
    exact ⟨rule, hrule, by rw [if_pos hurl, htitle]⟩
  · rintro ⟨rule, hrule, htitle⟩
    split at htitle
    · next hurl => exact ⟨rule, hrule, hurl, htitle⟩
    · cases htitle

theorem shownTitle?_of_subscriptionOf {heading : String} {tags : List String} {rule : SubscriptionRule}
    (h : SubscriptionOf s heading tags rule) : rule.shownTitle? = rule.title := by
  rw [SubscriptionRule.shownTitle?]
  cases htitle : rule.title with
  | none => rfl
  | some t =>
    have hne := (h.names.of_title t htitle).1
    simp [Option.filter_some, hne]

theorem lookup_titles_compileTexts (s : Selection) (texts : List String) (url : String) :
    (s.compileTexts texts).titles.lookup url =
      ((texts.flatMap s.visited).eraseDups.filterMap (s.titleFor? url)).getLast? := by
  have hentry : ∀ e, (s.subscriptionRule? e).bind (fun rule =>
      if rule.feedUrl = url then rule.shownTitle? else none) = s.titleFor? url e := by
    intro e
    rw [titleFor?]
    cases hrule : s.subscriptionRule? e with
    | none => rfl
    | some rule =>
      have hshown := shownTitle?_of_subscriptionOf (subscriptionRule?_eq_some_iff.1 hrule)
      simp [hshown]
  have hvisited : texts.flatMap s.flatEntries = texts.flatMap s.visited :=
    List.flatMap_congr fun text _ => s.flatEntries_eq text
  rw [RuleTable.lookup_titles, compileTexts, subscriptionRules_tableOf, entriesOf_treesOf, hvisited, rulesOf,
    List.filterMap_filter, List.filterMap_filterMap]
  simp only [decide_eq_true_eq, hentry]

/-! Trails. -/

/-- No marked heading stands below another one. -/
def MarksApart (s : Selection) (ns : List Node) : Prop :=
  ∀ r ∈ walkAll ns, s.Marks r → ∀ n ∈ walkAll r.children, ¬ s.Marks n

instance (s : Selection) (n : Node) : Decidable (s.Marks n) :=
  decidable_of_iff _ isMarked_iff

instance (s : Selection) (ns : List Node) : Decidable (s.MarksApart ns) :=
  inferInstanceAs (Decidable (∀ r ∈ walkAll ns, s.Marks r → ∀ n ∈ walkAll r.children, ¬ s.Marks n))

def ofTrail? (s : Selection) (trail : List Node) : Option FlatEntry :=
  match trail.dropWhile (!·.isMarked s.marker) with
  | [] => none
  | r :: path => some ((FlatEntry.atEnd (r :: path)).withoutTag s.marker)

variable {ns above path : List Node} {n r h : Node}

theorem ofTrail?_of_marks (habove : ∀ n ∈ above, ¬ s.Marks n) (hr : s.Marks r) (path : List Node) :
    s.ofTrail? (above ++ r :: path) = some ((FlatEntry.atEnd (r :: path)).withoutTag s.marker) := by
  have hdrop : (above ++ r :: path).dropWhile (!·.isMarked s.marker) = r :: path := by
    apply dropWhile_append_stop
    · simpa [← isMarked_iff] using habove
    · simpa [← isMarked_iff] using hr
  rw [ofTrail?, hdrop]

theorem ofTrail?_of_not_marks (habove : ∀ n ∈ above, ¬ s.Marks n) : s.ofTrail? above = none := by
  have hdrop : above.dropWhile (!·.isMarked s.marker) = [] := by
    rw [List.dropWhile_eq_nil_iff]
    simpa [← isMarked_iff] using habove
  rw [ofTrail?, hdrop]

theorem exists_of_ofTrail? {trail : List Node} {e : FlatEntry} (h : s.ofTrail? trail = some e) :
    ∃ above r path, trail = above ++ r :: path ∧ s.Marks r ∧
      e = (FlatEntry.atEnd (r :: path)).withoutTag s.marker := by
  unfold ofTrail? at h
  split at h
  · cases h
  · next r path hdrop =>
    have hfirst := head?_dropWhile (p := fun n : Node => !n.isMarked s.marker) (s := trail)
    rw [hdrop] at hfirst
    refine ⟨trail.takeWhile (!·.isMarked s.marker), r, path, ?_, by simpa [← isMarked_iff] using hfirst,
      (Option.some.inj h).symm⟩
    rw [← hdrop, List.takeWhile_append_dropWhile]

theorem MarksApart.cons_iff : s.MarksApart (n :: ns) ↔
    (s.Marks n → ∀ m ∈ walkAll n.children, ¬ s.Marks m) ∧ s.MarksApart n.children ∧ s.MarksApart ns := by
  simp only [MarksApart, Outline.walkAll_cons, List.forall_mem_cons, List.forall_mem_append]

/-- Where no marked heading stands below another one, the headings come in the order of the lines. -/
theorem flatMap_paths_eq (hns : s.MarksApart ns) (habove : ∀ n ∈ above, ¬ s.Marks n) :
    ((walkAll ns).filter (·.isMarked s.marker)).flatMap
        (fun r => (r.paths []).map fun path => (FlatEntry.atEnd path).withoutTag s.marker) =
      (pathsAll above ns).filterMap s.ofTrail? := by
  induction ns using Outline.forest_induction generalizing above with
  | nil => simp [pathsAll]
  | cons n ns ihc ihs =>
    obtain ⟨hbelow, hchildren, hbeside⟩ := MarksApart.cons_iff.1 hns
    rw [Outline.walkAll_cons, List.filter_cons, List.filter_append, pathsAll, List.filterMap_append,
      ← ihs hbeside habove]
    by_cases hn : s.Marks n
    · have hnone : (walkAll n.children).filter (·.isMarked s.marker) = [] := by
        rw [List.filter_eq_nil_iff]
        exact fun m hm => mt isMarked_iff.1 (hbelow hn m hm)
      have hpaths : (n.paths above).filterMap s.ofTrail? =
          (n.paths []).map fun path => (FlatEntry.atEnd path).withoutTag s.marker := by
        rw [n.paths_above above, List.filterMap_map, ← List.filterMap_eq_map]
        apply List.filterMap_congr
        intro path hpath
        obtain ⟨below, rfl⟩ := n.exists_of_mem_paths hpath
        exact ofTrail?_of_marks habove hn below
      rw [if_pos (isMarked_iff.2 hn), hnone, List.nil_append, List.flatMap_cons, hpaths]
    · have habove' : ∀ m ∈ above ++ [n], ¬ s.Marks m :=
        List.forall_mem_append.2 ⟨habove, List.forall_mem_singleton.2 hn⟩
      rw [if_neg (mt isMarked_iff.1 hn), List.flatMap_append, ihc hchildren habove', Outline.Node.paths_eq,
        List.filterMap_cons, ofTrail?_of_not_marks habove']

theorem flatMap_visited_eq (hapart : ∀ text ∈ texts, s.MarksApart (Outline.parse text)) :
    texts.flatMap s.visited =
      (texts.flatMap fun text => pathsAll [] (Outline.parse text)).filterMap s.ofTrail? := by
  rw [List.filterMap_flatMap]
  apply List.flatMap_congr
  intro text htext
  exact flatMap_paths_eq (hapart text htext) (by simp)

theorem not_marks_above {top : Node} (hns : s.MarksApart ns) (htop : top ∈ ns)
    (htrail : Leads top (above ++ r :: path) h) (hr : s.Marks r) : ∀ n ∈ above, ¬ s.Marks n := by
  intro n hn hmarks
  obtain ⟨before, between, rfl⟩ := List.append_of_mem hn
  rw [List.append_assoc, List.cons_append] at htrail
  obtain ⟨hbefore, hbelow⟩ := htrail.of_append
  have hmem : n ∈ walkAll ns := Outline.mem_walkAll_iff.2 ⟨top, htop, _, hbefore⟩
  obtain ⟨-, ⟨hnil, -⟩ | ⟨c, hc, hpath⟩⟩ := Leads.cons_iff.1 hbelow
  · simp at hnil
  · have hchild : c ∈ walkAll n.children := Outline.mem_walkAll_iff.2 ⟨c, hc, _, .here c⟩
    exact hns n hmem hmarks r (Outline.mem_walkAll_of_leads hchild hpath r (by simp)) hr

theorem trailTitles_iff {trail : List Node} : s.TrailTitles url trail title ↔
    ∃ above r path, trail = above ++ r :: path ∧ s.Marks r ∧
      s.Titles url ((FlatEntry.atEnd (r :: path)).withoutTag s.marker) title := by
  constructor
  · rintro ⟨h, rule, hlast, ⟨above, r, path, rfl, hr, hmakes⟩, hurl, htitle⟩
    refine ⟨above, r, path, rfl, hr, rule, ?_, hurl, htitle⟩
    rw [List.getLast?_append_of_ne_nil _ (List.cons_ne_nil r path)] at hlast
    have hheading : (FlatEntry.atEnd (r :: path)).heading = h.text := by simp [FlatEntry.atEnd, hlast]
    rw [← hheading] at hmakes
    exact hmakes
  · rintro ⟨above, r, path, rfl, hr, rule, hrule, hurl, htitle⟩
    obtain ⟨h, hlast⟩ := List.getLast?_isSome.2 (List.cons_ne_nil r path) |> Option.isSome_iff_exists.1
    have hheading : (FlatEntry.atEnd (r :: path)).heading = h.text := by simp [FlatEntry.atEnd, hlast]
    refine ⟨h, rule, ?_, ⟨above, r, path, rfl, hr, ?_⟩, hurl, htitle⟩
    · rw [List.getLast?_append_of_ne_nil _ (List.cons_ne_nil r path), hlast]
    · rw [← hheading]
      exact hrule

theorem trailTitles_iff_of_marksApart {trail : List Node} (hns : s.MarksApart ns)
    (htrail : trail ∈ pathsAll [] ns) :
    s.TrailTitles url trail title ↔ ∃ e, s.ofTrail? trail = some e ∧ s.Titles url e title := by
  obtain ⟨top, htop, m, hleads⟩ := Outline.exists_leads_of_mem_pathsAll htrail
  rw [trailTitles_iff]
  constructor
  · rintro ⟨above, r, path, rfl, hr, htitles⟩
    exact ⟨_, ofTrail?_of_marks (not_marks_above hns htop hleads hr) hr path, htitles⟩
  · rintro ⟨e, he, htitles⟩
    obtain ⟨above, r, path, rfl, hr, rfl⟩ := exists_of_ofTrail? he
    exact ⟨above, r, path, rfl, hr, htitles⟩

/-- The last title in the order of the lines is the one that counts, if the headings come in this order and each
counts. -/
theorem lastGives_trails_iff (hapart : ∀ text ∈ texts, s.MarksApart (Outline.parse text))
    (honce : (texts.flatMap s.visited).Pairwise fun e e' => (∃ title, s.Titles url e title) → e ≠ e') :
    LastGives (s.Titles url) (texts.flatMap s.visited).eraseDups title ↔
      LastGives (s.TrailTitles url) (texts.flatMap fun text => pathsAll [] (Outline.parse text)) title := by
  rw [LastGives.eraseDups_iff honce, flatMap_visited_eq hapart, LastGives.filterMap_iff]
  apply LastGives.congr_iff
  intro trail htrail title
  obtain ⟨text, htext, htrail⟩ := List.mem_flatMap.1 htrail
  exact (trailTitles_iff_of_marksApart (hapart text htext) htrail).symm

end Selection

/-! Lists. -/

theorem Opml.filter_feedNodes {t : RuleTable} {url : String} (h : url ∈ t.feedUrls) :
    (feedNodes t).filter (·.attribute? "xmlUrl" == some url) =
      [feedNode url (t.titles.lookup url) (tagsOf (rulesOf t.subscriptionRules url))] := by
  rw [RuleTable.feedUrls_eq] at h
  rw [feedNodes, tagsByFeed_eq, List.map_map, List.filter_map]
  exact congrArg (List.map fun u =>
    feedNode u (t.titles.lookup u) (tagsOf (rulesOf t.subscriptionRules u))) (filter_urlsOf h)

namespace Compile

/-- The title of a feed is the last that the headings give, as they come from the marked headings and without
repetitions. This is the last in the order of the lines if no marked heading stands below another one and no
heading with a title for the feed is repeated. -/
theorem lookup_titles_iff {env : Environment} {files : FileTree} {documents texts : List String}
    (s : Selection) (h : List.Forall₂ (Holds env files) documents texts) :
    ∃ t, table s env files documents = .ok t ∧
      (∀ url title, t.titles.lookup url = some title ↔
        LastGives (s.Titles url) (texts.flatMap s.visited).eraseDups title) ∧
      ((∀ text ∈ texts, s.MarksApart (Outline.parse text)) → ∀ url,
        (texts.flatMap s.visited).Pairwise (fun e e' => (∃ title, s.Titles url e title) → e ≠ e') →
        ∀ title, t.titles.lookup url = some title ↔ LastGives (s.TrailTitles url)
          (texts.flatMap fun text => pathsAll [] (Outline.parse text)) title) ∧
      ∀ top, ∃ body, (Opml.rootNode t top).childrenNamed "body" = [body] ∧
        ∀ url ∈ t.feedUrls, ∃ n, body.children.filter (·.attribute? "xmlUrl" == some url) = [n] ∧
          n.attribute? "text" = some ((t.titles.lookup url).getD url) ∧
          n.attribute? "title" = some ((t.titles.lookup url).getD url) := by
  have hlookup : ∀ url title, (s.compileTexts texts).titles.lookup url = some title ↔
      LastGives (s.Titles url) (texts.flatMap s.visited).eraseDups title := by
    intro url title
    have hgives : ∀ e title, s.Titles url e title ↔ s.titleFor? url e = some title :=
      fun _ _ => Selection.titles_iff
    rw [s.lookup_titles_compileTexts, LastGives.iff_getLast? hgives]
  refine ⟨_, table_eq s h, hlookup, fun hapart url honce title => ?_, fun top => ⟨_, rfl, fun url hurl => ?_⟩⟩
  · rw [hlookup, Selection.lastGives_trails_iff hapart honce]
  · exact ⟨_, Opml.filter_feedNodes hurl, rfl, rfl⟩

/-- A feed that is named in both documents, at last without a title. -/
theorem lookup_titles_iff_of_renamed :
    let a := "* Feeds :elfeed:\n** [[http://a.example][Old]]\n"
    let b := "* More :elfeed:\n** [[http://a.example][New]]\n** http://a.example\n"
    let files : FileTree := { entries := [(["a.org"], .file (encodeUtf8 a)), (["b.org"], .file (encodeUtf8 b))] }
    let s : Selection := {}
    List.Forall₂ (Holds {} files) ["a.org", "b.org"] [a, b] ∧
      (∀ text ∈ [a, b], s.MarksApart (Outline.parse text)) ∧
      (∀ url, ([a, b].flatMap s.visited).Pairwise fun e e' => (∃ title, s.Titles url e title) → e ≠ e') ∧
      ∃ t, table s {} files ["a.org", "b.org"] = .ok t ∧
        t.titles = [("http://a.example", "New")] ∧
        (∀ url title, t.titles.lookup url = some title ↔
          LastGives (s.Titles url) ([a, b].flatMap s.visited).eraseDups title) ∧
        (∀ url title, t.titles.lookup url = some title ↔ LastGives (s.TrailTitles url)
          ([a, b].flatMap fun text => pathsAll [] (Outline.parse text)) title) ∧
        ∃ body, (Opml.rootNode t "Feeds").childrenNamed "body" = [body] ∧
          ∀ url ∈ ["http://a.example"], ∃ n,
            body.children.filter (·.attribute? "xmlUrl" == some url) = [n] ∧
            n.attribute? "text" = some ((t.titles.lookup url).getD url) ∧
            n.attribute? "title" = some ((t.titles.lookup url).getD url) := by
  intro a b files s
  have hholds : List.Forall₂ (Holds {} files) ["a.org", "b.org"] [a, b] :=
    .cons ⟨_, rfl, by decide +kernel⟩ (.cons ⟨_, rfl, by decide +kernel⟩ .nil)
  have hapart : ∀ text ∈ [a, b], s.MarksApart (Outline.parse text) := by decide +kernel
  have hnodup : ([a, b].flatMap s.visited).Nodup := by decide +kernel
  have honce : ∀ url, ([a, b].flatMap s.visited).Pairwise
      fun e e' => (∃ title, s.Titles url e title) → e ≠ e' := by
    intro url
    refine List.Pairwise.imp ?_ hnodup
    intro e e' hne _
    exact hne
  obtain ⟨t, ht, hvisited, htrails, hexport⟩ := lookup_titles_iff s hholds
  have htexts : t = s.compileTexts [a, b] := Except.ok.inj (ht.symm.trans (table_eq s hholds))
  have hurls : t.feedUrls = ["http://a.example"] := by
    rw [htexts]
    decide +kernel
  rw [← hurls]
  refine ⟨hholds, hapart, honce, t, ht, ?_, hvisited, fun url => htrails hapart url (honce url),
    hexport "Feeds"⟩
  rw [htexts]
  decide +kernel

/-- The last title of the feed does not count: in the first document it repeats a heading further up, in the
second one the heading with the other title comes once more, from the marked heading above it. -/
theorem last_title_undone :
    let repeated := "* Feeds :elfeed:\n** [[http://a.example][Old]]\n** [[http://a.example][New]]\n" ++
      "** [[http://a.example][Old]]\n"
    let nested := "* Feeds :elfeed:x:\n** Sub :elfeed:\n*** [[http://a.example][Old]]\n" ++
      "** [[http://a.example][New]]\n"
    let files : FileTree := { entries := [(["a.org"], .file (encodeUtf8 repeated)), (["b.org"], .file (encodeUtf8 nested))] }
    let s : Selection := {}
    let Last (text title : String) : Prop :=
      LastGives (s.TrailTitles "http://a.example") (pathsAll [] (Outline.parse text)) title
    (∃ t, table s {} files ["a.org"] = .ok t ∧ t.titles.lookup "http://a.example" = some "New" ∧
      Last repeated "Old") ∧
    ∃ t, table s {} files ["b.org"] = .ok t ∧ t.titles.lookup "http://a.example" = some "Old" ∧
      Last nested "New" := by
  intro repeated nested files s Last
  have hrepeated : Holds {} files "a.org" repeated := ⟨_, rfl, by decide +kernel⟩
  have hnested : Holds {} files "b.org" nested := ⟨_, rfl, by decide +kernel⟩
  have hbelow : ∀ text title r h before,
      pathsAll [] (Outline.parse text) = before ++ [[r, h]] → s.Marks r →
      s.titleFor? "http://a.example" ((FlatEntry.atEnd [r, h]).withoutTag s.marker) = some title →
      Last text title := by
    intro text title r h before hpaths hr htitle
    have hgives : s.TrailTitles "http://a.example" [r, h] title :=
      Selection.trailTitles_iff.2 ⟨[], r, [h], rfl, hr, Selection.titles_iff.2 htitle⟩
    exact ⟨before, [r, h], [], hpaths, hgives, by simp⟩
  let old (level : Int) : Node := ⟨"[[http://a.example][Old]]", level, [], none, []⟩
  let new : Node := ⟨"[[http://a.example][New]]", 2, [], none, []⟩
  refine ⟨⟨_, table_eq s (.cons hrepeated .nil), by decide +kernel, ?_⟩,
    _, table_eq s (.cons hnested .nil), by decide +kernel, ?_⟩
  · let r : Node := ⟨"Feeds", 1, ["elfeed"], none, [old 2, new, old 2]⟩
    have hread : List.Forall₂ (fun l hd => Outline.Heading.ofLine? l = some hd) (lines repeated.toList)
        [⟨"Feeds", 1, ["elfeed"]⟩, ⟨"[[http://a.example][Old]]", 2, []⟩,
          ⟨"[[http://a.example][New]]", 2, []⟩, ⟨"[[http://a.example][Old]]", 2, []⟩] := by decide +kernel
    have hforest : Outline.Nested [r] := by
      simp [Outline.Nested.cons_iff, Outline.Nested.nil, r, old, new]
    refine hbelow _ _ r (old 2) [[r], [r, old 2], [r, new]] ?_ (by decide) (by decide)
    rw [Outline.parse_eq hread hforest rfl]
    rfl
  · let sub : Node := ⟨"Sub", 2, ["elfeed"], none, [old 3]⟩
    let r : Node := ⟨"Feeds", 1, ["elfeed", "x"], none, [sub, new]⟩
    have hread : List.Forall₂ (fun l hd => Outline.Heading.ofLine? l = some hd) (lines nested.toList)
        [⟨"Feeds", 1, ["elfeed", "x"]⟩, ⟨"Sub", 2, ["elfeed"]⟩, ⟨"[[http://a.example][Old]]", 3, []⟩,
          ⟨"[[http://a.example][New]]", 2, []⟩] := by decide +kernel
    have hforest : Outline.Nested [r] := by
      simp [Outline.Nested.cons_iff, Outline.Nested.nil, r, sub, old, new]
    refine hbelow _ _ r new [[r], [r, sub], [r, sub, old 3]] ?_ (by decide) (by decide)
    rw [Outline.parse_eq hread hforest rfl]
    rfl

end Compile

end FeedOutline
