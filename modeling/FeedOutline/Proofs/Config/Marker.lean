import FeedOutline.Proofs.Compile.Ignored
import FeedOutline.Proofs.Opml.Marked

/-!
What a configured tag does in outlines. The configuration accepts tags that no heading can carry: with
such a marker an imported list is not found again, and such an ignore tag ignores nothing.
-/
namespace FeedOutline

open Config (Accepted)
open Outline (Heading Node Leads Nested annotated marked parse walkAll)
open Text

variable {marker tag : String}

/-! On a heading, and on an imported list. -/

theorem exists_parse_annotated_iff (h : Accepted tag) {text : String}
    (htext : ∀ c ∈ text.toList, isBreak c = false) :
    ∃ n, parse ("* " ++ text ++ " :" ++ tag ++ ":") = [n] ∧ n.children = [] ∧
      (tag ∈ n.tags ↔ isTag tag.toList = true) ∧ (marked tag [n] = [n] ↔ isTag tag.toList = true) := by
  obtain ⟨shown, hparse⟩ := Outline.exists_parse_annotated h htext
  refine ⟨_, hparse, rfl, ?_, ?_⟩ <;>
    by_cases htag : isTag tag.toList = true <;> simp [htag, marked, Node.isMarked]

theorem exists_imported_tree_iff (h : Accepted marker) {heading document outline : String}
    (hheading : ∀ c ∈ heading.toList, isBreak c = false)
    (houtline : Opml.toOutline document marker heading = .ok outline) :
    ∃ tree trees, parse outline = tree :: trees ∧ tree.level = 1 ∧
      (tree ∈ marked marker (parse outline) ↔ isTag marker.toList = true) := by
  obtain ⟨items, -, hitems⟩ := bind_eq_ok.1 houtline
  cases Except.ok.inj hitems
  obtain ⟨tree, trees, hparse, hlevel, hid, htags⟩ := Opml.exists_tree_outlineOf h hheading items
  have htree : tree ∈ walkAll (parse (Opml.outlineOf marker heading items)) := by
    rw [hparse, Outline.walkAll_cons]
    exact List.mem_cons_self ..
  refine ⟨tree, trees, hparse, hlevel, ?_⟩
  rw [marked, List.mem_filter, and_iff_right htree]
  by_cases htag : isTag marker.toList = true <;> simp [Node.isMarked, hid, htags, htag]

/-! On an ignored heading. -/

def ignoredText (marker tag : String) : String :=
  joined "\n" [String.ofList (annotated 1 "Feeds" marker), String.ofList (annotated 2 "entry-title: A" tag)] ++
    "\n"

theorem ofLine?_entryTitle (h : Accepted tag) : Heading.ofLine? (annotated 2 "entry-title: A" tag) =
    some ⟨Outline.shownText "entry-title: A" tag, 2, if isTag tag.toList then [tag] else []⟩ :=
  Outline.ofLine?_annotated Nat.two_pos h (by decide) (by decide)

theorem parse_ignoredText (hmarker : isTag marker.toList = true) (h : Accepted tag) :
    parse (ignoredText marker tag) = [⟨"Feeds", 1, [marker], none,
      [⟨Outline.shownText "entry-title: A" tag, 2, if isTag tag.toList then [tag] else [], none, []⟩]⟩] := by
  have hfirst : Heading.ofLine? (annotated 1 "Feeds" marker) = some ⟨"Feeds", 1, [marker]⟩ := by
    rw [Outline.ofLine?_annotated Nat.one_pos (Config.accepted_of_isTag hmarker) (by decide) (by decide),
      if_pos hmarker, Outline.shownText, if_pos hmarker]
  have hsecond := ofLine?_entryTitle h
  have hbreak : ∀ l ∈ [String.ofList (annotated 1 "Feeds" marker),
      String.ofList (annotated 2 "entry-title: A" tag)], ∀ c ∈ l.toList, isBreak c = false := by
    simp only [List.forall_mem_cons, String.toList_ofList]
    exact ⟨Outline.isBreak_annotated (Config.accepted_of_isTag hmarker) (by decide),
      Outline.isBreak_annotated h (by decide), by simp⟩
  have hlines : lines (ignoredText marker tag).toList =
      [annotated 1 "Feeds" marker, annotated 2 "entry-title: A" tag] := by
    rw [ignoredText, lines_joined (List.cons_ne_nil _ _) hbreak]
    simp
  have hread := List.Forall₂.cons (R := fun l hd => Heading.ofLine? l = some hd) hfirst
    (.cons hsecond .nil)
  rw [← hlines] at hread
  refine Outline.parse_eq hread ?_ ?_
  · exact Nested.singleton_iff.2 ⟨by simp, Nested.singleton_iff.2 ⟨by simp, .nil⟩⟩
  · simp [Heading.node, Node.bare]

namespace Selection

variable {s : Selection}

theorem not_contributes_of_annotated (htag : isTag s.ignoreTag.toList = true)
    (hne : s.ignoreTag ≠ s.marker) {top h : Node} {trail : List Node} (htrail : Leads top trail h)
    {stars : Nat} {text : String} (hstars : 0 < stars)
    (hline : h.Shows (annotated stars text s.ignoreTag)) (rule : Rule) : ¬ s.Contributes trail h rule := by
  intro hcontributes
  obtain ⟨shown, hread⟩ :=
    Outline.exists_ofLine?_annotated hstars (Config.accepted_of_isTag htag) text
  rw [if_pos htag, hline.heading, Option.some.injEq, Heading.mk.injEq] at hread
  obtain ⟨-, above, r, path, heq, -, hignored⟩ :=
    (exists_contributes_iff hne).1 ⟨rule, hcontributes⟩
  have hmem : h ∈ r :: path := by
    have hlast := htrail.getLast?_eq
    rw [heq, List.getLast?_append_of_ne_nil _ (List.cons_ne_nil _ _)] at hlast
    exact List.mem_of_getLast? hlast
  exact hignored h hmem (by simp [hread.2.2])

theorem exists_makes_entryTitle (hkeyword : Keyword.entryTitle ∈ s.keywords) {text : String}
    (htext : "entry-title: A".toList <+: text.toList) : ∃ rule, s.Makes text [] rule := by
  obtain ⟨rest, hrest⟩ := htext
  have hstart : "entry-title: A".toList = Keyword.entryTitle.start ++ " A".toList := by decide
  refine ⟨.keyword ⟨.entryTitle, String.ofList (trim (" A".toList ++ rest)), .empty⟩, by simp, hkeyword,
    ⟨" A".toList ++ rest, ?_, by simp⟩, fun hempty => ?_, by simp⟩
  · rw [← hrest, hstart, List.append_assoc]
  · have hblank := trim_eq_nil_iff.1 (String.ofList_eq_empty_iff.1 hempty) 'A' (by simp)
    exact absurd hblank (by decide)

theorem exists_contributes_of_annotated (hkeyword : Keyword.entryTitle ∈ s.keywords)
    (hmarker : isTag s.marker.toList = true) (h : Accepted s.ignoreTag)
    (hnot : ¬ (isTag s.ignoreTag.toList = true ∧ s.ignoreTag ≠ s.marker)) :
    ∃ text, ∃ top ∈ parse text, ∃ trail n, Leads top trail n ∧
      n.Shows (annotated 2 "entry-title: A" s.ignoreTag) ∧ ∃ rule, s.Contributes trail n rule := by
  have hparse := parse_ignoredText hmarker h
  have hread := ofLine?_entryTitle h
  obtain ⟨n, hn⟩ : ∃ n : Node, n = ⟨Outline.shownText "entry-title: A" s.ignoreTag, 2,
      if isTag s.ignoreTag.toList then [s.ignoreTag] else [], none, []⟩ := ⟨_, rfl⟩
  have hstart : "entry-title: A".toList <+: n.text.toList := hn ▸ Outline.prefix_shownText _ _
  rw [← hn] at hparse
  have hignored : s.ignoreTag ∉ s.pathTags [⟨"Feeds", 1, [s.marker], none, [n]⟩, n] := by
    rw [mem_pathTags_iff]
    rintro ⟨⟨m, hm, htag⟩, hne⟩
    have hplain : isTag s.ignoreTag.toList = false := by simpa [hne] using hnot
    simp only [List.mem_cons, List.not_mem_nil, or_false] at hm
    rcases hm with rfl | rfl
    · exact hne (List.mem_singleton.1 htag)
    · simp [hn, hplain] at htag
  obtain ⟨rule, hrule⟩ := exists_makes_iff.2
    ⟨hignored, exists_makes_entryTitle hkeyword hstart⟩
  refine ⟨_, _, by rw [hparse]; exact List.mem_cons_self .., _, n, .down (by simp) (.here n), ?_, rule,
    [], _, [n], rfl, .inl (by simp), hrule⟩
  rw [hn]
  exact ⟨hread, 2, rfl, Outline.hasStars_of_ofLine? hread⟩

end Selection

namespace Config

/-- A tag that the configuration accepts is read on a heading exactly if it is made of the characters of
tags; so is the marker on an imported list, and so is what ignores a heading, if it is not the marker. -/
theorem tag_works_iff {m : Data.Mapping} {c : Config} (h : check m = .ok c) :
    let s : Selection := ⟨c.outline.treeId.shown, c.outline.ignoreTag.shown, Keyword.all⟩
    (∀ tag ∈ [s.marker, s.ignoreTag], ∀ text : String, (∀ d ∈ text.toList, isBreak d = false) →
      ∃ n, parse ("* " ++ text ++ " :" ++ tag ++ ":") = [n] ∧ n.children = [] ∧
        (tag ∈ n.tags ↔ isTag tag.toList = true) ∧ (marked tag [n] = [n] ↔ isTag tag.toList = true)) ∧
    (∀ heading document outline : String, (∀ d ∈ heading.toList, isBreak d = false) →
      Opml.toOutline document s.marker heading = .ok outline →
      ∃ tree trees, parse outline = tree :: trees ∧ tree.level = 1 ∧
        (tree ∈ marked s.marker (parse outline) ↔ isTag s.marker.toList = true)) ∧
    (isTag s.marker.toList = true →
      ((∀ text, ∀ top ∈ parse text, ∀ trail n, Leads top trail n → ∀ stars words, 0 < stars →
          n.Shows (annotated stars words s.ignoreTag) → ∀ rule, ¬ s.Contributes trail n rule) ↔
        isTag s.ignoreTag.toList = true ∧ s.ignoreTag ≠ s.marker)) := by
  intro s
  obtain ⟨hmarker, hignore⟩ := (accepted_of_check h).imp Accepted.shown Accepted.shown
  refine ⟨?_, ?_, fun htag => ⟨fun hnone => ?_, ?_⟩⟩
  · simp only [List.forall_mem_cons]
    exact ⟨fun text => exists_parse_annotated_iff hmarker, fun text => exists_parse_annotated_iff hignore,
      by simp⟩
  · exact fun heading document outline => exists_imported_tree_iff hmarker
  · by_contra hnot
    have hkeyword : Keyword.entryTitle ∈ Keyword.all := by simp [Keyword.all]
    obtain ⟨text, top, htop, trail, n, htrail, hshows, rule, hrule⟩ :=
      Selection.exists_contributes_of_annotated hkeyword htag hignore hnot
    exact hnone text top htop trail n htrail 2 _ Nat.two_pos hshows rule hrule
  · rintro ⟨htag, hne⟩ text top - trail n htrail stars words hstars hshows rule
    exact Selection.not_contributes_of_annotated htag hne htrail hstars hshows rule

/-- An accepted ignore tag that no heading carries, and a feed below it that is subscribed. -/
theorem accepted_tag_lost :
    let m : Data.Mapping := [(.text "outline", .map [(.text "ignore_tag", .text "no-feed")])]
    let document := "* Feeds :elfeed:\n** News :no-feed:\n*** http://a.example\n"
    ∃ c, check m = .ok c ∧ c.outline.ignoreTag = "no-feed" ∧
      (∃ n, parse ("* " ++ "News" ++ " :" ++ "no-feed" ++ ":") = [n] ∧ "no-feed" ∉ n.tags) ∧
      (Selection.compileTexts ⟨c.outline.treeId.shown, c.outline.ignoreTag.shown, Keyword.all⟩ [document]).feedUrls =
        ["http://a.example"] := by
  intro m document
  let c : Config := { outline := { ignoreTag := "no-feed" } }
  have hcheck : check m = .ok c := by decide +kernel
  have hbreak : ∀ d ∈ "News".toList, isBreak d = false := by decide
  obtain ⟨n, hparse, -, htags, -⟩ := exists_parse_annotated_iff (accepted_of_check hcheck).2 hbreak
  have hplain : ¬ isTag "no-feed".toList = true := by decide +kernel
  exact ⟨c, hcheck, rfl, ⟨n, hparse, fun hmem => hplain (htags.1 hmem)⟩, by decide +kernel⟩

theorem tag_works_iff_of_dash :
    let m : Data.Mapping := [(.text "outline", .map [(.text "tree_id", .text "новости"),
      (.text "ignore_tag", .text "no-feed")])]
    let c : Config := { outline := { treeId := "новости", ignoreTag := "no-feed" } }
    let s : Selection := ⟨c.outline.treeId.shown, c.outline.ignoreTag.shown, Keyword.all⟩
    check m = .ok c ∧
      (∃ n, parse ("* " ++ "A :b:" ++ " :" ++ "новости" ++ ":") = [n] ∧ marked "новости" [n] = [n]) ∧
      (∃ n, parse ("* " ++ "A :b:" ++ " :" ++ "no-feed" ++ ":") = [n] ∧ "no-feed" ∉ n.tags) ∧
      (∀ document outline, Opml.toOutline document "новости" "Imported feeds" = .ok outline →
        ∃ tree trees, parse outline = tree :: trees ∧ tree ∈ marked "новости" (parse outline)) ∧
      ¬ ∀ text, ∀ top ∈ parse text, ∀ trail n, Leads top trail n → ∀ stars words, 0 < stars →
        n.Shows (annotated stars words "no-feed") → ∀ rule, ¬ s.Contributes trail n rule := by
  intro m c s
  have hcheck : check m = .ok c := by decide +kernel
  have hmarker : isTag "новости".toList = true := by decide +kernel
  have hplain : ¬ isTag "no-feed".toList = true := by decide +kernel
  have hbreak : ∀ d ∈ "A :b:".toList, isBreak d = false := by decide
  obtain ⟨htags, himported, hignored⟩ := tag_works_iff hcheck
  obtain ⟨n, hparse, -, -, hmarked⟩ := htags "новости" (by simp [c, AnyText.shown]) "A :b:" hbreak
  obtain ⟨n', hparse', -, htag', -⟩ := htags "no-feed" (by simp [c, AnyText.shown]) "A :b:" hbreak
  refine ⟨hcheck, ⟨n, hparse, hmarked.2 hmarker⟩, ⟨n', hparse', fun hmem => hplain (htag'.1 hmem)⟩,
    fun document outline houtline => ?_, fun hnone => hplain ((hignored hmarker).1 hnone).1⟩
  obtain ⟨tree, trees, hparse, -, htree⟩ :=
    himported "Imported feeds" document outline (by decide) houtline
  exact ⟨tree, trees, hparse, htree.2 hmarker⟩

end Config

end FeedOutline
