import FeedOutline.Proofs.Outline.HeadingLine
import FeedOutline.Proofs.Outline.Reading
import Mathlib.Data.List.Forall2

/-!
The forest of a document: one node for each heading line, in order, below the nearest heading above it
with fewer stars. No other well nested forest lists the same headings.
-/
namespace FeedOutline.Outline

open Text

/-- The node says what its line says, and its level is the number of stars there. -/
structure Node.Shows (n : Node) (line : List Char) : Prop where
  heading : Heading.ofLine? line = some ⟨n.text, n.level.toNat, n.tags⟩
  stars : ∃ stars : Nat, n.level = stars ∧ HasStars stars line

theorem Node.shows_of_withoutId {n : Node} {line : List Char} {h : Heading}
    (hline : Heading.ofLine? line = some h) (hn : n.bare.withoutId = h.node none) :
    n.Shows line := by
  obtain ⟨text, level, tags, id, children⟩ := n
  obtain ⟨htext, hlevel, htags⟩ : text = h.text ∧ level = h.level ∧ tags = h.tags := by
    simpa [Node.bare, Node.withoutId, Heading.node] using hn
  subst htext hlevel htags
  exact ⟨by simpa using hline, h.level, rfl, hasStars_of_ofLine? hline⟩

theorem withoutId_listing_parse (text : String) :
    (listing (parse text)).map Node.withoutId =
      ((lines text.toList).filterMap Heading.ofLine?).map (·.node none) := by
  unfold parse
  rw [Reader.listing_forest, Reader.withoutId_headings_foldl]
  rfl

theorem levels_parse (text : String) : levels (parse text) =
    ((lines text.toList).filterMap Heading.ofLine?).map fun h => (h.level : Int) := by
  have hlisting := congrArg (List.map Node.level) (withoutId_listing_parse text)
  rw [listing, List.map_map, List.map_map, List.map_map] at hlisting
  exact hlisting

theorem exists_first_tree {text : String} {h : Heading} {hs : List Heading}
    (hheadings : (lines text.toList).filterMap Heading.ofLine? = h :: hs) :
    ∃ tree trees, parse text = tree :: trees ∧ tree.text = h.text ∧ tree.level = h.level ∧
      tree.tags = h.tags := by
  have hlisting := withoutId_listing_parse text
  rw [hheadings] at hlisting
  cases hparse : parse text with
  | nil => simp [hparse] at hlisting
  | cons tree trees =>
    rw [hparse, listing_cons, List.map_cons, List.map_cons] at hlisting
    have hfirst : tree.bare.withoutId = h.node none := (List.cons.inj hlisting).1
    exact ⟨tree, trees, rfl, congrArg Node.text hfirst, congrArg Node.level hfirst,
      congrArg Node.tags hfirst⟩

theorem exists_first_tree_without_id {text : String} {line : List Char} {ls : List (List Char)}
    {h : Heading} (hlines : lines text.toList = line :: ls) (hline : Heading.ofLine? line = some h)
    (hnext : ∀ l ∈ ls.head?, IsHeading l) :
    ∃ tree trees, parse text = tree :: trees ∧ tree.bare = h.node none := by
  have hfirst : [h.node none] <+: listing (parse text) := by
    have hstep : Reader.step {} line = Reader.enter h {} := by rw [Reader.step, hline]
    have hempty : Reader.headings {} = [] := rfl
    rw [parse, Reader.listing_forest, hlines, List.foldl_cons, hstep]
    cases ls with
    | nil =>
      rw [List.foldl_nil, Reader.headings_enter, hempty]
      exact List.prefix_refl _
    | cons next ls =>
      obtain ⟨g, hg⟩ := isHeading_iff_exists.1 (hnext next rfl)
      have hready := (Reader.ready_empty.enter h).step next
      have hprefix := hready.dropLast_headings_foldl ls
      have hinit : ((Reader.enter h {}).step next).headings.dropLast = [h.node none] := by
        rw [Reader.step, hg]
        simp only [Reader.headings_enter, hempty]
        rfl
      rw [hinit] at hprefix
      exact hprefix.trans (List.dropLast_prefix _)
  obtain ⟨rest, hrest⟩ := hfirst
  cases hparse : parse text with
  | nil => simp [hparse] at hrest
  | cons tree trees =>
    rw [hparse, listing_cons] at hrest
    exact ⟨tree, trees, rfl, (List.cons.inj hrest).1.symm⟩

theorem exists_tree {text : String} {h : Heading} {hs : List Heading}
    (hheadings : (lines text.toList).filterMap Heading.ofLine? = h :: hs)
    (hdeeper : ∀ g ∈ hs, h.level < g.level) :
    ∃ tree, parse text = [tree] ∧ tree.level = h.level ∧ tree.tags = h.tags ∧
      levels tree.children = hs.map fun g => (g.level : Int) := by
  obtain ⟨tree, trees, hparse, -, hlevel, htags⟩ := exists_first_tree hheadings
  have hnested := nested_parse text
  have hlevels := levels_parse text
  rw [hparse] at hnested hlevels
  rw [hheadings, levels_cons, List.map_cons, List.cons.injEq] at hlevels
  have htrees : trees = [] := by
    cases trees with
    | nil => rfl
    | cons next trees =>
      have hfalling : next.level ≤ tree.level :=
        (Nested.cons_iff.1 hnested).2.2.1 next (List.mem_cons_self ..)
      have hmem : next.level ∈ hs.map fun g => (g.level : Int) := by
        rw [← hlevels.2]
        simp
      obtain ⟨g, hg, hnext⟩ := List.mem_map.1 hmem
      have hlt := hdeeper g hg
      omega
  subst htrees
  exact ⟨tree, hparse, hlevel, htags, by simpa using hlevels.2⟩

theorem forall₂_shows {ns : List Node} {ls : List (List Char)}
    (h : (ns.map Node.bare).map Node.withoutId = (ls.filterMap Heading.ofLine?).map (·.node none)) :
    List.Forall₂ Node.Shows ns (ls.filter fun line => IsHeading line) := by
  induction ls generalizing ns with
  | nil =>
    rw [List.map_eq_nil_iff.1 (List.map_eq_nil_iff.1 h)]
    exact .nil
  | cons line ls ih =>
    cases hline : Heading.ofLine? line with
    | none =>
      have hnot : ¬ IsHeading line := not_isHeading_iff.2 hline
      rw [List.filter_cons_of_neg (by simpa only [decide_eq_true_iff] using hnot)]
      exact ih (by simpa [List.filterMap_cons, hline] using h)
    | some hd =>
      have hheading : IsHeading line := isHeading_iff_exists.2 ⟨hd, hline⟩
      rw [List.filter_cons_of_pos (by simpa only [decide_eq_true_iff] using hheading)]
      rw [List.filterMap_cons, hline, List.map_cons, List.map_map] at h
      obtain ⟨n, ns, rfl, hn, hns⟩ := List.map_eq_cons_iff.1 h
      rw [← List.map_map] at hns
      exact .cons (Node.shows_of_withoutId hline hn) (ih hns)

/-- A document is read as the one well nested forest that lists its heading lines. -/
theorem parse_forest (text : String) :
    List.Forall₂ Node.Shows (walkAll (parse text)) ((lines text.toList).filter fun l => IsHeading l) ∧
      AllNearest [] (levels (parse text)) (parents (parse text)) ∧
      Nested (parse text) ∧
      ∀ f, listing f = listing (parse text) → Nested f → f = parse text := by
  refine ⟨forall₂_shows (withoutId_listing_parse text), (nested_parse text).allNearest,
    nested_parse text, fun f hf hnested => ?_⟩
  exact hnested.eq_of_listing_eq (nested_parse text) hf

end FeedOutline.Outline
