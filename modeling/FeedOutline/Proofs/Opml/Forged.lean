import FeedOutline.Proofs.Opml.Items
import FeedOutline.Proofs.Opml.Lines
import FeedOutline.Proofs.Outline.Document

/-!
Headings that a subscription list forges. A break inside a name or an address goes into the outline as it
is, and what follows it is read as a heading if it looks like one.
-/
namespace FeedOutline.Opml

open Markup (Node)
open Outline (Heading HasStars levels parse walkAll)
open Text

mutual

/-- The outline elements that are reached through nothing but outline elements, each with its depth, in the
order of the document. -/
def outlinesAt (depth : Nat) : Node → List (Nat × Node)
  | .text _ => []
  | .element name attributes children =>
    if name == .plain "outline" then
      (depth, .element name attributes children) :: outlinesOf (depth + 1) children
    else []

def outlinesOf (depth : Nat) : List Node → List (Nat × Node)
  | [] => []
  | n :: ns => outlinesAt depth n ++ outlinesOf depth ns

end

def urlOf (n : Node) : String :=
  trimString ((n.attribute? "xmlUrl").getD "")

def elementLine (o : Nat × Node) : String :=
  itemLine (o.1 + 1) (nameOf o.2) (urlOf o.2) ((o.2.attribute? "category").getD "")

/-- The headings that are read behind the breaks of an element's line. -/
def forgedBy (o : Nat × Node) : List Heading :=
  (lines (elementLine o).toList).tail.filterMap Heading.ofLine?

theorem linesOf_append (level : Nat) (items items' : List Item) :
    linesOf level (items ++ items') = linesOf level items ++ linesOf level items' := by
  induction items with
  | nil => simp [linesOf]
  | cons item items ih => simp [linesOf, ih]

theorem linesOf_itemsOf (depth : Nat) (ns : List Node) :
    linesOf (depth + 1) (itemsOf ns) = (outlinesOf depth ns).map elementLine := by
  induction ns using nodes_induction generalizing depth with
  | nil => rw [itemsOf, linesOf, outlinesOf, List.map_nil]
  | cons n ns ihc ihs =>
    have hitem : linesOf (depth + 1) (itemOf? n).toList = (outlinesAt depth n).map elementLine := by
      cases n with
      | text s => simp [itemOf?, outlinesAt, linesOf]
      | element name attributes children =>
        have hchildren : linesOf (depth + 1 + 1) (itemsOf children) =
            (outlinesOf (depth + 1) children).map elementLine := ihc (depth + 1)
        rw [itemOf?, outlinesAt]
        split
        · rw [Option.toList_some, linesOf, Item.lines, linesOf, hchildren, List.append_nil,
            List.map_cons]
          rfl
        · simp [linesOf] -- another element hides all that it holds, here as there
    rw [itemsOf_cons, linesOf_append, hitem, ihs, outlinesOf, List.map_append]

theorem le_of_mem_outlinesOf {depth : Nat} {ns : List Node} :
    ∀ o ∈ outlinesOf depth ns, depth ≤ o.1 := by
  induction ns using nodes_induction generalizing depth with
  | nil => simp [outlinesOf]
  | cons n ns ihc ihs =>
    rw [outlinesOf, List.forall_mem_append]
    refine ⟨?_, ihs⟩
    cases n with
    | text s => simp [outlinesAt]
    | element name attributes children =>
      have hchildren : ∀ o ∈ outlinesOf (depth + 1) children, depth + 1 ≤ o.1 := ihc
      rw [outlinesAt]
      split
      · exact List.forall_mem_cons.2 ⟨Nat.le_refl _, fun o ho => Nat.le_of_succ_le (hchildren o ho)⟩
      · simp

theorem closed_elementLine (o : Nat × Node) : Closed (elementLine o).toList := by
  rw [elementLine, itemLine_eq]
  exact closed_headingLine (closed_itemText (trimmed_trimString _) (trimmed_trimString _))

theorem exists_headings_elementLine (o : Nat × Node) :
    ∃ h, (lines (elementLine o).toList).filterMap Heading.ofLine? = h :: forgedBy o ∧
      h.level = o.1 + 1 := by
  obtain ⟨first, more, hlines, hstars⟩ :=
    exists_lines_headingLine (Nat.succ_pos o.1) (itemText (nameOf o.2) (urlOf o.2))
      (itemTags (nameOf o.2) (urlOf o.2) ((o.2.attribute? "category").getD ""))
  rw [← itemLine_eq] at hlines
  obtain ⟨h, hfirst, hlevel⟩ := hstars.exists_ofLine?
  refine ⟨h, ?_, hlevel⟩
  rw [forgedBy, elementLine, hlines, List.filterMap_cons, hfirst, List.tail_cons]

theorem forgedBy_eq_nil {o : Nat × Node} (hname : ∀ c ∈ (nameOf o.2).toList, isBreak c = false)
    (hurl : ∀ c ∈ (urlOf o.2).toList, isBreak c = false) : forgedBy o = [] := by
  have hbreak : ∀ c ∈ (elementLine o).toList, isBreak c = false := by
    rw [elementLine, itemLine_eq]
    exact isBreak_headingLine (isBreak_itemText hname hurl) fun t => isTagChar_itemTags
  rw [forgedBy, lines_of_no_break (closed_elementLine o).1 hbreak]
  rfl

/-! The top line, and the outline as a whole. -/

variable {marker top : String}

theorem exists_heading_top (hmarker : ∀ c ∈ marker.toList, isTagChar c = true) (top : String) :
    ∃ h, Heading.ofLine? (headingLine 1 top [some marker]).toList = some h ∧ h.level = 1 ∧
      (marker ≠ "" → marker ∈ h.tags) := by
  by_cases hempty : marker = ""
  · -- an empty tag is left out of the annotation
    have hnone : headingLine 1 top [some marker] = headingLine 1 top ([].map some) := by
      rw [hempty]
      rfl
    have hnil : ∀ t ∈ ([] : List String), isTag t.toList = true := by simp
    obtain ⟨h, hline, hlevel, -⟩ := exists_ofLine?_headingLine Nat.one_pos top hnil .nil
    exact ⟨h, hnone ▸ hline, hlevel, fun hne => absurd hempty hne⟩
  · have htag : isTag marker.toList = true := isTag_iff.2 ⟨by simpa using hempty, hmarker⟩
    obtain ⟨h, hline, hlevel, htags⟩ :=
      exists_ofLine?_headingLine Nat.one_pos top (by simpa using htag) (List.nodup_singleton marker)
    exact ⟨h, hline, hlevel, fun _ => htags marker (by simp)⟩

theorem isBreak_topLine (hmarker : ∀ c ∈ marker.toList, isTagChar c = true)
    (htop : ∀ c ∈ top.toList, isBreak c = false) :
    ∀ c ∈ (headingLine 1 top [some marker]).toList, isBreak c = false := by
  refine isBreak_headingLine htop fun t ht => ?_
  rw [Option.some.inj (List.mem_singleton.1 ht)]
  exact hmarker

/-- Behind the top line come the lines of the elements, cut where they are broken. -/
theorem lines_outlineOf (hmarker : ∀ c ∈ marker.toList, isTagChar c = true)
    (htop : ∀ c ∈ top.toList, isBreak c = false) (ns : List Node) :
    lines (outlineOf marker top (itemsOf ns)).toList = (headingLine 1 top [some marker]).toList ::
      (outlinesOf 1 ns).flatMap fun o => lines (elementLine o).toList := by
  have hbreak := isBreak_topLine hmarker htop
  have hne : (headingLine 1 top [some marker]).toList ≠ [] := by simp [toList_headingLine]
  have hclosed : ∀ l ∈ headingLine 1 top [some marker] :: (outlinesOf 1 ns).map elementLine,
      Closed l.toList := by
    refine List.forall_mem_cons.2 ⟨⟨hne, fun c hc => hbreak c (List.mem_of_mem_getLast? hc)⟩, ?_⟩
    exact List.forall_mem_map.2 fun o _ => closed_elementLine o
  rw [outlineOf, linesOf_itemsOf, lines_joined_of_closed (List.cons_ne_nil _ _) hclosed,
    List.flatMap_cons, lines_of_no_break hne hbreak, List.singleton_append, List.flatMap_map]

theorem exists_headings_outlineOf (hmarker : ∀ c ∈ marker.toList, isTagChar c = true)
    (htop : ∀ c ∈ top.toList, isBreak c = false) (ns : List Node) :
    ∃ (h : Heading) (own : Nat × Node → Heading),
      (lines (outlineOf marker top (itemsOf ns)).toList).filterMap Heading.ofLine? =
        h :: (outlinesOf 1 ns).flatMap (fun o => own o :: forgedBy o) ∧
      h.level = 1 ∧ (marker ≠ "" → marker ∈ h.tags) ∧ ∀ o, (own o).level = o.1 + 1 := by
  obtain ⟨h, hline, hlevel, htags⟩ := exists_heading_top hmarker top
  choose own hown hdepth using exists_headings_elementLine
  refine ⟨h, own, ?_, hlevel, htags, hdepth⟩
  rw [lines_outlineOf hmarker htop, List.filterMap_cons, hline, List.filterMap_flatMap]
  simp only [hown]

theorem length_le_headings (own : Nat × Node → Heading) (os : List (Nat × Node)) :
    os.length ≤ (os.flatMap fun o => own o :: forgedBy o).length := by
  induction os with
  | nil => simp
  | cons o os ih =>
    rw [List.flatMap_cons, List.length_append, List.length_cons, List.length_cons]
    omega

theorem forges_none_of_length {own : Nat × Node → Heading} {os : List (Nat × Node)}
    (h : (os.flatMap fun o => own o :: forgedBy o).length ≤ os.length) :
    ∀ o ∈ os, forgedBy o = [] := by
  induction os with
  | nil => simp
  | cons o os ih =>
    have hle := length_le_headings own os
    rw [List.flatMap_cons, List.length_append, List.length_cons, List.length_cons] at h
    have hforged : (forgedBy o).length = 0 := by omega
    exact List.forall_mem_cons.2 ⟨List.length_eq_zero_iff.1 hforged, ih (by omega)⟩

theorem forges_none_of_parse (hmarker : ∀ c ∈ marker.toList, isTagChar c = true)
    (htop : ∀ c ∈ top.toList, isBreak c = false) {ns : List Node} {tree : Outline.Node}
    (hparse : parse (outlineOf marker top (itemsOf ns)) = [tree])
    (hlength : (walkAll tree.children).length = (outlinesOf 1 ns).length) :
    ∀ o ∈ outlinesOf 1 ns, forgedBy o = [] := by
  obtain ⟨h, own, hheadings, -⟩ := exists_headings_outlineOf hmarker htop ns
  have hlevels := congrArg List.length (Outline.levels_parse (outlineOf marker top (itemsOf ns)))
  rw [hheadings, hparse] at hlevels
  simp only [levels, Outline.walkAll_cons, Outline.walkAll_nil, List.append_nil, List.length_map,
    List.length_cons, hlength, Nat.add_right_cancel_iff] at hlevels
  exact forges_none_of_length (Nat.le_of_eq hlevels.symm)

theorem exists_tree_of_forges_none (hmarker : ∀ c ∈ marker.toList, isTagChar c = true)
    (htop : ∀ c ∈ top.toList, isBreak c = false) {ns : List Node}
    (hnone : ∀ o ∈ outlinesOf 1 ns, forgedBy o = []) :
    ∃ tree, parse (outlineOf marker top (itemsOf ns)) = [tree] ∧ tree.level = 1 ∧
      (marker ≠ "" → marker ∈ tree.tags) ∧
      List.Forall₂ (fun n o => n.level = (o.1 : Int) + 1) (walkAll tree.children) (outlinesOf 1 ns) := by
  obtain ⟨h, own, hheadings, hlevel, htags, hdepth⟩ := exists_headings_outlineOf hmarker htop ns
  have hown : (outlinesOf 1 ns).flatMap (fun o => own o :: forgedBy o) = (outlinesOf 1 ns).map own := by
    rw [List.map_eq_flatMap]
    exact List.flatMap_congr fun o ho => by rw [hnone o ho]
  have hdeeper : ∀ g ∈ (outlinesOf 1 ns).map own, h.level < g.level := by
    refine List.forall_mem_map.2 fun o ho => ?_
    have hpos := le_of_mem_outlinesOf o ho
    rw [hlevel, hdepth]
    omega
  rw [hown] at hheadings
  obtain ⟨tree, hparse, htree, htreetags, hlevels⟩ := Outline.exists_tree hheadings hdeeper
  have hmap : levels tree.children = (outlinesOf 1 ns).map fun o => (o.1 : Int) + 1 := by
    simp [hlevels, hdepth]
  rw [levels, ← List.forall₂_eq_eq_eq, List.forall₂_map_left_iff, List.forall₂_map_right_iff] at hmap
  exact ⟨tree, hparse, by rw [htree, hlevel]; rfl, htreetags ▸ htags, hmap⟩

theorem toOutline_eq {document : String} {root body : Node} (hread : Markup.read document = .ok root)
    (hbody : (root.childrenNamed "body").head? = some body) (marker top : String) :
    toOutline document marker top = .ok (outlineOf marker top (itemsOf body.children)) := by
  rw [toOutline, readItems_eq hread hbody]
  rfl

/-- The outline of a list is one marked tree with a heading at its place for each outline element, and no
others, exactly if no element forges one; breaks in a name or an address are what it takes to. -/
theorem toOutline_iff_forges_none {document : String} {root body : Node}
    (hmarker : ∀ c ∈ marker.toList, isTagChar c = true) (htop : ∀ c ∈ top.toList, isBreak c = false)
    (hread : Markup.read document = .ok root)
    (hbody : (root.childrenNamed "body").head? = some body) :
    ∃ outline, toOutline document marker top = .ok outline ∧
      ((∃ tree, parse outline = [tree] ∧ tree.level = 1 ∧ (marker ≠ "" → marker ∈ tree.tags) ∧
          List.Forall₂ (fun n o => n.level = (o.1 : Int) + 1) (walkAll tree.children)
            (outlinesOf 1 body.children)) ↔
        ∀ o ∈ outlinesOf 1 body.children, forgedBy o = []) ∧
      ∀ o, forgedBy o ≠ [] → ∃ c ∈ (nameOf o.2).toList ++ (urlOf o.2).toList, isBreak c = true := by
  refine ⟨_, toOutline_eq hread hbody marker top, ⟨?_, exists_tree_of_forges_none hmarker htop⟩, ?_⟩
  · rintro ⟨tree, hparse, -, -, hone⟩
    exact forges_none_of_parse hmarker htop hparse hone.length_eq
  · intro o hforged
    by_contra hbreak
    simp only [List.mem_append, not_exists, not_and, Bool.not_eq_true] at hbreak
    exact hforged (forgedBy_eq_nil (fun c hc => hbreak c (.inl hc)) fun c hc => hbreak c (.inr hc))

/-- A line feed in the name of a folder makes a second top heading. -/
theorem top_heading_forged :
    let document := "<opml><body><outline text=\"A&#10;* Forged\"/></body></opml>"
    (∀ c ∈ "elfeed".toList, isTagChar c = true) ∧ (∀ c ∈ "Imported feeds".toList, isBreak c = false) ∧
      ∃ outline, toOutline document "elfeed" "Imported feeds" = .ok outline ∧
        ¬ ∃ tree, parse outline = [tree] := by
  intro document
  let body : Node :=
    .element (.plain "body") [] [.element (.plain "outline") [(.plain "text", "A\n* Forged")] []]
  have hread : Markup.read document = .ok (.element (.plain "opml") [] [body]) := by
    unfold document body
    rfl
  have hlength : (parse (outlineOf "elfeed" "Imported feeds" (itemsOf body.children))).length = 2 := by
    decide +kernel
  refine ⟨by decide +kernel, by decide +kernel, _, toOutline_eq hread rfl _ _, ?_⟩
  rintro ⟨tree, hparse⟩
  rw [hparse] at hlength
  cases hlength

set_option maxRecDepth 2000 in
theorem toOutline_iff_forges_none_of_nested :
    let document := "<opml><body><outline text=\"*\"><outline title=\"A&#8233;B\" xmlUrl=\"http://a\"/>" ++
      "</outline><p><outline/></p><outline/></body></opml>"
    let inner : Node := .element (.plain "outline")
      [(.plain "title", "A\u2029B"), (.plain "xmlUrl", "http://a")] []
    let body : Node := .element (.plain "body") []
      [.element (.plain "outline") [(.plain "text", "*")] [inner],
        .element (.plain "p") [] [.element (.plain "outline") [] []],
        .element (.plain "outline") [] []]
    let root : Node := .element (.plain "opml") [] [body]
    ((∀ c ∈ "elfeed".toList, isTagChar c = true) ∧ (∀ c ∈ "From C:".toList, isBreak c = false) ∧
      Markup.read document = .ok root ∧ (root.childrenNamed "body").head? = some body) ∧
      ∃ outline, toOutline document "elfeed" "From C:" = .ok outline ∧
        ∃ tree, parse outline = [tree] ∧ tree.level = 1 ∧ "elfeed" ∈ tree.tags ∧
          List.Forall₂ (fun n o => n.level = (o.1 : Int) + 1) (walkAll tree.children)
            (outlinesOf 1 body.children) := by
  intro document inner body root
  have hmarker : ∀ c ∈ "elfeed".toList, isTagChar c = true := by decide +kernel
  have htop : ∀ c ∈ "From C:".toList, isBreak c = false := by decide +kernel
  have hread : Markup.read document = .ok root := by
    unfold document root body inner
    rfl
  have hbody : (root.childrenNamed "body").head? = some body := rfl
  have hnone : ∀ o ∈ outlinesOf 1 body.children, forgedBy o = [] := by decide +kernel
  obtain ⟨outline, houtline, hiff, -⟩ := toOutline_iff_forges_none hmarker htop hread hbody
  obtain ⟨tree, hparse, hlevel, htags, hone⟩ := hiff.2 hnone
  exact ⟨⟨hmarker, htop, hread, hbody⟩, outline, houtline, tree, hparse, hlevel, htags (by decide), hone⟩

end FeedOutline.Opml
