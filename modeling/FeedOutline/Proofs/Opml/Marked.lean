import FeedOutline.Proofs.Opml.Lines
import FeedOutline.Proofs.Outline.Marker
import FeedOutline.Proofs.Outline.Seam

/-!
The top of an imported list. Whatever the list holds, its outline begins with a heading of one star, and
this heading is annotated with the marker.
-/
namespace FeedOutline.Opml

open Config (Accepted)
open Outline (Heading HasStars IsHeading StartsAtTop annotated parse)
open Text

variable {marker top : String}

theorem toList_outlineOf (marker top : String) (items : List Item) :
    (outlineOf marker top items).toList = (headingLine 1 top [some marker]).toList ++
      '\n' :: (linesOf 2 items).flatMap fun l => l.toList ++ ['\n'] := by
  rw [outlineOf, toList_joined_append "\n" (List.cons_ne_nil _ _), List.flatMap_cons, List.append_assoc]
  rfl

theorem startsAtTop_outlineOf (marker top : String) (items : List Item) :
    StartsAtTop (outlineOf marker top items).toList := by
  rw [StartsAtTop, toList_outlineOf]
  obtain ⟨line, ls, hlines, hline⟩ := exists_lines_headingLine_append Nat.one_pos top [some marker] _
  exact ⟨line, by rw [hlines]; rfl, hline⟩

theorem isHeading_of_mem_lines (items : List Item) :
    ∀ l ∈ (lines ((linesOf 2 items).flatMap fun l => l.toList ++ ['\n'])).head?, IsHeading l := by
  cases items with
  | nil => simp [linesOf, lines, joinReturns, cutLines]
  | cons item items =>
    obtain ⟨name, url, category, below⟩ := item
    rw [linesOf, Item.lines, List.cons_append, List.flatMap_cons, itemLine_eq, List.append_assoc]
    obtain ⟨line, ls, hlines, hline⟩ := exists_lines_headingLine_append Nat.two_pos (itemText name url)
      (itemTags name url category) _
    rw [hlines]
    intro l hl
    rw [← Option.some.inj hl]
    exact ⟨2, hline⟩

theorem headingLine_eq_annotated (h : Accepted marker) :
    (headingLine 1 top [some marker]).toList = annotated 1 top marker := by
  have hsuffix : Outline.tagSuffix [some marker] = " :" ++ marker ++ ":" := by
    have hne : marker ≠ "" := mt (congrArg Text.AnyText.whole) h.ne_empty
    simp [Outline.tagSuffix, List.eraseDups_cons, hne, joined]
  rw [toList_headingLine, hsuffix]
  simp [annotated]

theorem exists_tree_outlineOf (h : Accepted marker) (htop : ∀ c ∈ top.toList, isBreak c = false)
    (items : List Item) : ∃ tree trees, parse (outlineOf marker top items) = tree :: trees ∧
      tree.level = 1 ∧ tree.id = none ∧ tree.tags = if isTag marker.toList then [marker] else [] := by
  obtain ⟨shown, hline⟩ := Outline.exists_ofLine?_annotated Nat.one_pos h top
  have hbreak : ∀ c ∈ annotated 1 top marker, isBreak c = false := Outline.isBreak_annotated h htop
  have hopen : annotated 1 top marker ≠ [] := by simp [annotated]
  have hclosed : Closed (annotated 1 top marker) :=
    ⟨hopen, fun c hc => hbreak c (List.mem_of_mem_getLast? hc)⟩
  have hlines : lines (outlineOf marker top items).toList = annotated 1 top marker ::
      lines ((linesOf 2 items).flatMap fun l => l.toList ++ ['\n']) := by
    rw [toList_outlineOf, headingLine_eq_annotated h, hclosed.lines_append, lines_of_no_break hopen hbreak,
      List.singleton_append]
  obtain ⟨tree, trees, hparse, hbare⟩ :=
    Outline.exists_first_tree_without_id hlines hline (isHeading_of_mem_lines items)
  exact ⟨tree, trees, hparse, congrArg Outline.Node.level hbare, congrArg Outline.Node.id hbare,
    congrArg Outline.Node.tags hbare⟩

end FeedOutline.Opml
