import FeedOutline.Proofs.Flat.Leaves
import FeedOutline.Proofs.Opml.Items
import FeedOutline.Proofs.Opml.Lines

/-!
The outline of a subscription list. It is read as one marked tree, with one heading for each feed.
-/
namespace FeedOutline

open Outline (Heading Node)
open Text

def SubscriptionRule.node (r : SubscriptionRule) : Node :=
  ⟨r.heading, 2, r.addTags.toList, none, []⟩

namespace Opml

variable {r : SubscriptionRule} {rs : List SubscriptionRule} {marker top : String}

theorem itemLine_feedItem (h : r.Admitted) :
    itemLine 2 (r.title.getD r.feedUrl) r.feedUrl (joined "," r.addTags.toList) =
      headingLine 2 r.written (r.addTags.toList.map tagOfName?) := by
  have hurl : r.feedUrl.isEmpty = false := by simpa using h.url_ne
  have hname : (if r.title.getD r.feedUrl = r.feedUrl then none else some (r.title.getD r.feedUrl)) =
      r.title.filter (· != r.feedUrl) := by
    cases htitle : r.title with
    | none => simp
    | some t => simp [Option.filter_some]
  rw [itemLine, if_neg (by simp [hurl]), hname, headingLine, headingLine,
    tagSuffix_categoryTags h.tag, SubscriptionRule.written]

theorem linesOf_feeds (h : ∀ r ∈ rs, r.Admitted) :
    linesOf 2 (rs.map feedItem) =
      rs.map fun r => headingLine 2 r.written (r.addTags.toList.map tagOfName?) := by
  induction rs with
  | nil => rw [List.map_nil, linesOf, List.map_nil]
  | cons r rs ih =>
    rw [List.forall_mem_cons] at h
    rw [List.map_cons, linesOf, ih h.2, feedItem, Item.lines, linesOf, itemLine_feedItem h.1]
    rfl

theorem headingLine_annotated_read {text : String} {tags : List String} {level : Nat} (hlevel : 0 < level)
    (htrim : Trimmed isBlank text.toList) (hne : text.toList ≠ [])
    (hbreak : ∀ c ∈ text.toList, isBreak c = false)
    (hno : tags = [] → Outline.tagGroup? (Outline.lastWord text.toList) = none)
    (h : ∀ t ∈ tags, isTag t.toList = true) (hnodup : tags.Nodup) :
    Heading.OnLine (headingLine level text (tags.map some)) ⟨text, level, tags⟩ := by
  constructor
  · exact isBreak_headingLine hbreak fun t ht => (isTag_iff.1 (h t (by simpa using ht))).2
  · rw [toList_headingLine, Outline.ofLine?_written hlevel htrim hne hno h hnodup, String.ofList_toList]

theorem headingLine_read {text : String} {tags : List String} {level : Nat} (hlevel : 0 < level)
    (htext : IsHeadingText text.toList) (h : ∀ t ∈ tags, isTag t.toList = true) (hnodup : tags.Nodup) :
    Heading.OnLine (headingLine level text (tags.map some)) ⟨text, level, tags⟩ :=
  headingLine_annotated_read hlevel htext.trimmed htext.ne_nil htext.no_break (fun _ => htext.no_tags) h
    hnodup

def headingsOf (marker top : String) (rs : List SubscriptionRule) : List Heading :=
  ⟨top, 1, [marker]⟩ :: rs.map fun r => ⟨r.heading, 2, r.addTags.toList⟩

theorem topLine_read (htop : IsHeadingText top.toList) (hmarker : isTag marker.toList = true) :
    Heading.OnLine (headingLine 1 top [some marker]) ⟨top, 1, [marker]⟩ := by
  have hread := headingLine_read Nat.one_pos htop (by simpa using hmarker) (List.nodup_singleton marker)
  rwa [List.map_singleton] at hread

theorem headings_read (h : ∀ r ∈ rs, r.Portable) (htop : IsHeadingText top.toList)
    (hmarker : isTag marker.toList = true) :
    List.Forall₂ Heading.OnLine (headingLine 1 top [some marker] :: linesOf 2 (rs.map feedItem))
      (headingsOf marker top rs) := by
  rw [linesOf_feeds fun r hr => (h r hr).admitted]
  refine .cons (topLine_read htop hmarker) ?_
  rw [List.forall₂_map_left_iff, List.forall₂_map_right_iff, List.forall₂_same]
  intro r hr
  rw [(h r hr).written_eq, (h r hr).map_tagOfName?]
  exact headingLine_read Nat.two_pos (h r hr).isHeadingText (h r hr).admitted.tag r.addTags.nodup_toList

theorem return_not_mem_outlineOf (h : ∀ r ∈ rs, r.Portable) (htop : IsHeadingText top.toList)
    (hmarker : isTag marker.toList = true) : '\r' ∉ (outlineOf marker top (rs.map feedItem)).toList :=
  return_not_mem_joined (List.cons_ne_nil _ _)
    ((List.forall₂_and_left _ _).1 (headings_read h htop hmarker)).1

def feedTree (marker top : String) (rs : List SubscriptionRule) : Node :=
  ⟨top, 1, [marker], none, rs.map SubscriptionRule.node⟩

theorem feedTree_eq (marker top : String) (rs : List SubscriptionRule) : feedTree marker top rs =
    Heading.over ⟨top, 1, [marker]⟩ (rs.map fun r => ⟨r.heading, 2, r.addTags.toList⟩) := by
  rw [feedTree, Heading.over, List.map_map]
  rfl

theorem level_feeds (rs : List SubscriptionRule) :
    ∀ hd ∈ rs.map fun r => (⟨r.heading, 2, r.addTags.toList⟩ : Heading), hd.level = 2 :=
  List.forall_mem_map.2 fun _ _ => rfl

theorem parse_outlineOf (h : ∀ r ∈ rs, r.Portable) (htop : IsHeadingText top.toList)
    (hmarker : isTag marker.toList = true) :
    Outline.parse (outlineOf marker top (rs.map feedItem)) = [feedTree marker top rs] := by
  rw [feedTree_eq]
  exact Outline.parse_over Nat.one_lt_two (level_feeds rs) (headings_read h htop hmarker)

end Opml

end FeedOutline
