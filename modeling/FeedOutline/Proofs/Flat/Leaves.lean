import FeedOutline.Proofs.Flat.Inheritance
import FeedOutline.Proofs.Outline.Reading
import FeedOutline.Proofs.Text.Lines

/-!
One heading over others that have none below them. This is the shape of a list without folders.
-/
namespace FeedOutline

namespace Outline

open Text

/-- A heading with some headings right below it. -/
def Heading.over (top : Heading) (below : List Heading) : Node :=
  { top.node none with children := below.map (·.node none) }

def Heading.OnLine (line : String) (h : Heading) : Prop :=
  (∀ c ∈ line.toList, isBreak c = false) ∧ ofLine? line.toList = some h

variable {top : Heading} {below : List Heading} {level : Nat}

theorem walkAll_leaves (below : List Heading) :
    walkAll (below.map (·.node none)) = below.map (·.node none) := by
  induction below with
  | nil => simp
  | cons h below ih =>
    rw [List.map_cons, walkAll_cons, ih]
    simp [Heading.node]

theorem walkAll_over (top : Heading) (below : List Heading) :
    walkAll [top.over below] = top.over below :: below.map (·.node none) := by
  simp [Heading.over, walkAll_leaves]

theorem nested_leaves (h : ∀ g ∈ below, g.level = level) : Nested (below.map (·.node none)) := by
  induction below with
  | nil => exact .nil
  | cons g below ih =>
    rw [List.forall_mem_cons] at h
    have hlevel : ∀ n ∈ below.map (·.node none), n.level ≤ (g.node none).level := by
      refine List.forall_mem_map.2 fun g' hg' => ?_
      simp [Heading.node, h.1, h.2 g' hg']
    exact Nested.cons_iff.2 ⟨by simp [Heading.node], .nil, hlevel, ih h.2⟩

theorem nested_over (htop : top.level < level) (h : ∀ g ∈ below, g.level = level) :
    Nested [top.over below] := by
  refine Nested.singleton_iff.2 ⟨List.forall_mem_map.2 fun g hg => ?_, nested_leaves h⟩
  simp [Heading.over, Heading.node, h g hg, htop]

theorem listing_over (top : Heading) (below : List Heading) :
    listing [top.over below] = (top :: below).map (·.node none) := by
  rw [listing, walkAll_over, List.map_cons, List.map_map, List.map_cons]
  rfl

/-- Heading lines are read as the well nested forest that lists their headings. -/
theorem parse_joined {ls : List String} {f : List Node} (hne : ls ≠ [])
    (hread : List.Forall₂ Heading.OnLine ls below) (hf : Nested f)
    (hlisting : listing f = below.map (·.node none)) : parse (joined "\n" ls ++ "\n") = f := by
  obtain ⟨hbreak, hheadings⟩ := (List.forall₂_and_left _ _).1 hread
  refine parse_eq ?_ hf hlisting
  rw [lines_joined hne hbreak, List.forall₂_map_left_iff]
  exact hheadings

theorem parse_over {ls : List String} (htop : top.level < level) (h : ∀ g ∈ below, g.level = level)
    (hread : List.Forall₂ Heading.OnLine ls (top :: below)) :
    parse (joined "\n" ls ++ "\n") = [top.over below] := by
  have hne : ls ≠ [] := by
    rintro rfl
    cases hread
  exact parse_joined hne hread (nested_over htop h) (listing_over top below)

end Outline

open Outline (Heading)

theorem inheritAll_leaves (above : List String) (below : List Heading) :
    inheritAll above (below.map (·.node none)) = below.map fun h => ⟨h.text, above ++ h.tags⟩ := by
  induction below with
  | nil => rw [List.map_nil, inheritAll, List.map_nil]
  | cons h below ih =>
    rw [List.map_cons, inheritAll, ih, Outline.Node.inherit_eq]
    simp [Heading.node, inheritAll]

theorem flatten_leaf (h : Heading) : flatten (h.node none) = [⟨h.text, h.tags⟩] := by
  simp [flatten, Heading.node, Outline.Node.walk_eq, flattenFrom, TagStack.inherited]

theorem flatten_over {top : Heading} {below : List Heading} {level : Nat} (htop : top.level < level)
    (h : ∀ g ∈ below, g.level = level) : flatten (top.over below) =
      ⟨top.text, top.tags⟩ :: below.map fun g => ⟨g.text, top.tags ++ g.tags⟩ := by
  rw [flatten_eq_inherit (Outline.nested_over htop h), Outline.Node.inherit_eq]
  exact congrArg (List.cons _) (inheritAll_leaves _ below)

end FeedOutline
