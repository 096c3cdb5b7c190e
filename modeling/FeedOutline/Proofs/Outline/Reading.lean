import FeedOutline.Outline.Reader
import FeedOutline.Proofs.Outline.Forest
import FeedOutline.Proofs.Text.Lines
import Mathlib.Data.List.Forall2

/-!
Reading lines into a forest. Whatever the lines are, the open headings together with the finished trees
stay well nested, and the headings read so far are those of the lines, in order.
-/
namespace FeedOutline.Outline

open Text

def Heading.node (h : Heading) (id : Option String) : Node :=
  ⟨h.text, h.level, h.tags, id, []⟩

def Node.withoutId (n : Node) : Node :=
  { n with id := none }

@[simp] theorem Heading.withoutId_node (h : Heading) (id : Option String) :
    (h.node id).withoutId = h.node none := rfl

/-- The headings that are still open, with the finished ones below them, in the order of the lines. -/
def pending : List Frame → List Node
  | [] => []
  | f :: fs => pending fs ++ f.heading.node f.id :: listing f.children.reverse

def beside (roots : List Node) : List Frame → List Node
  | [] => roots
  | f :: _ => f.children

/-- Open headings are ever deeper, each one at most as deep as the nodes that it comes to stand beside,
and all that is finished is well nested. -/
inductive Spine (roots : List Node) : List Frame → Prop
  | nil : Nested roots.reverse → Spine roots []
  | cons {f fs} : Spine roots fs → (∀ g ∈ fs.head?, g.heading.level < f.heading.level) →
      (∀ n ∈ beside roots fs, (f.heading.level : Int) ≤ n.level) → Nested f.children.reverse →
      (∀ c ∈ f.children, (f.heading.level : Int) < c.level) → Spine roots (f :: fs)

/-- Finished nodes can be put below the innermost open heading, and a heading with `level` stars beside
them. -/
structure Fits (roots : List Node) (fs : List Frame) (level : Nat) (below : List Node) : Prop where
  nested : Nested (below ++ beside roots fs).reverse
  deeper : ∀ f ∈ fs.head?, ∀ c ∈ below, (f.heading.level : Int) < c.level
  level_le : ∀ n ∈ below ++ beside roots fs, (level : Int) ≤ n.level

theorem Frame.finish_bare (f : Frame) (below : List Node) :
    (f.finish below).bare = f.heading.node f.id := rfl

theorem Frame.finish_children (f : Frame) (below : List Node) :
    (f.finish below).children = (below ++ f.children).reverse := rfl

theorem Spine.nested_beside {roots : List Node} {fs : List Frame} (h : Spine roots fs) :
    Nested (beside roots fs).reverse := by
  cases h with
  | nil h => exact h
  | cons _ _ _ h _ => exact h

theorem listing_closeFrames (level : Nat) (below : List Node) (fs : List Frame) :
    listing (closeFrames level below fs).1.reverse ++ pending (closeFrames level below fs).2 =
      pending fs ++ listing below.reverse := by
  fun_induction closeFrames level below fs with
  | case1 below => simp [pending]
  | case2 below f fs h => simp [pending]
  | case3 below f fs h ih => simp [ih, pending, Frame.finish_bare, Frame.finish_children]

theorem Spine.fits_finish {roots below : List Node} {f : Frame} {fs : List Frame} {level : Nat}
    (h : Spine roots (f :: fs)) (hfits : Fits roots (f :: fs) level below)
    (hlevel : level ≤ f.heading.level) : Fits roots fs level [f.finish below] := by
  cases h with
  | cons hspine hhead hbeside _ hdeeper =>
  have hchildren : ∀ c ∈ (f.finish below).children, (f.finish below).level < c.level := by
    intro c hc
    rw [Frame.finish_children, List.mem_reverse, List.mem_append] at hc
    rcases hc with hc | hc
    · exact hfits.deeper f rfl c hc
    · exact hdeeper c hc
  have hnode : Nested [f.finish below] := Nested.singleton_iff.2 ⟨hchildren, hfits.nested⟩
  constructor
  · rw [List.reverse_append, List.reverse_singleton, Nested.append_iff]
    refine ⟨hspine.nested_beside, hnode, fun n hn m hm => ?_⟩
    rw [List.mem_singleton.1 hm]
    exact hbeside n (List.mem_reverse.1 hn)
  · intro g hg c hc
    rw [List.mem_singleton.1 hc]
    exact Int.ofNat_lt.2 (hhead g hg)
  · intro n hn
    rw [List.singleton_append, List.mem_cons] at hn
    rcases hn with rfl | hn
    · exact Int.ofNat_le.2 hlevel
    · exact Int.le_trans (Int.ofNat_le.2 hlevel) (hbeside n hn)

/-- Closing headings leaves a spine on which a heading with `level` stars can be put. -/
theorem Spine.closeFrames {roots below : List Node} {fs : List Frame} {level : Nat}
    (h : Spine roots fs) (hfits : Fits roots fs level below) :
    Spine ((closeFrames level below fs).1 ++ roots) (closeFrames level below fs).2 ∧
      (∀ g ∈ (closeFrames level below fs).2.head?, g.heading.level < level) ∧
      ∀ n ∈ beside ((closeFrames level below fs).1 ++ roots) (closeFrames level below fs).2,
        (level : Int) ≤ n.level := by
  fun_induction Outline.closeFrames level below fs with
  | case1 below => exact ⟨.nil hfits.nested, by simp, hfits.level_le⟩
  | case2 below f fs hlt =>
    cases h with
    | cons hspine hhead hbeside _ hdeeper =>
    refine ⟨.cons hspine hhead hbeside hfits.nested fun c hc => ?_, by simpa using hlt,
      hfits.level_le⟩
    rcases List.mem_append.1 hc with hc | hc
    · exact hfits.deeper f rfl c hc
    · exact hdeeper c hc
  | case3 below f fs hlt ih =>
    have hfinish := h.fits_finish hfits (Nat.not_lt.1 hlt)
    cases h with
    | cons hspine _ _ _ _ => exact ih hspine hfinish

theorem closeFrames_zero (below : List Node) (fs : List Frame) :
    (closeFrames 0 below fs).2 = [] := by
  induction fs generalizing below with
  | nil => rfl
  | cons f fs ih => simpa [closeFrames] using ih _

namespace Reader

def headings (r : Reader) : List Node :=
  listing r.roots.reverse ++ pending r.frames

/-- Between two lines the last heading, if there is one, is open and has nothing below it yet. -/
structure Ready (r : Reader) : Prop where
  spine : Spine r.roots r.frames
  beside_eq : beside r.roots r.frames = []

theorem Ready.fits {r : Reader} (h : r.Ready) (level : Nat) : Fits r.roots r.frames level [] := by
  constructor <;> simp [h.beside_eq, Nested.nil]

theorem ready_empty : Ready {} :=
  ⟨.nil Nested.nil, rfl⟩

theorem Ready.enter {r : Reader} (h : r.Ready) (hd : Heading) : (r.enter hd).Ready := by
  obtain ⟨hspine, hhead, hlevel⟩ := h.spine.closeFrames (h.fits hd.level)
  exact ⟨.cons hspine hhead hlevel Nested.nil (by simp), rfl⟩

theorem Ready.setId {r : Reader} (h : r.Ready) (id : Option String) : (r.setId id).Ready := by
  obtain ⟨roots, frames, drawer⟩ := r
  cases frames with
  | nil => exact h
  | cons f fs =>
    cases h.spine with
    | cons hspine hhead hlevel hnested hdeeper =>
      exact ⟨.cons hspine hhead hlevel hnested hdeeper, h.beside_eq⟩

theorem Ready.body {r : Reader} (h : r.Ready) (line : List Char) : (r.body line).Ready := by
  have hdrawer : Ready { r with drawer := (r.drawer.step (trim line)).1 } := ⟨h.spine, h.beside_eq⟩
  unfold Reader.body
  dsimp only
  split
  · exact hdrawer.setId _
  · exact hdrawer

theorem Ready.step {r : Reader} (h : r.Ready) (line : List Char) : (r.step line).Ready := by
  unfold Reader.step
  split
  · exact h.enter _
  · exact h.body line

theorem Ready.foldl {r : Reader} (h : r.Ready) (ls : List (List Char)) :
    (ls.foldl Reader.step r).Ready := by
  induction ls generalizing r with
  | nil => exact h
  | cons line ls ih => exact ih (h.step line)

theorem Ready.nested_forest {r : Reader} (h : r.Ready) : Nested r.forest := by
  have hspine := (h.spine.closeFrames (h.fits 0)).1
  rw [closeFrames_zero] at hspine
  exact hspine.nested_beside

theorem listing_forest (r : Reader) : listing r.forest = r.headings := by
  have h := listing_closeFrames 0 [] r.frames
  rw [closeFrames_zero] at h
  simpa [forest, headings, pending] using h

theorem headings_enter (r : Reader) (h : Heading) :
    (r.enter h).headings = r.headings ++ [h.node none] := by
  have hclose := listing_closeFrames h.level [] r.frames
  simp only [List.reverse_nil, listing_nil, List.append_nil] at hclose
  simp [headings, enter, pending, ← hclose]

theorem withoutId_headings_setId (r : Reader) (id : Option String) :
    (r.setId id).headings.map Node.withoutId = r.headings.map Node.withoutId := by
  unfold setId
  split
  · rfl
  · next f fs hframes => simp [headings, hframes, pending]

theorem withoutId_headings_body (r : Reader) (line : List Char) :
    (r.body line).headings.map Node.withoutId = r.headings.map Node.withoutId := by
  unfold body
  dsimp only
  split
  · exact withoutId_headings_setId _ _
  · rfl

theorem withoutId_headings_step (r : Reader) (line : List Char) :
    (r.step line).headings.map Node.withoutId =
      r.headings.map Node.withoutId ++ ((Heading.ofLine? line).map (·.node none)).toList := by
  unfold step
  split
  · next h hline => simp [headings_enter, hline]
  · next hline => simp [withoutId_headings_body, hline]

theorem withoutId_headings_foldl (r : Reader) (ls : List (List Char)) :
    (ls.foldl step r).headings.map Node.withoutId =
      r.headings.map Node.withoutId ++
        (ls.filterMap Heading.ofLine?).map (·.node none) := by
  induction ls generalizing r with
  | nil => simp
  | cons line ls ih =>
    rw [List.foldl_cons, ih, withoutId_headings_step, List.filterMap_cons]
    cases Heading.ofLine? line <;> simp

theorem headings_foldl {r : Reader} {ls : List (List Char)} {hs : List Heading}
    (h : List.Forall₂ (fun l hd => Heading.ofLine? l = some hd) ls hs) :
    (ls.foldl step r).headings = r.headings ++ hs.map (·.node none) := by
  induction h generalizing r with
  | nil => simp
  | cons hl _ ih =>
    rw [List.foldl_cons, ih, step, hl]
    simp [headings_enter]

/-! Only the last heading can still get an id. -/

theorem Ready.dropLast_headings_setId {r : Reader} (h : r.Ready) (id : Option String) :
    (r.setId id).headings.dropLast = r.headings.dropLast := by
  obtain ⟨roots, frames, drawer⟩ := r
  cases frames with
  | nil => rfl
  | cons f fs =>
    have hchildren : f.children = [] := h.beside_eq
    simp only [Reader.setId, headings, pending, hchildren, List.reverse_nil, listing_nil,
      ← List.append_assoc, List.dropLast_concat]

theorem Ready.dropLast_headings_step {r : Reader} (h : r.Ready) (line : List Char) :
    r.headings.dropLast <+: (r.step line).headings.dropLast := by
  unfold Reader.step
  split
  · rw [headings_enter, List.dropLast_concat]
    exact List.dropLast_prefix _
  · have hdrawer : Ready { r with drawer := (r.drawer.step (trim line)).1 } := ⟨h.spine, h.beside_eq⟩
    unfold Reader.body
    dsimp only
    split
    · rw [hdrawer.dropLast_headings_setId]
      exact List.prefix_refl _
    · exact List.prefix_refl _

theorem Ready.dropLast_headings_foldl {r : Reader} (h : r.Ready) (ls : List (List Char)) :
    r.headings.dropLast <+: (ls.foldl Reader.step r).headings.dropLast := by
  induction ls generalizing r with
  | nil => exact List.prefix_refl _
  | cons line ls ih => exact (h.dropLast_headings_step line).trans (ih (h.step line))

end Reader

/-- Every document is read as a well nested forest. -/
theorem nested_parse (text : String) : Nested (parse text) :=
  (Reader.ready_empty.foldl _).nested_forest

theorem parse_eq {text : String} {hs : List Heading}
    (h : List.Forall₂ (fun l hd => Heading.ofLine? l = some hd) (lines text.toList) hs) {f : List Node}
    (hf : Nested f) (hlisting : listing f = hs.map (·.node none)) : parse text = f := by
  refine (nested_parse text).eq_of_listing_eq hf ?_
  rw [hlisting, parse, Reader.listing_forest, Reader.headings_foldl h]
  simp [Reader.headings, pending]

theorem parse_line {text : String} {h : Heading} (hbreak : ∀ c ∈ text.toList, isBreak c = false)
    (hread : Heading.ofLine? text.toList = some h) : parse text = [h.node none] := by
  have hne : text.toList ≠ [] := by
    intro hnil
    rw [hnil] at hread
    cases hread
  have hlines : List.Forall₂ (fun l hd => Heading.ofLine? l = some hd) (lines text.toList) [h] := by
    rw [lines_of_no_break hne hbreak]
    exact .cons hread .nil
  refine parse_eq hlines (Nested.singleton_iff.2 ⟨by simp [Heading.node], .nil⟩) ?_
  simp [Heading.node, Node.bare]

end FeedOutline.Outline
