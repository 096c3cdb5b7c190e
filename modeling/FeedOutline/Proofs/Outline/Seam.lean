import FeedOutline.Proofs.Outline.Document
import FeedOutline.Proofs.Text.Lines
import Mathlib.Tactic.SplitIfs

/-!
Where one document ends and another begins. A heading with a single star closes every open heading and
ends every drawer, so that what is read from it on does not depend on the lines above.
-/
namespace FeedOutline.Outline

open Text

theorem closeFrames_eq_zero {level : Nat} {fs : List Frame} (h : ∀ f ∈ fs, level ≤ f.heading.level)
    (below : List Node) : closeFrames level below fs = closeFrames 0 below fs := by
  induction fs generalizing below with
  | nil => rfl
  | cons f fs ih =>
    rw [List.forall_mem_cons] at h
    rw [closeFrames, closeFrames, if_neg (Nat.not_lt.2 h.1), if_neg (Nat.not_lt_zero _), ih h.2]

theorem mem_headings_of_closeFrames {level : Nat} {below : List Node} {fs : List Frame} {g : Frame}
    (h : g ∈ (closeFrames level below fs).2) : ∃ f ∈ fs, g.heading = f.heading := by
  fun_induction closeFrames level below fs with
  | case1 below => simp at h
  | case2 below f fs _ =>
    rcases List.mem_cons.1 h with rfl | h
    · exact ⟨f, List.mem_cons_self .., rfl⟩
    · exact ⟨g, List.mem_cons_of_mem _ h, rfl⟩
  | case3 below f fs _ ih =>
    obtain ⟨f', hf', heq⟩ := ih h
    exact ⟨f', List.mem_cons_of_mem _ hf', heq⟩

namespace Reader

def Starred (r : Reader) : Prop :=
  ∀ f ∈ r.frames, 0 < f.heading.level

/-- The reader of a document that goes on below finished trees. -/
def after (trees : List Node) (r : Reader) : Reader :=
  { r with roots := r.roots ++ trees.reverse }

variable {r : Reader} {trees : List Node}

theorem starred_empty : Starred {} := by
  simp [Starred]

theorem Starred.enter (h : r.Starred) {hd : Heading} (hd_pos : 0 < hd.level) :
    (r.enter hd).Starred := by
  intro f hf
  rcases List.mem_cons.1 hf with rfl | hf
  · exact hd_pos
  · obtain ⟨g, hg, heq⟩ := mem_headings_of_closeFrames hf
    rw [heq]
    exact h g hg

theorem Starred.setId (h : r.Starred) (id : Option String) : (r.setId id).Starred := by
  unfold Reader.setId
  split
  · exact h
  · next f fs hframes =>
    rw [Starred, hframes, List.forall_mem_cons] at h
    exact List.forall_mem_cons.2 h

theorem Starred.body (h : r.Starred) (line : List Char) : (r.body line).Starred := by
  have hdrawer : Starred { r with drawer := (r.drawer.step (trim line)).1 } := h
  unfold Reader.body
  dsimp only
  split
  · exact hdrawer.setId _
  · exact hdrawer

theorem Starred.step (h : r.Starred) (line : List Char) : (r.step line).Starred := by
  unfold Reader.step
  split
  · next hline => exact h.enter (hasStars_of_ofLine? hline).1
  · exact h.body line

theorem Starred.foldl (h : r.Starred) (ls : List (List Char)) : (ls.foldl Reader.step r).Starred := by
  induction ls generalizing r with
  | nil => exact h
  | cons line ls ih => exact ih (h.step line)

/-! Finished trees take no part in what is read. -/

theorem enter_after (hd : Heading) : (r.after trees).enter hd = (r.enter hd).after trees := by
  simp [enter, after]

theorem body_after (line : List Char) : (r.after trees).body line = (r.body line).after trees := by
  obtain ⟨roots, frames, drawer⟩ := r
  simp only [body, after]
  split
  · cases frames <;> rfl
  · rfl

theorem step_after (line : List Char) : (r.after trees).step line = (r.step line).after trees := by
  unfold step
  split
  · exact enter_after _
  · exact body_after line

theorem foldl_after (ls : List (List Char)) :
    ls.foldl step (r.after trees) = (ls.foldl step r).after trees := by
  induction ls generalizing r with
  | nil => rfl
  | cons line ls ih => rw [List.foldl_cons, List.foldl_cons, step_after, ih]

theorem forest_after : (r.after trees).forest = trees ++ r.forest := by
  simp [forest, after]

theorem Starred.enter_top (h : r.Starred) {hd : Heading} (hd_level : hd.level = 1) :
    r.enter hd = (Reader.enter hd {}).after r.forest := by
  have hclose : closeFrames hd.level [] r.frames = closeFrames 0 [] r.frames :=
    closeFrames_eq_zero (fun f hf => hd_level ▸ h f hf) []
  simp [Reader.enter, after, forest, hclose, closeFrames_zero, closeFrames]

theorem forest_foldl_append {line : List Char} (hline : HasStars 1 line) (ls ls' : List (List Char)) :
    ((ls ++ line :: ls').foldl step {}).forest =
      (ls.foldl step {}).forest ++ ((line :: ls').foldl step {}).forest := by
  obtain ⟨hd, hhd, hlevel⟩ := hline.exists_ofLine?
  have hstep : ∀ r : Reader, r.step line = r.enter hd := by
    intro r
    rw [step, hhd]
  have hstarred : Starred (ls.foldl step {}) := starred_empty.foldl ls
  rw [List.foldl_append, List.foldl_cons, List.foldl_cons, hstep, hstep, hstarred.enter_top hlevel,
    foldl_after, forest_after]

end Reader

/-- The first line is a heading with one star. -/
def StartsAtTop (text : List Char) : Prop :=
  ∃ line ∈ (lines text).head?, HasStars 1 line

instance : DecidablePred StartsAtTop :=
  fun text => inferInstanceAs (Decidable (∃ line ∈ (lines text).head?, HasStars 1 line))

theorem StartsAtTop.head?_ne {text : List Char} (h : StartsAtTop text) : text.head? ≠ some '\n' := by
  obtain ⟨line, hlines, -, rest, rfl, -⟩ := h
  intro hhead
  obtain ⟨rest, rfl⟩ := List.head?_eq_some_iff.1 hhead
  simp [lines, joinReturns, cutLines, isBreak] at hlines

theorem parse_append {a b : String} (ha : ∀ c ∈ a.toList.getLast?, isBreak c = true)
    (hb : StartsAtTop b.toList) : parse (a ++ b) = parse a ++ parse b := by
  have hfeed : b.toList.head? ≠ some '\n' := hb.head?_ne
  obtain ⟨line, hfirst, hline⟩ := hb
  obtain ⟨ls, hlines⟩ := List.head?_eq_some_iff.1 hfirst
  rw [parse, parse, parse, String.toList_append, lines_append_of_closed ha hfeed, hlines,
    Reader.forest_foldl_append hline]

theorem length_listing_parse (text : String) :
    (listing (parse text)).length = (lines text.toList).countP (IsHeading ·) := by
  have hlength := congrArg List.length (withoutId_listing_parse text)
  rw [List.length_map, List.length_map] at hlength
  rw [hlength, List.length_filterMap_eq_countP]
  exact List.countP_congr fun l _ => by simp [isHeading_iff]

/-- Without an end of its last line, a document swallows the heading that is put behind it. -/
theorem parse_append_ne {a b : String} (hne : a.toList ≠ [])
    (ha : ∀ c ∈ a.toList.getLast?, isBreak c = false) (hb : StartsAtTop b.toList) :
    parse (a ++ b) ≠ parse a ++ parse b := by
  intro heq
  obtain ⟨line, hfirst, hline⟩ := hb
  obtain ⟨more, hlines⟩ := List.head?_eq_some_iff.1 hfirst
  obtain ⟨ls, l, hl, hbefore, hafter⟩ := exists_lines_append_of_open hne ha hlines
  have hheading : IsHeading line := ⟨1, hline⟩
  have hlast : IsHeading (l ++ line) → IsHeading l := by
    obtain ⟨-, rest, rfl, -⟩ := hline
    exact IsHeading.of_append hl
  have hcount := congrArg (fun f => (listing f).length) heq
  simp only [listing_append, List.length_append, length_listing_parse, String.toList_append, hbefore,
    hafter, hlines, List.countP_append, List.countP_cons, List.countP_nil] at hcount
  simp only [decide_eq_true_iff, if_pos hheading] at hcount
  have hle : (if IsHeading (l ++ line) then 1 else 0) ≤ if IsHeading l then 1 else 0 := by
    split_ifs with h h'
    · exact Nat.le_refl _
    · exact absurd (hlast h) h'
    · exact Nat.zero_le _
    · exact Nat.le_refl _
  omega

theorem parse_append_iff {a b : String} (hb : StartsAtTop b.toList) :
    parse (a ++ b) = parse a ++ parse b ↔ ∀ c ∈ a.toList.getLast?, isBreak c = true := by
  refine ⟨fun heq c hc => ?_, fun ha => parse_append ha hb⟩
  by_contra hbreak
  refine parse_append_ne (List.ne_nil_of_mem (List.mem_of_getLast? hc)) (fun d hd => ?_) hb heq
  rw [Option.mem_unique hd hc]
  simpa using hbreak

theorem parse_unifyReturns (text : String) :
    parse (String.ofList (unifyReturns text.toList)) = parse text := by
  rw [parse, parse, String.toList_ofList, lines_unifyReturns]

end FeedOutline.Outline
