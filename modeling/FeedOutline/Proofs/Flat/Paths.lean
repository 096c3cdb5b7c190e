import FeedOutline.Proofs.Flat.Inheritance
import FeedOutline.Proofs.Outline.Reading

/-!
Flattening, told by paths. The subtree of a marked heading lists its headings depth first, each with what is
declared on the path down to it, whatever levels the document leaves out.
-/
namespace FeedOutline

open Outline (Node Leads marked parse walkAll)

namespace Outline

mutual

/-- The paths that go on from those above to a heading and to each one below it, depth first. -/
def Node.paths (above : List Node) : Node → List (List Node)
  | ⟨text, level, tags, id, children⟩ =>
    (above ++ [⟨text, level, tags, id, children⟩]) ::
      pathsAll (above ++ [⟨text, level, tags, id, children⟩]) children

def pathsAll (above : List Node) : List Node → List (List Node)
  | [] => []
  | n :: ns => n.paths above ++ pathsAll above ns

end

theorem Node.paths_eq (n : Node) (above : List Node) :
    n.paths above = (above ++ [n]) :: pathsAll (above ++ [n]) n.children := by
  cases n
  rw [Node.paths]

theorem pathsAll_append (above more ns : List Node) :
    pathsAll (above ++ more) ns = (pathsAll more ns).map (above ++ ·) := by
  induction ns using forest_induction generalizing more with
  | nil => rw [pathsAll, pathsAll, List.map_nil]
  | cons n ns ihc ihs =>
    rw [pathsAll, pathsAll, Node.paths_eq, Node.paths_eq, List.append_assoc, ihc, ihs, List.map_append,
      List.map_cons]

theorem Node.paths_above (n : Node) (above : List Node) :
    n.paths above = (n.paths []).map (above ++ ·) := by
  rw [Node.paths_eq, Node.paths_eq, pathsAll_append, List.map_cons, List.nil_append]

theorem Node.exists_of_mem_paths (n : Node) {path : List Node} (h : path ∈ n.paths []) :
    ∃ below, path = n :: below := by
  have hbelow := pathsAll_append [n] [] n.children
  rw [Node.paths_eq, List.nil_append] at h
  rcases List.mem_cons.1 h with rfl | h
  · exact ⟨[], rfl⟩
  · rw [List.append_nil] at hbelow
    rw [hbelow] at h
    obtain ⟨below, -, rfl⟩ := List.mem_map.1 h
    exact ⟨below, rfl⟩

theorem forall₂_pathsAll (above ns : List Node) :
    List.Forall₂ (fun path n => ∃ top ∈ ns, ∃ below, path = above ++ below ∧ Leads top below n)
      (pathsAll above ns) (walkAll ns) := by
  induction ns using forest_induction generalizing above with
  | nil => simp [pathsAll]
  | cons n ns ihc ihs =>
    rw [pathsAll, Node.paths_eq, walkAll_cons, List.cons_append]
    refine .cons ⟨n, List.mem_cons_self .., [n], rfl, .here n⟩ (List.rel_append ?_ ?_)
    · refine (ihc (above ++ [n])).imp ?_
      rintro _ m ⟨c, hc, below, rfl, hbelow⟩
      exact ⟨n, List.mem_cons_self .., n :: below, by simp, .down hc hbelow⟩
    · refine (ihs above).imp ?_
      rintro path m ⟨top, htop, h⟩
      exact ⟨top, List.mem_cons_of_mem _ htop, h⟩

theorem exists_leads_of_mem_pathsAll {trail ns : List Node} (h : trail ∈ pathsAll [] ns) :
    ∃ top ∈ ns, ∃ n, Leads top trail n := by
  have hpaths := forall₂_pathsAll [] ns
  generalize pathsAll [] ns = paths, walkAll ns = nodes at h hpaths
  induction hpaths with
  | nil => cases h
  | cons hpath _ ih =>
    rcases List.mem_cons.1 h with rfl | h
    · obtain ⟨top, htop, _, rfl, hleads⟩ := hpath
      exact ⟨top, htop, _, hleads⟩
    · exact ih h

theorem Node.forall₂_paths (r : Node) : List.Forall₂ (Leads r) (r.paths []) r.walk := by
  have hpaths := forall₂_pathsAll [] [r]
  simp only [pathsAll, List.append_nil, walkAll_cons, walkAll_nil, ← Node.walk_eq,
    List.mem_singleton, exists_eq_left, List.nil_append] at hpaths
  refine hpaths.imp ?_
  rintro _ n ⟨path, rfl, h⟩
  exact h

end Outline

/-- The last heading of a path with all tags declared on it, from the first heading on. -/
def FlatEntry.atEnd (path : List Node) : FlatEntry :=
  ⟨(path.getLast?.map (·.text)).getD "", path.flatMap (·.tags)⟩

theorem inheritAll_eq_map_pathsAll (above ns : List Node) :
    inheritAll (above.flatMap (·.tags)) ns = (Outline.pathsAll above ns).map .atEnd := by
  induction ns using Outline.forest_induction generalizing above with
  | nil => simp [inheritAll, Outline.pathsAll]
  | cons n ns ihc ihs =>
    have hhere : above.flatMap (·.tags) ++ n.tags = (above ++ [n]).flatMap (·.tags) := by simp
    rw [inheritAll, Node.inherit_eq, hhere, ihc, ihs, Outline.pathsAll, Outline.Node.paths_eq,
      List.map_append, List.map_cons]
    simp [FlatEntry.atEnd]

theorem Outline.Node.inherit_eq_map_paths (r : Node) : r.inherit [] = (r.paths []).map .atEnd := by
  have hpaths := inheritAll_eq_map_pathsAll [] [r]
  simpa [inheritAll, Outline.pathsAll] using hpaths

/-- The levels alone decide what a heading of a marked subtree inherits, and that is what the recursion down
the tree hands to it: the tags of the headings on its path, each as often as it is declared. -/
theorem flatten_eq_map_paths {text marker : String} {r : Node} (hr : r ∈ marked marker (parse text)) :
    flatten r = r.inherit [] ∧ flatten r = (r.paths []).map .atEnd ∧
      List.Forall₂ (Leads r) (r.paths []) r.walk := by
  have hmem : r ∈ walkAll (parse text) := (List.mem_filter.1 hr).1
  have hflatten := flatten_eq_inherit ((Outline.nested_parse text).of_mem_walkAll hmem)
  exact ⟨hflatten, hflatten.trans r.inherit_eq_map_paths, r.forall₂_paths⟩

theorem flatten_eq_map_paths_of_jump :
    let text := "* Top\n** Feeds :elfeed:a:\n***** Deep :a:b:\n**** Side :c:\n"
    let deep : Node := ⟨"Deep", 5, ["a", "b"], none, []⟩
    let side : Node := ⟨"Side", 4, ["c"], none, []⟩
    let r : Node := ⟨"Feeds", 2, ["elfeed", "a"], none, [deep, side]⟩
    r ∈ marked "elfeed" (parse text) ∧ flatten r = (r.paths []).map .atEnd ∧
      r.paths [] = [[r], [r, deep], [r, side]] ∧
      flatten r = [⟨"Feeds", ["elfeed", "a"]⟩, ⟨"Deep", ["elfeed", "a", "a", "b"]⟩,
        ⟨"Side", ["elfeed", "a", "c"]⟩] := by
  intro text deep side r
  let top : Node := ⟨"Top", 1, [], none, [r]⟩
  let fields (n : Node) := (n.text, n.level, n.tags, n.id)
  have hfields : (walkAll (parse text)).map fields = (walkAll [top]).map fields := by decide +kernel
  have hlisting : Outline.listing (parse text) = Outline.listing [top] := by
    have hbare : ∀ ns, Outline.listing ns =
        ((walkAll ns).map fields).map fun f => ⟨f.1, f.2.1, f.2.2.1, f.2.2.2, []⟩ := fun ns => by
      rw [Outline.listing, List.map_map]
      rfl
    rw [hbare, hbare, hfields]
  have hnested : Outline.Nested [top] :=
    ⟨by simp [top, r, deep, side], by simp [Outline.Falling], by simp [top, r, deep, side, Outline.Falling]⟩
  have hparse : parse text = [top] := Outline.Nested.eq_of_listing_eq (Outline.nested_parse text) hnested hlisting
  have hr : r ∈ marked "elfeed" (parse text) := by
    rw [hparse, marked, List.mem_filter]
    exact ⟨by simp [top, r], by decide⟩
  have hpaths : r.paths [] = [[r], [r, deep], [r, side]] := by
    simp [r, deep, side, Outline.Node.paths, Outline.pathsAll]
  obtain ⟨-, hflatten, -⟩ := flatten_eq_map_paths hr
  refine ⟨hr, hflatten, hpaths, ?_⟩
  rw [hflatten, hpaths]
  rfl

/-- Where siblings get deeper, as in no document, a heading inherits from the one beside it. -/
example : flatten ⟨"A", 1, [], none, [⟨"B", 2, ["b"], none, []⟩, ⟨"C", 3, ["c"], none, []⟩]⟩ =
    [⟨"A", []⟩, ⟨"B", ["b"]⟩, ⟨"C", ["b", "c"]⟩] := by decide

end FeedOutline
