import FeedOutline.Flat
import FeedOutline.Proofs.Outline.Path

/-!
Inheriting tags down a tree. Levels alone decide what a heading inherits, and in a well nested tree that
is what the headings on the path to it declare.
-/
namespace FeedOutline

open Outline (Node walkAll Nested Leads)

mutual

/-- The headings of a tree, each with the tags from above and those on the path down to it. -/
def Outline.Node.inherit (above : List String) : Node → List FlatEntry
  | ⟨text, _, tags, _, children⟩ => ⟨text, above ++ tags⟩ :: inheritAll (above ++ tags) children

def inheritAll (above : List String) : List Node → List FlatEntry
  | [] => []
  | n :: ns => n.inherit above ++ inheritAll above ns

end

theorem Outline.Node.inherit_eq (n : Node) (above : List String) :
    n.inherit above = ⟨n.text, above ++ n.tags⟩ :: inheritAll (above ++ n.tags) n.children := by
  cases n
  rw [Node.inherit]

theorem dropWhile_of_lt {path : TagStack} {l : Int} (h : ∀ e ∈ path, e.1 < l) :
    path.dropWhile (l ≤ ·.1) = path := by
  cases path with
  | nil => rfl
  | cons e path => simp [h e (List.mem_cons_self ..)]

theorem dropWhile_append_of_le {passed path : TagStack} {l : Int} (hpassed : ∀ e ∈ passed, l ≤ e.1)
    (hpath : ∀ e ∈ path, e.1 < l) : (passed ++ path).dropWhile (l ≤ ·.1) = path := by
  rw [List.dropWhile_append_of_pos (by simpa using hpassed), dropWhile_of_lt hpath]

theorem flattenFrom_walkAll {ns : List Node} (h : Nested ns) (passed path : TagStack)
    (hpassed : ∀ n ∈ ns, ∀ e ∈ passed, n.level ≤ e.1) (hpath : ∀ n ∈ ns, ∀ e ∈ path, e.1 < n.level)
    (rest : List Node) :
    ∃ passed' : TagStack,
      flattenFrom (passed ++ path) (walkAll ns ++ rest) =
        inheritAll (TagStack.inherited path) ns ++ flattenFrom (passed' ++ path) rest ∧
      ∀ l : Int, (∀ n ∈ ns, l ≤ n.level) → (∀ e ∈ passed, l ≤ e.1) → ∀ e ∈ passed', l ≤ e.1 := by
  induction ns using Outline.forest_induction generalizing passed path rest with
  | nil => exact ⟨passed, by simp [inheritAll], fun _ _ h => h⟩
  | cons n ns ihc ihs =>
    obtain ⟨hdeeper, hchildren, hfalling, hns⟩ := Nested.cons_iff.1 h
    rw [List.forall_mem_cons] at hpassed hpath
    let here : Int × List String := (n.level, TagStack.inherited path ++ n.tags)
    have hhere : ∀ c ∈ n.children, ∀ e ∈ here :: path, e.1 < c.level := by
      intro c hc e he
      rcases List.mem_cons.1 he with rfl | he
      · exact hdeeper c hc
      · exact Int.lt_trans (hpath.1 e he) (hdeeper c hc)
    obtain ⟨below, hbelow, hbelow_le⟩ :=
      ihc hchildren [] (here :: path) (by simp) hhere (walkAll ns ++ rest)
    have hbelow_level : ∀ e ∈ below ++ [here], n.level ≤ e.1 := by
      intro e he
      rcases List.mem_append.1 he with he | he
      · exact hbelow_le n.level (fun c hc => Int.le_of_lt (hdeeper c hc)) (by simp) e he
      · exact (List.mem_singleton.1 he) ▸ Int.le_refl n.level
    have hbeside : ∀ m ∈ ns, ∀ e ∈ below ++ [here], m.level ≤ e.1 := by
      intro m hm e he
      exact Int.le_trans (hfalling m hm) (hbelow_level e he)
    obtain ⟨passed', hrest, hrest_le⟩ := ihs hns (below ++ [here]) path hbeside hpath.2 rest
    refine ⟨passed', ?_, fun l hl _ => hrest_le l (List.forall_mem_cons.1 hl).2 fun e he => ?_⟩
    · have hcut := dropWhile_append_of_le hpassed.1 hpath.1
      rw [Outline.walkAll_cons, List.cons_append, flattenFrom, hcut, inheritAll,
        Node.inherit_eq, List.append_assoc]
      have hsplit : below ++ here :: path = below ++ [here] ++ path := by simp
      simp only [List.cons_append, List.nil_append] at hbelow ⊢
      rw [hbelow, hsplit, hrest]
      simp [here, TagStack.inherited]
    · exact Int.le_trans (List.forall_mem_cons.1 hl).1 (hbelow_level e he)

/-- A well nested tree is flattened by handing the tags down from each heading to those below it. -/
theorem flatten_eq_inherit {r : Node} (h : Nested [r]) : flatten r = r.inherit [] := by
  obtain ⟨passed', hwalk, -⟩ :=
    flattenFrom_walkAll h [] [] (by simp) (by simp) []
  simpa [flatten, Outline.Node.walk_eq, inheritAll, flattenFrom, TagStack.inherited] using hwalk

theorem mem_inheritAll_iff {e : FlatEntry} {above : List String} {ns : List Node} :
    e ∈ inheritAll above ns ↔ ∃ top ∈ ns, ∃ path h, Leads top path h ∧
      e = ⟨h.text, above ++ path.flatMap (·.tags)⟩ := by
  induction ns using Outline.forest_induction generalizing above with
  | nil => simp [inheritAll]
  | cons n ns ihc ihs =>
    rw [inheritAll, Node.inherit_eq, List.cons_append, List.mem_cons, List.mem_append, ihc, ihs]
    constructor
    · rintro (rfl | ⟨c, hc, path, h, hp, rfl⟩ | ⟨top, htop, path, h, hp, rfl⟩)
      · exact ⟨n, List.mem_cons_self .., _, n, .here n, by simp⟩
      · exact ⟨n, List.mem_cons_self .., _, h, .down hc hp, by simp⟩
      · exact ⟨top, List.mem_cons_of_mem _ htop, path, h, hp, rfl⟩
    · rintro ⟨top, htop, path, h, hp, rfl⟩
      rcases List.mem_cons.1 htop with rfl | htop
      · cases hp with
        | here => exact .inl (by simp)
        | down hc hp => exact .inr (.inl ⟨_, hc, _, h, hp, by simp⟩)
      · exact .inr (.inr ⟨top, htop, path, h, hp, rfl⟩)

/-- The entries of a well nested tree are its headings with the tags on the paths to them. -/
theorem mem_flatten_iff {r : Node} (hr : Nested [r]) {e : FlatEntry} :
    e ∈ flatten r ↔ ∃ path h, Leads r path h ∧ e = ⟨h.text, path.flatMap (·.tags)⟩ := by
  have hinherit : r.inherit [] = inheritAll [] [r] := by simp [inheritAll]
  rw [flatten_eq_inherit hr, hinherit, mem_inheritAll_iff]
  simp

deriving instance ReflBEq, LawfulBEq for FlatEntry

theorem mem_dedupe {entries : List FlatEntry} {e : FlatEntry} : e ∈ dedupe entries ↔ e ∈ entries :=
  List.mem_eraseDups

end FeedOutline
