import FeedOutline.Outline.Node
import Mathlib.Data.List.TakeWhile
import Mathlib.Tactic.Tauto

/-!
Well nested forests. Every heading is deeper than the one above it and siblings never get deeper from
one to the next, so the depth-first listing alone determines the forest.
-/
namespace FeedOutline.Outline

def Node.bare (n : Node) : Node :=
  { n with children := [] }

/-- The headings of a forest on their own, depth first. -/
def listing (ns : List Node) : List Node :=
  (walkAll ns).map Node.bare

/-- Levels never increase from one node to the next. -/
def Falling (ns : List Node) : Prop :=
  ns.Pairwise fun a b => b.level ≤ a.level

structure Nested (ns : List Node) : Prop where
  deeper : ∀ n ∈ walkAll ns, ∀ c ∈ n.children, n.level < c.level
  falling : Falling ns
  falling_below : ∀ n ∈ walkAll ns, Falling n.children

/-- A forest is a first tree, the forest below its root, and the forest beside it. -/
theorem forest_induction {motive : List Node → Prop} (nil : motive [])
    (cons : ∀ n ns, motive n.children → motive ns → motive (n :: ns)) : ∀ ns, motive ns
  | [] => nil
  | ⟨_, _, _, _, children⟩ :: ns =>
    cons _ ns (forest_induction nil cons children) (forest_induction nil cons ns)

theorem Node.walk_eq (n : Node) : n.walk = n :: walkAll n.children := by
  cases n
  rw [Node.walk]

@[simp] theorem walkAll_nil : walkAll [] = [] := by
  rw [walkAll]

@[simp] theorem walkAll_cons (n : Node) (ns : List Node) :
    walkAll (n :: ns) = n :: (walkAll n.children ++ walkAll ns) := by
  rw [walkAll, Node.walk_eq, List.cons_append]

@[simp] theorem walkAll_append (ns ms : List Node) :
    walkAll (ns ++ ms) = walkAll ns ++ walkAll ms := by
  induction ns with
  | nil => simp
  | cons n ns ih => simp [ih]

@[simp] theorem listing_nil : listing [] = [] := by
  simp [listing]

@[simp] theorem listing_cons (n : Node) (ns : List Node) :
    listing (n :: ns) = n.bare :: (listing n.children ++ listing ns) := by
  simp [listing]

@[simp] theorem listing_append (ns ms : List Node) :
    listing (ns ++ ms) = listing ns ++ listing ms := by
  simp [listing]

@[simp] theorem Node.bare_level (n : Node) : n.bare.level = n.level := rfl

namespace Nested

theorem nil : Nested [] :=
  ⟨by simp, .nil, by simp⟩

theorem cons_iff {n : Node} {ns : List Node} :
    Nested (n :: ns) ↔
      (∀ c ∈ n.children, n.level < c.level) ∧ Nested n.children ∧
        (∀ m ∈ ns, m.level ≤ n.level) ∧ Nested ns := by
  constructor
  · intro h
    have hdeeper := h.deeper
    have hfalling := List.pairwise_cons.1 h.falling
    have hbelow := h.falling_below
    simp only [walkAll_cons, List.forall_mem_cons, List.forall_mem_append] at hdeeper hbelow
    exact ⟨hdeeper.1, ⟨hdeeper.2.1, hbelow.1, hbelow.2.1⟩, hfalling.1,
      hdeeper.2.2, hfalling.2, hbelow.2.2⟩
  · rintro ⟨hdeeper, hchildren, hfalling, hns⟩
    refine ⟨?_, List.pairwise_cons.2 ⟨hfalling, hns.falling⟩, ?_⟩
    · simp only [walkAll_cons, List.forall_mem_cons, List.forall_mem_append]
      exact ⟨hdeeper, hchildren.deeper, hns.deeper⟩
    · simp only [walkAll_cons, List.forall_mem_cons, List.forall_mem_append]
      exact ⟨hchildren.falling, hchildren.falling_below, hns.falling_below⟩

theorem singleton_iff {n : Node} :
    Nested [n] ↔ (∀ c ∈ n.children, n.level < c.level) ∧ Nested n.children := by
  simp [cons_iff, Nested.nil]

theorem append_iff {ns ms : List Node} :
    Nested (ns ++ ms) ↔ Nested ns ∧ Nested ms ∧ ∀ n ∈ ns, ∀ m ∈ ms, m.level ≤ n.level := by
  induction ns with
  | nil => simp [Nested.nil]
  | cons n ns ih =>
    simp only [List.cons_append, cons_iff, ih, List.forall_mem_cons, List.forall_mem_append]
    tauto

theorem lt_of_mem_walkAll {ns : List Node} (h : Nested ns) {l : Int} (hl : ∀ n ∈ ns, l < n.level) :
    ∀ m ∈ walkAll ns, l < m.level := by
  induction ns using forest_induction with
  | nil => simp
  | cons n ns ihc ihs =>
    obtain ⟨hdeeper, hchildren, -, hns⟩ := cons_iff.1 h
    rw [List.forall_mem_cons] at hl
    simp only [walkAll_cons, List.forall_mem_cons, List.forall_mem_append]
    refine ⟨hl.1, ihc hchildren fun c hc => ?_, ihs hns hl.2⟩
    exact Int.lt_trans hl.1 (hdeeper c hc)

theorem le_of_mem_walkAll {ns : List Node} (h : Nested ns) {l : Int} (hl : ∀ n ∈ ns, l ≤ n.level) :
    ∀ m ∈ walkAll ns, l ≤ m.level := by
  intro m hm
  have := h.lt_of_mem_walkAll (l := l - 1) (fun n hn => by have := hl n hn; omega) m hm
  omega

/-- In the listing, what is below the first root is all that is deeper than it, up to the next root. -/
theorem split_listing {n : Node} {ns : List Node} (h : Nested (n :: ns)) :
    (listing n.children ++ listing ns).takeWhile (n.level < ·.level) = listing n.children ∧
      (listing n.children ++ listing ns).dropWhile (n.level < ·.level) = listing ns := by
  obtain ⟨hdeeper, hchildren, hfalling, -⟩ := cons_iff.1 h
  have hbelow : ∀ m ∈ listing n.children, decide (n.level < m.level) = true := by
    intro m hm
    obtain ⟨c, hc, rfl⟩ := List.mem_map.1 hm
    exact decide_eq_true (hchildren.lt_of_mem_walkAll hdeeper c hc)
  rw [List.takeWhile_append_of_pos hbelow, List.dropWhile_append_of_pos hbelow]
  cases ns with
  | nil => simp
  | cons m ms =>
    have hm : ¬ n.level < m.level := Int.not_lt.2 (hfalling m (List.mem_cons_self ..))
    simp [hm]

/-- A well nested forest is determined by its depth-first listing. -/
theorem eq_of_listing_eq {f g : List Node} (hf : Nested f) (hg : Nested g)
    (h : listing f = listing g) : f = g := by
  induction f using forest_induction generalizing g with
  | nil =>
    cases g with
    | nil => rfl
    | cons m ms => simp at h
  | cons n ns ihc ihs =>
    cases g with
    | nil => simp at h
    | cons m ms =>
      rw [listing_cons, listing_cons, List.cons.injEq] at h
      obtain ⟨hbare, hrest⟩ := h
      have hlevel : n.bare.level = m.bare.level := by rw [hbare]
      rw [Node.bare_level, Node.bare_level] at hlevel
      have htake := (split_listing hf).1
      have hdrop := (split_listing hf).2
      rw [hrest, hlevel] at htake hdrop
      rw [(split_listing hg).1] at htake
      rw [(split_listing hg).2] at hdrop
      have hchildren := ihc (cons_iff.1 hf).2.1 (cons_iff.1 hg).2.1 htake.symm
      have hsiblings := ihs (cons_iff.1 hf).2.2.2 (cons_iff.1 hg).2.2.2 hdrop.symm
      have hroot : n = m := by
        cases n
        cases m
        simp_all [Node.bare]
      rw [hroot, hsiblings]

end Nested

/-! The place of the parent of each heading in the listing. -/

mutual

def Node.parents (above : Option Nat) (place : Nat) : Node → List (Option Nat)
  | ⟨_, _, _, _, children⟩ => above :: parentsFrom (some place) (place + 1) children

def parentsFrom (above : Option Nat) (place : Nat) : List Node → List (Option Nat)
  | [] => []
  | n :: ns => n.parents above place ++ parentsFrom above (place + n.walk.length) ns

end

/-- For each heading of a listed forest, the place of its parent; a root has none. -/
def parents (ns : List Node) : List (Option Nat) :=
  parentsFrom none 0 ns

def levels (ns : List Node) : List Int :=
  (walkAll ns).map Node.level

/-- The last of the earlier levels that is smaller stands at that place; none is smaller if there is no
place. -/
def IsNearest (earlier : List Int) (l : Int) : Option Nat → Prop
  | none => ∀ k ∈ earlier, l ≤ k
  | some place => ∃ before k after, earlier = before ++ k :: after ∧ before.length = place ∧ k < l ∧
      ∀ j ∈ after, l ≤ j

inductive AllNearest : List Int → List Int → List (Option Nat) → Prop
  | nil {earlier} : AllNearest earlier [] []
  | cons {earlier l ls place places} : IsNearest earlier l place →
      AllNearest (earlier ++ [l]) ls places → AllNearest earlier (l :: ls) (place :: places)

theorem Node.parents_eq (n : Node) (above : Option Nat) (place : Nat) :
    n.parents above place = above :: parentsFrom (some place) (place + 1) n.children := by
  cases n
  rw [Node.parents]

@[simp] theorem levels_nil : levels [] = [] := by
  simp [levels]

@[simp] theorem levels_cons (n : Node) (ns : List Node) :
    levels (n :: ns) = n.level :: (levels n.children ++ levels ns) := by
  simp [levels]

theorem IsNearest.of_last {earlier : List Int} {k l : Int} (h : k < l) :
    IsNearest (earlier ++ [k]) l (some earlier.length) :=
  ⟨earlier, k, [], rfl, rfl, h, by simp⟩

theorem IsNearest.append {earlier later : List Int} {l : Int} {place : Option Nat}
    (h : IsNearest earlier l place) (hlater : ∀ k ∈ later, l ≤ k) :
    IsNearest (earlier ++ later) l place := by
  cases place with
  | none => exact List.forall_mem_append.2 ⟨h, hlater⟩
  | some place =>
    obtain ⟨before, k, after, rfl, hplace, hk, hafter⟩ := h
    exact ⟨before, k, after ++ later, by simp, hplace, hk, List.forall_mem_append.2 ⟨hafter, hlater⟩⟩

theorem AllNearest.append {earlier xs ys : List Int} {ps qs : List (Option Nat)}
    (hx : AllNearest earlier xs ps) (hy : AllNearest (earlier ++ xs) ys qs) :
    AllNearest earlier (xs ++ ys) (ps ++ qs) := by
  induction hx with
  | nil => simpa using hy
  | cons hl _ ih => exact .cons hl (ih (by simpa using hy))

theorem Nested.allNearest_from {ns : List Node} (h : Nested ns) {earlier : List Int}
    {above : Option Nat} (habove : ∀ n ∈ ns, IsNearest earlier n.level above) :
    AllNearest earlier (levels ns) (parentsFrom above earlier.length ns) := by
  induction ns using forest_induction generalizing earlier above with
  | nil => simpa [parentsFrom] using AllNearest.nil
  | cons n ns ihc ihs =>
    obtain ⟨hdeeper, hchildren, hfalling, hns⟩ := cons_iff.1 h
    have hlength : (earlier ++ [n.level]).length = earlier.length + 1 := by simp
    have hplace : earlier.length + n.walk.length =
        (earlier ++ n.level :: levels n.children).length := by
      simp [Node.walk_eq, levels]
    rw [levels_cons, parentsFrom, Node.parents_eq, List.cons_append]
    refine .cons (habove n (List.mem_cons_self ..)) (.append ?_ ?_)
    · rw [← hlength]
      exact ihc hchildren fun c hc => .of_last (hdeeper c hc)
    · rw [hplace, List.append_assoc, List.singleton_append]
      refine ihs hns fun m hm => (habove m (List.mem_cons_of_mem _ hm)).append ?_
      have hwalk := (singleton_iff.2 ⟨hdeeper, hchildren⟩).le_of_mem_walkAll (l := m.level)
        (by simpa using hfalling m hm)
      simpa [levels] using hwalk

/-- In a well nested forest the parent of a heading is the nearest one before it with a smaller level. -/
theorem Nested.allNearest {ns : List Node} (h : Nested ns) :
    AllNearest [] (levels ns) (parents ns) :=
  h.allNearest_from fun _ _ => by simp [IsNearest]

end FeedOutline.Outline
