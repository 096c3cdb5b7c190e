/-!
Sets of tags. A set is kept in the order of code points without repetition, so that two sets with the
same tags are equal.
-/
namespace FeedOutline

structure TagSet where
  toList : List String
  sorted : toList.Pairwise (· < ·)
  deriving DecidableEq

namespace TagSet

def place (t : String) : List String → List String
  | [] => [t]
  | x :: xs => if t < x then t :: x :: xs else if t = x then x :: xs else x :: place t xs

theorem mem_place {t u : String} {xs : List String} : u ∈ place t xs ↔ u = t ∨ u ∈ xs := by
  induction xs with
  | nil => simp [place]
  | cons x xs ih => grind [place]

theorem pairwise_place {t : String} {xs : List String} (h : xs.Pairwise (· < ·)) :
    (place t xs).Pairwise (· < ·) := by
  induction xs with
  | nil => simp [place]
  | cons x xs ih =>
    rw [List.pairwise_cons] at h
    simp only [place]
    split
    · next hlt =>
      refine List.pairwise_cons.2 ⟨fun y hy => ?_, List.pairwise_cons.2 h⟩
      rcases List.mem_cons.1 hy with rfl | hy
      · exact hlt
      · exact String.lt_trans hlt (h.1 y hy)
    · split
      · exact List.pairwise_cons.2 h
      · next hlt hne =>
        refine List.pairwise_cons.2 ⟨fun y hy => ?_, ih h.2⟩
        rcases mem_place.1 hy with rfl | hy
        · exact Std.lt_of_le_of_ne (Std.not_lt.1 hlt) (Ne.symm hne)
        · exact h.1 y hy

def empty : TagSet :=
  ⟨[], List.Pairwise.nil⟩

def insert (s : TagSet) (t : String) : TagSet :=
  ⟨place t s.toList, pairwise_place s.sorted⟩

def ofList (tags : List String) : TagSet :=
  tags.foldl insert empty

def contains (s : TagSet) (t : String) : Bool :=
  s.toList.contains t

instance : Membership String TagSet :=
  ⟨fun s t => t ∈ s.toList⟩

instance (t : String) (s : TagSet) : Decidable (t ∈ s) :=
  inferInstanceAs (Decidable (t ∈ s.toList))

instance : Inhabited TagSet :=
  ⟨empty⟩

def union (s t : TagSet) : TagSet :=
  t.toList.foldl insert s

def diff (s t : TagSet) : TagSet :=
  ⟨s.toList.filter (!t.contains ·), s.sorted.filter _⟩

def isEmpty (s : TagSet) : Bool :=
  s.toList.isEmpty

end TagSet

end FeedOutline
