import FeedOutline.Proofs.Distinct

/-!
What the last member of a list gives that gives anything.
-/
namespace FeedOutline

/-- The last of the members that give anything gives this. -/
def LastGives {α : Type} (gives : α → String → Prop) (xs : List α) (y : String) : Prop :=
  ∃ before x after, xs = before ++ x :: after ∧ gives x y ∧ ∀ x' ∈ after, ∀ y', ¬ gives x' y'

namespace LastGives

variable {α β : Type} {gives gives' : α → String → Prop} {xs : List α} {x : α} {y : String}

theorem not_nil : ¬ LastGives gives [] y := by
  rintro ⟨before, x, after, heq, -⟩
  simp at heq

theorem concat_iff : LastGives gives (xs ++ [x]) y ↔
    gives x y ∨ (∀ y', ¬ gives x y') ∧ LastGives gives xs y := by
  constructor
  · rintro ⟨before, x', after, heq, hgives, hafter⟩
    rcases List.eq_nil_or_concat after with rfl | ⟨after, last, rfl⟩
    · obtain ⟨-, heq⟩ := List.append_inj' heq rfl
      cases heq
      exact .inl hgives
    · rw [List.concat_eq_append, ← List.cons_append, ← List.append_assoc] at heq
      obtain ⟨rfl, hlast⟩ := List.append_inj' heq rfl
      cases hlast
      rw [List.concat_eq_append, List.forall_mem_append] at hafter
      exact .inr ⟨hafter.2 x (List.mem_singleton_self x), before, x', after, rfl, hgives, hafter.1⟩
  · rintro (hgives | ⟨hnone, before, x', after, rfl, hgives, hafter⟩)
    · exact ⟨xs, x, [], rfl, hgives, by simp⟩
    · refine ⟨before, x', after ++ [x], by simp, hgives, ?_⟩
      exact List.forall_mem_append.2 ⟨hafter, List.forall_mem_singleton.2 hnone⟩

theorem iff_getLast? {f : α → Option String} (h : ∀ x y, gives x y ↔ f x = some y) :
    LastGives gives xs y ↔ (xs.filterMap f).getLast? = some y := by
  induction xs using List.reverseRecOn with
  | nil => simp [not_nil]
  | append_singleton xs x ih =>
    rw [concat_iff, List.filterMap_append, ih, h]
    cases hx : f x with
    | none => simp [h, hx]
    | some z => simp [h, hx]

theorem congr_iff (h : ∀ x ∈ xs, ∀ y, gives x y ↔ gives' x y) :
    LastGives gives xs y ↔ LastGives gives' xs y := by
  induction xs using List.reverseRecOn with
  | nil => simp [not_nil]
  | append_singleton xs x ih =>
    rw [List.forall_mem_append, List.forall_mem_singleton] at h
    rw [concat_iff, concat_iff, ih h.1]
    simp only [h.2]

theorem filterMap_iff {gives : β → String → Prop} (g : α → Option β) :
    LastGives gives (xs.filterMap g) y ↔ LastGives (fun x y => ∃ z, g x = some z ∧ gives z y) xs y := by
  induction xs using List.reverseRecOn with
  | nil => simp [not_nil]
  | append_singleton xs x ih =>
    rw [List.filterMap_append, concat_iff, ← ih]
    cases hx : g x with
    | none => simp [hx]
    | some z => simp [hx, concat_iff]

theorem eraseDups_iff [BEq α] [LawfulBEq α] (h : xs.Pairwise fun x x' => (∃ y, gives x y) → x ≠ x') :
    LastGives gives xs.eraseDups y ↔ LastGives gives xs y := by
  induction xs using List.reverseRecOn with
  | nil => rfl
  | append_singleton xs x ih =>
    obtain ⟨hxs, -, hlast⟩ := List.pairwise_append.1 h
    rw [concat_iff, ← ih hxs]
    by_cases hmem : x ∈ xs
    · have hnone : ∀ y', ¬ gives x y' := fun y' hy' =>
        hlast x hmem x (List.mem_singleton_self x) ⟨y', hy'⟩ rfl
      simp [eraseDups_concat_of_mem hmem, hnone]
    · rw [eraseDups_concat_of_not_mem hmem, concat_iff]

end LastGives

end FeedOutline
