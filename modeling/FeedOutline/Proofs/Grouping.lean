import Mathlib.Data.List.Nodup
import Mathlib.Data.List.Pairwise
import Mathlib.Data.List.Perm.Basic

/-!
Lists that are grouped by the keys of their members.
-/
namespace FeedOutline

variable {α κ : Type} [DecidableEq κ] {key : α → κ} {keys : List κ} {xs ys : List α}

/-- The same members in another order: in that of their keys, and those of one key as they came. -/
structure Regrouped (key : α → κ) (keys : List κ) (xs ys : List α) : Prop where
  perm : ys.Perm xs
  sorted : ys.Pairwise fun x y => keys.idxOf (key x) ≤ keys.idxOf (key y)
  stable : ∀ k, ys.filter (key · = k) = xs.filter (key · = k)

def groups (key : α → κ) (keys : List κ) (xs : List α) : List α :=
  keys.flatMap fun k => xs.filter (key · = k)

theorem groups_perm (hnodup : keys.Nodup) (h : ∀ x ∈ xs, key x ∈ keys) : (groups key keys xs).Perm xs := by
  induction keys generalizing xs with
  | nil =>
    rw [List.eq_nil_iff_forall_not_mem.2 fun x hx => List.not_mem_nil (h x hx)]
    exact List.Perm.nil
  | cons k keys ih =>
    rw [List.nodup_cons] at hnodup
    -- The members with other keys than the first make up the other groups.
    let others := xs.filter fun x => !(decide (key x = k))
    have hothers : groups key keys xs = groups key keys others := by
      refine List.flatMap_congr fun k' hk' => ?_
      rw [List.filter_filter]
      refine List.filter_congr fun x _ => ?_
      by_cases hx : key x = k'
      · simp [hx, show k' ≠ k from fun heq => hnodup.1 (heq ▸ hk')]
      · simp [hx]
    have hkeys : ∀ x ∈ others, key x ∈ keys := by
      intro x hx
      obtain ⟨hmem, hne⟩ := List.mem_filter.1 hx
      exact (List.mem_cons.1 (h x hmem)).resolve_left (by simpa using hne)
    have hsplit : groups key (k :: keys) xs = xs.filter (key · = k) ++ groups key keys others := by
      rw [← hothers, groups, List.flatMap_cons, groups]
    rw [hsplit]
    exact ((ih hnodup.2 hkeys).append_left _).trans (List.filter_append_perm _ xs)

theorem idxOf_pairwise (hnodup : keys.Nodup) :
    keys.Pairwise fun k k' => keys.idxOf k ≤ keys.idxOf k' := by
  rw [List.pairwise_iff_getElem]
  intro i j hi hj hij
  rw [hnodup.idxOf_getElem i hi, hnodup.idxOf_getElem j hj]
  exact Nat.le_of_lt hij

theorem groups_pairwise (hnodup : keys.Nodup) (xs : List α) :
    (groups key keys xs).Pairwise fun x y => keys.idxOf (key x) ≤ keys.idxOf (key y) := by
  have hkey : ∀ k, ∀ x ∈ xs.filter (key · = k), key x = k := by
    intro k x hx
    simpa using (List.mem_filter.1 hx).2
  rw [groups, List.pairwise_flatMap]
  constructor
  · intro k _
    refine List.pairwise_iff_forall_sublist.2 fun hsub => ?_
    apply Nat.le_of_eq
    rw [hkey k _ (hsub.subset (by simp)), hkey k _ (hsub.subset (by simp))]
  · refine (idxOf_pairwise hnodup).imp fun hle x hx y hy => ?_
    rwa [hkey _ x hx, hkey _ y hy]

theorem filter_groups (hnodup : keys.Nodup) (xs : List α) (k : κ) :
    (groups key keys xs).filter (key · = k) = if k ∈ keys then xs.filter (key · = k) else [] := by
  induction keys with
  | nil => rfl
  | cons k' keys ih =>
    rw [List.nodup_cons] at hnodup
    rw [groups, List.flatMap_cons, List.filter_append, ← groups, ih hnodup.2, List.filter_filter]
    by_cases hk : k = k'
    · simp [hk, hnodup.1]
    · have hnone : xs.filter (fun x => decide (key x = k) && decide (key x = k')) = [] := by
        rw [List.filter_eq_nil_iff]
        intro x _ hx
        simp only [Bool.and_eq_true, decide_eq_true_eq] at hx
        exact hk (hx.1.symm.trans hx.2)
      simp [hnone, hk]

theorem regrouped_groups (hnodup : keys.Nodup) (h : ∀ x ∈ xs, key x ∈ keys) :
    Regrouped key keys xs (groups key keys xs) := by
  refine ⟨groups_perm hnodup h, groups_pairwise hnodup xs, fun k => ?_⟩
  rw [filter_groups hnodup]
  split
  · rfl
  · next hk =>
    refine (List.filter_eq_nil_iff.2 fun x hx hkey => hk ?_).symm
    exact of_decide_eq_true hkey ▸ h x hx

end FeedOutline
