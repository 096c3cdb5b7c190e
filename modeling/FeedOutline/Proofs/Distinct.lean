import Mathlib.Data.List.Induction
import Mathlib.Data.List.Nodup
import Mathlib.Data.List.Pairwise

/-!
Lists of which each member is kept once, at the place where it comes first.
-/
namespace FeedOutline

variable {α : Type} {xs ys : List α}

theorem nodup_filterMap_iff {β : Type} {f : α → Option β} (h : xs.Nodup) :
    (xs.filterMap f).Nodup ↔ ∀ x ∈ xs, ∀ y ∈ xs, x ≠ y → ∀ z, f x = some z → f y ≠ some z := by
  rw [List.Nodup, List.pairwise_filterMap]
  constructor
  · intro hpairwise x hx y hy hxy z hfx hfy
    have hsymm : Std.Symm fun x y => ∀ z, f x = some z → ∀ z', f y = some z' → z ≠ z' :=
      ⟨fun x y hne z hfx z' hfy => (hne z' hfy z hfx).symm⟩
    exact hpairwise.forall hx hy hxy z hfx z hfy rfl
  · intro hall
    refine h.pairwise_of_forall_ne fun x hx y hy hxy z hfx z' hfy heq => ?_
    exact hall x hx y hy hxy z hfx (heq ▸ hfy)

variable [BEq α]

/-- The second list has each member of the first one once, in the order in which they come there for the
first time. -/
structure FirstOccurrences (xs firsts : List α) : Prop where
  nodup : firsts.Nodup
  mem_iff : ∀ x, x ∈ firsts ↔ x ∈ xs
  inOrder : firsts.Pairwise fun x y => xs.idxOf x < xs.idxOf y

theorem FirstOccurrences.unique {firsts firsts' : List α} (h : FirstOccurrences xs firsts)
    (h' : FirstOccurrences xs firsts') : firsts = firsts' := by
  have hperm : firsts.Perm firsts' :=
    (List.perm_ext_iff_of_nodup h.nodup h'.nodup).2 fun x => (h.mem_iff x).trans (h'.mem_iff x).symm
  exact hperm.eq_of_pairwise (fun x y _ _ hxy hyx => absurd hyx (Nat.lt_asymm hxy)) h.inOrder h'.inOrder

variable [LawfulBEq α]

theorem eraseDups_eq_self (h : xs.Nodup) : xs.eraseDups = xs := by
  induction xs with
  | nil => rfl
  | cons x xs ih =>
    rw [List.nodup_cons] at h
    have hfilter : (xs.filter fun y => !y == x) = xs := by
      rw [List.filter_eq_self]
      intro y hy
      simpa using fun heq : y = x => h.1 (heq ▸ hy)
    rw [List.eraseDups_cons, hfilter, ih h.2]

theorem eraseDups_concat_of_mem {x : α} (h : x ∈ xs) : (xs ++ [x]).eraseDups = xs.eraseDups := by
  simp [List.eraseDups_append, List.removeAll, h]

theorem eraseDups_concat_of_not_mem {x : α} (h : x ∉ xs) :
    (xs ++ [x]).eraseDups = xs.eraseDups ++ [x] := by
  simp [List.eraseDups_append, List.removeAll, h, List.eraseDups_cons]

theorem nodup_eraseDups (xs : List α) : xs.eraseDups.Nodup := by
  induction xs using List.reverseRecOn with
  | nil => exact List.nodup_nil
  | append_singleton xs x ih =>
    by_cases h : x ∈ xs
    · rwa [eraseDups_concat_of_mem h]
    · rw [eraseDups_concat_of_not_mem h, List.nodup_append]
      refine ⟨ih, List.nodup_singleton x, ?_⟩
      intro y hy z hz heq
      rw [List.mem_singleton.1 hz] at heq
      exact h (List.mem_eraseDups.1 (heq ▸ hy))

theorem eraseDups_append_eq (xs ys : List α) :
    (xs ++ ys).eraseDups = xs.eraseDups ++ ys.eraseDups.filter (!xs.eraseDups.contains ·) := by
  induction ys using List.reverseRecOn with
  | nil => simp
  | append_singleton ys y ih =>
    rw [← List.append_assoc]
    by_cases hys : y ∈ ys
    · rw [eraseDups_concat_of_mem (List.mem_append_right xs hys), eraseDups_concat_of_mem hys, ih]
    · rw [eraseDups_concat_of_not_mem hys, List.filter_append, ← List.append_assoc, ← ih]
      by_cases hxs : y ∈ xs
      · rw [eraseDups_concat_of_mem (List.mem_append_left ys hxs)]
        simp [hxs]
      · rw [eraseDups_concat_of_not_mem (by simp [hxs, hys])]
        simp [hxs]

theorem eraseDups_append_of_subset (h : ∀ y ∈ ys, y ∈ xs) : (xs ++ ys).eraseDups = xs.eraseDups := by
  have hfilter : ys.eraseDups.filter (!xs.eraseDups.contains ·) = [] := by
    simpa [List.filter_eq_nil_iff] using h
  rw [eraseDups_append_eq, hfilter, List.append_nil]

theorem eraseDups_append_congr (h : xs.eraseDups = ys.eraseDups) (zs : List α) :
    (xs ++ zs).eraseDups = (ys ++ zs).eraseDups := by
  rw [eraseDups_append_eq, eraseDups_append_eq, h]

theorem eraseDups_filterMap_eraseDups {β : Type} [BEq β] [LawfulBEq β] (f : α → Option β)
    (xs : List α) : (xs.eraseDups.filterMap f).eraseDups = (xs.filterMap f).eraseDups := by
  induction xs using List.reverseRecOn with
  | nil => rfl
  | append_singleton xs x ih =>
    rw [List.filterMap_append]
    by_cases h : x ∈ xs
    · rw [eraseDups_concat_of_mem h, ih]
      cases hx : f x with
      | none => simp [hx]
      | some y =>
        have hy : y ∈ xs.filterMap f := List.mem_filterMap.2 ⟨x, h, hx⟩
        simp [hx, eraseDups_concat_of_mem hy]
    · rw [eraseDups_concat_of_not_mem h, List.filterMap_append]
      exact eraseDups_append_congr ih _

theorem eraseDups_map_eraseDups {β : Type} [BEq β] [LawfulBEq β] (f : α → β) (xs : List α) :
    (xs.eraseDups.map f).eraseDups = (xs.map f).eraseDups := by
  rw [← List.filterMap_eq_map, eraseDups_filterMap_eraseDups]

theorem eraseDups_map {β : Type} [BEq β] [LawfulBEq β] {f : α → β} (hf : Function.Injective f)
    (xs : List α) : (xs.map f).eraseDups = xs.eraseDups.map f := by
  rw [← eraseDups_map_eraseDups, eraseDups_eq_self ((nodup_eraseDups xs).map hf)]

theorem pairwise_idxOf_eraseDups (xs : List α) :
    xs.eraseDups.Pairwise fun x y => xs.idxOf x < xs.idxOf y := by
  induction xs using List.reverseRecOn with
  | nil => exact List.Pairwise.nil
  | append_singleton xs z ih =>
    have hearlier : xs.eraseDups.Pairwise fun x y => (xs ++ [z]).idxOf x < (xs ++ [z]).idxOf y := by
      refine ih.imp_of_mem fun {x y} hx hy hlt => ?_
      rwa [List.idxOf_append_of_mem (List.mem_eraseDups.1 hx),
        List.idxOf_append_of_mem (List.mem_eraseDups.1 hy)]
    by_cases hz : z ∈ xs
    · rwa [eraseDups_concat_of_mem hz]
    · rw [eraseDups_concat_of_not_mem hz, List.pairwise_append]
      refine ⟨hearlier, List.pairwise_singleton _ z, fun x hx y hy => ?_⟩
      have hmem : x ∈ xs := List.mem_eraseDups.1 hx
      rw [List.mem_singleton.1 hy, List.idxOf_append_of_mem hmem, List.idxOf_append_of_notMem hz]
      exact Nat.lt_add_right _ (List.idxOf_lt_length_of_mem hmem)

theorem firstOccurrences_eraseDups (xs : List α) : FirstOccurrences xs xs.eraseDups :=
  ⟨nodup_eraseDups xs, fun _ => List.mem_eraseDups, pairwise_idxOf_eraseDups xs⟩

end FeedOutline
