import FeedOutline.Ledger
import FeedOutline.Proofs.Distinct
import FeedOutline.Proofs.Lookup

/-!
What a change under one key does to a list of keys and values, and what is gathered when a list is gone
through and each member changes what stands under its own key.
-/
namespace FeedOutline

variable {α β γ : Type} [DecidableEq α] {change : Option β → β} {key k : α} {l : List (α × β)}

theorem mem_map_fst_iff : k ∈ l.map (·.1) ↔ (l.lookup k).isSome = true := by
  rw [← any_eq_isSome_lookup, List.any_eq_true, List.mem_map]
  simp only [beq_iff_eq]

theorem lookup_of_mem {v : β} (hnodup : (l.map (·.1)).Nodup) (h : (k, v) ∈ l) : l.lookup k = some v := by
  induction l with
  | nil => cases h
  | cons x l ih =>
    rw [List.map_cons, List.nodup_cons] at hnodup
    rw [lookup_cons_eq]
    rcases List.mem_cons.1 h with rfl | hmem
    · exact if_pos rfl
    · have hne : k ≠ x.1 := fun heq => hnodup.1 (heq ▸ List.mem_map_of_mem hmem)
      rw [if_neg hne, ih hnodup.2 hmem]

theorem lookup_map_keys (keys : List α) (value : α → β) (k : α) :
    (keys.map fun k => (k, value k)).lookup k = if k ∈ keys then some (value k) else none := by
  induction keys with
  | nil => rfl
  | cons key keys ih =>
    rw [List.map_cons, lookup_cons_eq, ih]
    by_cases hk : k = key
    · simp [hk]
    · simp [hk]

theorem upsert_of_not_mem (h : key ∉ l.map (·.1)) : upsert key change l = l ++ [(key, change none)] := by
  induction l with
  | nil => rfl
  | cons x l ih =>
    rw [List.map_cons, List.mem_cons, not_or] at h
    rw [upsert, if_neg (Ne.symm h.1), ih h.2, List.cons_append]

theorem map_fst_upsert (key : α) (change : Option β → β) (l : List (α × β)) :
    (upsert key change l).map (·.1) =
      if key ∈ l.map (·.1) then l.map (·.1) else l.map (·.1) ++ [key] := by
  induction l with
  | nil => rfl
  | cons x l ih =>
    rw [upsert]
    by_cases hkey : x.1 = key
    · simp [hkey]
    · simp only [if_neg hkey, List.map_cons, ih, List.mem_cons, Ne.symm hkey, false_or]
      split <;> rfl

theorem nodup_map_fst_upsert (h : (l.map (·.1)).Nodup) : ((upsert key change l).map (·.1)).Nodup := by
  rw [map_fst_upsert]
  split
  · exact h
  · next hkey =>
    rw [← List.concat_eq_append]
    exact h.concat hkey

theorem lookup_upsert (key : α) (change : Option β → β) (l : List (α × β)) (k : α) :
    (upsert key change l).lookup k = if k = key then some (change (l.lookup key)) else l.lookup k := by
  induction l with
  | nil => exact lookup_cons_eq _ _ _
  | cons x l ih =>
    rw [upsert]
    by_cases hkey : x.1 = key
    · rw [if_pos hkey, lookup_cons_eq, lookup_cons_eq, lookup_cons_eq, hkey, if_pos rfl]
      split <;> rfl
    · rw [if_neg hkey, lookup_cons_eq, lookup_cons_eq, lookup_cons_eq, ih, if_neg (Ne.symm hkey)]
      by_cases hk : k = x.1
      · rw [if_pos hk, if_pos hk, if_neg (hk ▸ hkey)]
      · rw [if_neg hk, if_neg hk]

theorem upsert_map_of_mem {keys : List α} (hnodup : keys.Nodup) (h : key ∈ keys) (value : α → β) :
    upsert key change (keys.map fun k => (k, value k)) =
      keys.map fun k => (k, if k = key then change (some (value k)) else value k) := by
  induction keys with
  | nil => cases h
  | cons k keys ih =>
    rw [List.nodup_cons] at hnodup
    rw [List.map_cons, List.map_cons, upsert]
    by_cases hk : k = key
    · have hrest : ∀ k' ∈ keys, (k', value k') =
          (k', if k' = key then change (some (value k')) else value k') := by
        intro k' hk'
        rw [if_neg fun heq : k' = key => hnodup.1 (hk.trans heq.symm ▸ hk')]
      rw [if_pos hk, if_pos hk, List.map_congr_left hrest]
    · rw [if_neg hk, if_neg hk, ih hnodup.2 (List.mem_of_ne_of_mem (Ne.symm hk) h)]

/-- What the members of a list gather under their keys. Under each key stands what is gathered of the members
with that key, and the keys come as they are met first. -/
theorem foldl_upsert (key : γ → α) (change : γ → Option β → β) (gather : List γ → β)
    (hfirst : ∀ x, gather [x] = change x none)
    (hnext : ∀ xs x, gather (xs ++ [x]) = change x (some (gather xs))) (xs : List γ) :
    xs.foldl (fun l x => upsert (key x) (change x) l) [] =
      (xs.map key).eraseDups.map fun k => (k, gather (xs.filter (key · = k))) := by
  -- The fold meets the last member last: it changes what stands under its key, or puts the key at the end.
  induction xs using List.reverseRecOn with
  | nil => rfl
  | append_singleton xs x ih =>
    have hother : ∀ k, k ≠ key x → (xs ++ [x]).filter (key · = k) = xs.filter (key · = k) := by
      intro k hk
      simp [hk.symm]
    have hself : (xs ++ [x]).filter (key · = key x) = xs.filter (key · = key x) ++ [x] := by
      simp
    rw [List.foldl_append, List.foldl_cons, List.foldl_nil, ih, List.map_append, List.map_singleton]
    by_cases hx : key x ∈ xs.map key
    · rw [eraseDups_concat_of_mem hx, upsert_map_of_mem (nodup_eraseDups _) (List.mem_eraseDups.2 hx)]
      refine List.map_congr_left fun k _ => ?_
      by_cases hk : k = key x
      · rw [if_pos hk, hk, hself, hnext]
      · rw [if_neg hk, hother k hk]
    · have hkeys : key x ∉ (xs.map key).eraseDups := mt List.mem_eraseDups.1 hx
      have hold : ∀ k ∈ (xs.map key).eraseDups, (k, gather (xs.filter (key · = k))) =
          (k, gather ((xs ++ [x]).filter (key · = k))) := by
        intro k hk
        rw [hother k fun heq => hkeys (heq ▸ hk)]
      have hnone : xs.filter (key · = key x) = [] := by
        rw [List.filter_eq_nil_iff]
        intro y hy heq
        exact hx (List.mem_map.2 ⟨y, hy, by simpa using heq⟩)
      rw [upsert_of_not_mem (by simpa using hx), eraseDups_concat_of_not_mem hx, List.map_append,
        List.map_singleton, List.map_congr_left hold, hself, hnone, List.nil_append, hfirst]

end FeedOutline
