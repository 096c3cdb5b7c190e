import Mathlib.Tactic.SplitIfs

/-!
Lists of keys and values, in which the first entry of a key counts.
-/
namespace FeedOutline

variable {α β : Type} [BEq α] [LawfulBEq α] {key other : α} {v : β} {l : List (α × β)}

theorem lookup_cons_eq [DecidableEq α] (x : α × β) (l : List (α × β)) (key : α) :
    List.lookup key (x :: l) = if key = x.1 then some x.2 else l.lookup key := by
  obtain ⟨k, v⟩ := x
  by_cases h : key = k
  · simp [h]
  · rw [List.lookup_cons, beq_eq_false_iff_ne.2 h, if_neg h]

theorem any_eq_isSome_lookup (l : List (α × β)) (key : α) :
    l.any (·.1 == key) = (l.lookup key).isSome := by
  induction l with
  | nil => rfl
  | cons x l ih =>
    obtain ⟨k, v⟩ := x
    rw [List.any_cons, ih, List.lookup_cons]
    by_cases h : k = key
    · simp [h]
    · simp [h, beq_eq_false_iff_ne.2 (Ne.symm h)]

theorem lookup_replace [DecidableEq α] (l : List (α × β)) (key : α) (v : β) (other : α) :
    List.lookup other (l.map fun x => if x.1 == key then (key, v) else x) =
      if other = key then (l.lookup key).map fun _ => v else l.lookup other := by
  induction l with
  | nil => simp
  | cons x l ih =>
    rw [List.map_cons, lookup_cons_eq, lookup_cons_eq, lookup_cons_eq, ih]
    by_cases hkey : x.1 = key
    · by_cases hother : other = key <;> simp [hkey, hother]
    · by_cases hother : other = key
      · simp [hkey, hother, Ne.symm hkey]
      · simp [hkey, hother]

theorem lookup_setEntry [DecidableEq α] (l : List (α × β)) (key : α) (v : β) (other : α) :
    List.lookup other (if l.any (·.1 == key) then l.map fun x => if x.1 == key then (key, v) else x
      else l ++ [(key, v)]) = if other = key then some v else l.lookup other := by
  rw [any_eq_isSome_lookup]
  split
  · next hsome =>
    obtain ⟨before, hbefore⟩ := Option.isSome_iff_exists.1 hsome
    rw [lookup_replace, hbefore]
    rfl
  · next hnone =>
    rw [Option.not_isSome_iff_eq_none] at hnone
    rw [List.lookup_append, lookup_cons_eq]
    by_cases hother : other = key
    · simp [hother, hnone]
    · simp [hother]

theorem lookup_filter_ne [DecidableEq α] (l : List (α × β)) (h : other ≠ key) :
    (l.filter (·.1 != key)).lookup other = l.lookup other := by
  induction l with
  | nil => rfl
  | cons x l ih =>
    rw [List.filter_cons, lookup_cons_eq]
    split
    · rw [lookup_cons_eq, ih]
    · next hkey =>
      have hx : other ≠ x.1 := by
        rintro rfl
        simp [h] at hkey
      rw [ih, if_neg hx]

end FeedOutline
