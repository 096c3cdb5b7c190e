import FeedOutline.Text.Split

/-!
Joined texts are taken apart again into what they were joined from, if the separator stands in none of
them.
-/
namespace FeedOutline.Text

variable {p : Char → Bool}

theorem joined_cons (sep s : String) {ss : List String} (h : ss ≠ []) :
    joined sep (s :: ss) = s ++ sep ++ joined sep ss := by
  cases ss with
  | nil => exact absurd rfl h
  | cons _ _ => rfl

theorem toList_joined_append (sep : String) {ss : List String} (h : ss ≠ []) :
    (joined sep ss ++ sep).toList = ss.flatMap fun s => s.toList ++ sep.toList := by
  induction ss with
  | nil => exact absurd rfl h
  | cons s ss ih =>
    by_cases hss : ss = []
    · simp [hss, joined]
    · have hrest := ih hss
      rw [String.toList_append] at hrest
      rw [joined_cons sep s hss, List.flatMap_cons, ← hrest]
      simp

theorem forall_mem_joined {P : Char → Prop} {sep : String} {ss : List String}
    (hsep : ∀ c ∈ sep.toList, P c) (h : ∀ s ∈ ss, ∀ c ∈ s.toList, P c) :
    ∀ c ∈ (joined sep ss).toList, P c := by
  induction ss with
  | nil => simp [joined]
  | cons s ss ih =>
    rw [List.forall_mem_cons] at h
    by_cases hss : ss = []
    · simpa [hss, joined] using h.1
    · rw [joined_cons sep s hss, String.toList_append, String.toList_append]
      simp only [List.forall_mem_append]
      exact ⟨⟨h.1, hsep⟩, ih h.2⟩

theorem splitWhere_part {part : List Char} (h : ∀ c ∈ part, p c = false) :
    splitWhere p part = [part] := by
  induction part with
  | nil => rfl
  | cons c part ih =>
    rw [List.forall_mem_cons] at h
    simp [splitWhere, h.1, ih h.2]

theorem splitWhere_append {part rest : List Char} {sep : Char} (h : ∀ c ∈ part, p c = false)
    (hsep : p sep = true) : splitWhere p (part ++ sep :: rest) = part :: splitWhere p rest := by
  induction part with
  | nil => simp [splitWhere, hsep]
  | cons c part ih =>
    rw [List.forall_mem_cons] at h
    simp [splitWhere, h.1, ih h.2]

theorem flatMap_splitOn (sep : Char) (s : List Char) :
    (splitOn sep s).flatMap (· ++ [sep]) = s ++ [sep] := by
  induction s with
  | nil => rfl
  | cons c s ih =>
    rw [splitOn] at ih
    rw [splitOn, splitWhere]
    split
    · next hc =>
      rw [List.flatMap_cons, ih, beq_iff_eq.1 hc]
      rfl
    · split
      · next hnil => simp [hnil] at ih
      · next part parts hparts =>
        rw [hparts, List.flatMap_cons] at ih
        rw [List.flatMap_cons, List.cons_append, List.cons_append, ih, List.cons_append]

theorem splitWhere_closed {ss : List String} {sep : Char}
    (h : ∀ s ∈ ss, ∀ c ∈ s.toList, p c = false) (hsep : p sep = true) :
    splitWhere p (ss.flatMap fun s => s.toList ++ [sep]) = ss.map String.toList ++ [[]] := by
  induction ss with
  | nil => rfl
  | cons s ss ih =>
    rw [List.forall_mem_cons] at h
    rw [List.flatMap_cons, List.append_assoc, List.singleton_append, splitWhere_append h.1 hsep,
      ih h.2]
    rfl

theorem splitWhere_joined {ss : List String} {sep : String} {c : Char} (hsep : sep.toList = [c])
    (hc : p c = true) (hne : ss ≠ []) (h : ∀ s ∈ ss, ∀ d ∈ s.toList, p d = false) :
    splitWhere p (joined sep ss).toList = ss.map String.toList := by
  induction ss with
  | nil => exact absurd rfl hne
  | cons s ss ih =>
    rw [List.forall_mem_cons] at h
    by_cases hss : ss = []
    · simp [hss, joined, splitWhere_part h.1]
    · rw [joined_cons sep s hss, String.toList_append, String.toList_append, hsep, List.append_assoc,
        List.singleton_append, splitWhere_append h.1 hc, ih hss h.2]
      rfl

theorem splitWhere_ne_nil (s : List Char) : splitWhere p s ≠ [] := by
  cases s with
  | nil => simp [splitWhere]
  | cons c s =>
    rw [splitWhere]
    split
    · simp
    · split <;> simp

theorem forall_of_mem_splitWhere {part s : List Char} (h : part ∈ splitWhere p s) :
    ∀ c ∈ part, p c = false := by
  induction s generalizing part with
  | nil => simp_all [splitWhere]
  | cons c s ih =>
    rw [splitWhere] at h
    split at h
    · rcases List.mem_cons.1 h with rfl | h
      · simp
      · exact ih h
    · next hc =>
      rw [Bool.not_eq_true] at hc
      split at h
      · rw [List.mem_singleton.1 h]
        simpa using hc
      · next part' parts hsplit =>
        rcases List.mem_cons.1 h with rfl | h
        · exact List.forall_mem_cons.2 ⟨hc, ih (hsplit ▸ List.mem_cons_self ..)⟩
        · exact ih (hsplit ▸ List.mem_cons_of_mem _ h)

theorem getLast?_splitWhere_ne {c : Char} (hc : p c = false) (front : List Char) :
    (splitWhere p (front ++ [c])).getLast? ≠ some [] := by
  induction front with
  | nil => simp [splitWhere, hc]
  | cons d front ih =>
    have hne := splitWhere_ne_nil (p := p) (front ++ [c])
    rw [List.cons_append, splitWhere]
    split
    · rwa [List.getLast?_cons_of_ne_nil hne]
    · split
      · simp
      · next part parts hparts =>
        rw [hparts] at ih
        cases parts with
        | nil => simp
        | cons q parts => simpa using ih

end FeedOutline.Text
