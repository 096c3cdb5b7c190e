import FeedOutline.Proofs.Text.Split
import FeedOutline.Text.Lines

/-!
Lines. A text that is written line by line is read line by line, and a written line that holds breaks of
its own is read as several.
-/
namespace FeedOutline.Text

variable {p : Char → Bool}

theorem joinReturns_eq {s : List Char} (h : '\r' ∉ s) : joinReturns s = s := by
  induction s with
  | nil => rfl
  | cons c s ih =>
    rw [List.mem_cons, not_or] at h
    have hc : (c == '\r') = false := by simpa using Ne.symm h.1
    simp [joinReturns, hc, ih h.2]

theorem cutLines_append {l rest : List Char} {sep : Char} (h : ∀ c ∈ l, p c = false)
    (hsep : p sep = true) : cutLines p (l ++ sep :: rest) = l :: cutLines p rest := by
  induction l with
  | nil => simp [cutLines, hsep]
  | cons c l ih =>
    rw [List.forall_mem_cons] at h
    simp [cutLines, h.1, ih h.2]

theorem return_not_mem {l : List Char} (h : ∀ c ∈ l, isBreak c = false) : '\r' ∉ l := by
  intro hmem
  exact absurd (h _ hmem) (by decide)

theorem return_not_mem_joined {ls : List String} (hne : ls ≠ [])
    (h : ∀ l ∈ ls, ∀ c ∈ l.toList, isBreak c = false) : '\r' ∉ (joined "\n" ls ++ "\n").toList := by
  rw [toList_joined_append "\n" hne, List.mem_flatMap]
  rintro ⟨l, hl, hmem⟩
  rcases List.mem_append.1 hmem with hmem | hmem
  · exact return_not_mem (h l hl) hmem
  · simp at hmem

theorem lines_joined {ls : List String} (hne : ls ≠ [])
    (h : ∀ l ∈ ls, ∀ c ∈ l.toList, isBreak c = false) :
    lines (joined "\n" ls ++ "\n").toList = ls.map String.toList := by
  rw [lines, joinReturns_eq (return_not_mem_joined hne h), toList_joined_append "\n" hne]
  simp only [String.reduceToList]
  clear hne
  induction ls with
  | nil => rfl
  | cons l ls ih =>
    rw [List.forall_mem_cons] at h
    rw [List.flatMap_cons, List.append_assoc, List.singleton_append, cutLines_append h.1 (by decide),
      ih h.2]
    rfl

theorem lines_of_no_break {l : List Char} (hne : l ≠ []) (h : ∀ c ∈ l, isBreak c = false) :
    lines l = [l] := by
  rw [lines, joinReturns_eq (return_not_mem h)]
  induction l with
  | nil => exact absurd rfl hne
  | cons c l ih =>
    rw [List.forall_mem_cons] at h
    by_cases hl : l = []
    · simp [hl, cutLines, h.1]
    · simp [cutLines, h.1, ih hl h.2]

/-! Lines that may hold breaks. -/

theorem joinReturns_append {s rest : List Char} (h : s.getLast? = some '\r' → rest.head? ≠ some '\n') :
    joinReturns (s ++ rest) = joinReturns s ++ joinReturns rest := by
  induction s with
  | nil => rfl
  | cons c s ih =>
    have hs : s.getLast? = some '\r' → rest.head? ≠ some '\n' := by
      intro hlast
      exact h (by rw [List.getLast?_cons_of_ne_nil (by rintro rfl; simp at hlast), hlast])
    have hhead : (c == '\r' && (s ++ rest).head? == some '\n') = (c == '\r' && s.head? == some '\n') := by
      cases s with
      | nil =>
        by_cases hc : c = '\r'
        · simp [h (by simp [hc])]
        · simp [hc]
      | cons d s => rfl
    rw [List.cons_append, joinReturns, joinReturns, ih hs, hhead]
    split <;> rfl

theorem cutLines_ne_nil {s : List Char} (hne : s ≠ []) : cutLines p s ≠ [] := by
  cases s with
  | nil => exact absurd rfl hne
  | cons c s =>
    rw [cutLines]
    split
    · simp
    · split <;> simp

theorem cutLines_closed {s rest : List Char} {last sep : Char} (hlast : p last = false)
    (hsep : p sep = true) :
    cutLines p (s ++ last :: sep :: rest) = cutLines p (s ++ [last]) ++ cutLines p rest := by
  induction s with
  | nil => simp [cutLines, hlast, hsep]
  | cons c s ih =>
    have hne : cutLines p (s ++ [last]) ≠ [] := cutLines_ne_nil (by simp)
    simp only [List.cons_append, cutLines, ih]
    split
    · rfl
    · cases hcut : cutLines p (s ++ [last]) with
      | nil => exact absurd hcut hne
      | cons l ls => rfl

theorem exists_lines_append {start : List Char} (hne : start ≠ [])
    (h : ∀ c ∈ start, isBreak c = false) (rest : List Char) :
    ∃ more ls, lines (start ++ rest) = (start ++ more) :: ls := by
  have hreturn : '\r' ∉ start := return_not_mem h
  have hlast : start.getLast? = some '\r' → rest.head? ≠ some '\n' :=
    fun hlast => absurd (List.mem_of_getLast? hlast) hreturn
  rw [lines, joinReturns_append hlast, joinReturns_eq hreturn]
  clear hreturn hlast
  induction start with
  | nil => exact absurd rfl hne
  | cons c start ih =>
    rw [List.forall_mem_cons] at h
    rw [List.cons_append, cutLines, h.1]
    by_cases hstart : start = []
    · subst hstart
      cases hcut : cutLines isBreak (joinReturns rest) with
      | nil => exact ⟨[], [], by simp [hcut]⟩
      | cons l ls => exact ⟨l, ls, by simp [hcut]⟩
    · obtain ⟨more, ls, hcut⟩ := ih hstart h.2
      exact ⟨more, ls, by rw [hcut]; rfl⟩

/-- The text ends in a character that is no break. -/
def Closed (l : List Char) : Prop :=
  l ≠ [] ∧ ∀ c ∈ l.getLast?, isBreak c = false

theorem Closed.lines_append {l : List Char} (hclosed : Closed l) (rest : List Char) :
    lines (l ++ '\n' :: rest) = lines l ++ lines rest := by
  obtain ⟨hne, h⟩ := hclosed
  have hlast : l.getLast? = some (l.getLast hne) := List.getLast?_eq_some_getLast hne
  generalize l.getLast hne = last at hlast
  obtain ⟨s, rfl⟩ := List.getLast?_eq_some_iff.1 hlast
  have hbreak : isBreak last = false := h last hlast
  have hreturn : last ≠ '\r' := by rintro rfl; exact absurd hbreak (by decide)
  have hfeed : last ≠ '\n' := by rintro rfl; exact absurd hbreak (by decide)
  have hinner : joinReturns (s ++ [last]) = joinReturns s ++ [last] := by
    rw [joinReturns_append fun _ => by simpa using hfeed]
    simp [joinReturns]
  have houter : joinReturns (s ++ [last] ++ '\n' :: rest) =
      joinReturns s ++ last :: '\n' :: joinReturns rest := by
    rw [joinReturns_append fun heq => absurd (by simpa using heq) hreturn, hinner]
    simp [joinReturns]
  rw [lines, lines, lines, houter, hinner, cutLines_closed hbreak (by decide)]

theorem lines_joined_of_closed {ls : List String} (hne : ls ≠ []) (h : ∀ l ∈ ls, Closed l.toList) :
    lines (joined "\n" ls ++ "\n").toList = ls.flatMap fun l => lines l.toList := by
  rw [toList_joined_append "\n" hne]
  simp only [String.reduceToList]
  clear hne
  induction ls with
  | nil => rfl
  | cons l ls ih =>
    rw [List.forall_mem_cons] at h
    rw [List.flatMap_cons, List.append_assoc, List.singleton_append, h.1.lines_append, ih h.2,
      List.flatMap_cons]

theorem unifyReturns_eq {s : List Char} (h : '\r' ∉ s) : unifyReturns s = s := by
  have hkeep : ∀ c ∈ s, (if c == '\r' then '\n' else c) = c := by
    intro c hc
    have hne : c ≠ '\r' := fun heq => h (heq ▸ hc)
    simp [hne]
  rw [unifyReturns, joinReturns_eq h, List.map_congr_left hkeep, List.map_id']

/-! A text that goes on after a whole line. -/

theorem getLast?_joinReturns (s : List Char) : (joinReturns s).getLast? = s.getLast? := by
  induction s with
  | nil => rfl
  | cons c s ih =>
    rw [joinReturns]
    split
    · next hjoin =>
      cases s with
      | nil => simp at hjoin
      | cons d s => rw [ih, List.getLast?_cons_cons]
    · rw [List.getLast?_cons, List.getLast?_cons, ih]

theorem cutLines_append_of_closed {s : List Char} (h : ∀ c ∈ s.getLast?, p c = true)
    (rest : List Char) : cutLines p (s ++ rest) = cutLines p s ++ cutLines p rest := by
  induction s with
  | nil => rfl
  | cons c s ih =>
    by_cases hs : s = []
    · subst hs
      have hc : p c = true := h c rfl
      simp [cutLines, hc]
    · rw [List.getLast?_cons_of_ne_nil hs] at h
      simp only [List.cons_append, cutLines, ih h]
      split
      · rfl
      · cases hcut : cutLines p s with
        | nil => exact absurd hcut (cutLines_ne_nil hs)
        | cons l ls => rfl

theorem lines_append_of_closed {s rest : List Char} (h : ∀ c ∈ s.getLast?, isBreak c = true)
    (hrest : rest.head? ≠ some '\n') : lines (s ++ rest) = lines s ++ lines rest := by
  rw [lines, joinReturns_append fun _ => hrest,
    cutLines_append_of_closed (by rwa [getLast?_joinReturns])]
  rfl

theorem exists_cutLines_append {s : List Char} (hne : s ≠ []) (h : ∀ c ∈ s.getLast?, p c = false) :
    ∃ ls l, l ≠ [] ∧ cutLines p s = ls ++ [l] ∧ ∀ rest first more,
      cutLines p rest = first :: more → cutLines p (s ++ rest) = ls ++ (l ++ first) :: more := by
  induction s with
  | nil => exact absurd rfl hne
  | cons c s ih =>
    by_cases hs : s = []
    · subst hs
      have hc : p c = false := h c rfl
      refine ⟨[], [c], by simp, by simp [cutLines, hc], fun rest first more hrest => ?_⟩
      simp [cutLines, hc, hrest]
    · rw [List.getLast?_cons_of_ne_nil hs] at h
      obtain ⟨ls, l, hl, hcut, happend⟩ := ih hs h
      cases hc : p c with
      | true =>
        refine ⟨[] :: ls, l, hl, by simp [cutLines, hc, hcut], fun rest first more hrest => ?_⟩
        simp [cutLines, hc, happend rest first more hrest]
      | false =>
        cases ls with
        | nil =>
          refine ⟨[], c :: l, by simp, by simp [cutLines, hc, hcut], fun rest first more hrest => ?_⟩
          simp [cutLines, hc, happend rest first more hrest]
        | cons l' ls =>
          refine ⟨(c :: l') :: ls, l, hl, by simp [cutLines, hc, hcut],
            fun rest first more hrest => ?_⟩
          simp [cutLines, hc, happend rest first more hrest]

theorem exists_lines_append_of_open {s rest first : List Char} {more : List (List Char)} (hne : s ≠ [])
    (h : ∀ c ∈ s.getLast?, isBreak c = false) (hrest : lines rest = first :: more) :
    ∃ ls l, l ≠ [] ∧ lines s = ls ++ [l] ∧ lines (s ++ rest) = ls ++ (l ++ first) :: more := by
  have hreturn : s.getLast? = some '\r' → rest.head? ≠ some '\n' := by
    intro hlast
    exact absurd (h _ hlast) (by decide)
  have hjoined : joinReturns s ≠ [] := by
    intro hnil
    have hlast := getLast?_joinReturns s
    rw [hnil] at hlast
    exact hne (List.getLast?_eq_none_iff.1 hlast.symm)
  obtain ⟨ls, l, hl, hcut, happend⟩ :=
    exists_cutLines_append hjoined (by rwa [getLast?_joinReturns])
  refine ⟨ls, l, hl, hcut, ?_⟩
  rw [lines, joinReturns_append hreturn]
  exact happend _ first more hrest

/-! No break stands inside of a line. -/

theorem forall_of_mem_cutLines {l s : List Char} (h : l ∈ cutLines p s) : ∀ c ∈ l, p c = false := by
  induction s generalizing l with
  | nil => cases h
  | cons c s ih =>
    rw [cutLines] at h
    split at h
    · rcases List.mem_cons.1 h with rfl | h
      · simp
      · exact ih h
    · next hc =>
      rw [Bool.not_eq_true] at hc
      split at h
      · rw [List.mem_singleton.1 h]
        simpa using hc
      · next l' ls hcut =>
        rcases List.mem_cons.1 h with rfl | h
        · exact List.forall_mem_cons.2 ⟨hc, ih (hcut ▸ List.mem_cons_self ..)⟩
        · exact ih (hcut ▸ List.mem_cons_of_mem _ h)

theorem forall_of_mem_lines {l s : List Char} (h : l ∈ lines s) : ∀ c ∈ l, isBreak c = false :=
  forall_of_mem_cutLines h

/-! Line ends of one kind. -/

theorem return_not_mem_unifyReturns (s : List Char) : '\r' ∉ unifyReturns s := by
  rw [unifyReturns, List.mem_map]
  rintro ⟨c, -, hc⟩
  split at hc
  · exact absurd hc (by decide)
  · next hne => exact hne (by rw [hc]; rfl)

theorem cutLines_map {f : Char → Char} (h : ∀ c, p (f c) = p c) (hkeep : ∀ c, p c = false → f c = c)
    (s : List Char) : cutLines p (s.map f) = cutLines p s := by
  induction s with
  | nil => rfl
  | cons c s ih =>
    rw [List.map_cons, cutLines, cutLines, h, ih]
    cases hc : p c with
    | true => rfl
    | false => rw [hkeep c hc]

theorem lines_unifyReturns (s : List Char) : lines (unifyReturns s) = lines s := by
  rw [lines, joinReturns_eq (return_not_mem_unifyReturns s), unifyReturns, cutLines_map, lines]
  · intro c
    split
    · next hc =>
      rw [eq_of_beq hc]
      decide
    · rfl
  · intro c hc
    rw [if_neg]
    intro heq
    rw [eq_of_beq heq] at hc
    exact absurd hc (by decide)

end FeedOutline.Text
