import FeedOutline.Text.Blank
import FeedOutline.Proofs.Text.Search
import Mathlib.Data.List.DropRight
import Mathlib.Tactic.MkIffOfInductiveProp

/-!
Trimming. A trimmed text neither begins nor ends with a character of the class, and such a text is not
changed by trimming.
-/
namespace FeedOutline.Text

variable {p : Char → Bool} {s : List Char}

theorem dropTrailing_eq_rdropWhile (p : Char → Bool) (s : List Char) :
    dropTrailing p s = s.rdropWhile p := rfl

@[mk_iff] structure Trimmed (p : Char → Bool) (s : List Char) : Prop where
  head : ∀ c ∈ s.head?, p c = false
  last : ∀ c ∈ s.getLast?, p c = false

instance (p : Char → Bool) (s : List Char) : Decidable (Trimmed p s) :=
  decidable_of_iff' _ (trimmed_iff p s)

theorem Trimmed.of_forall (h : ∀ c ∈ s, p c = false) : Trimmed p s :=
  ⟨fun c hc => h c (List.mem_of_mem_head? hc), fun c hc => h c (List.mem_of_getLast? hc)⟩

theorem Trimmed.append {t : List Char} (hs : Trimmed p s) (hne : s ≠ [])
    (ht : ∀ c ∈ t.getLast?, p c = false) : Trimmed p (s ++ t) := by
  constructor
  · rw [List.head?_append_of_ne_nil _ hne]
    exact hs.head
  · intro c hc
    by_cases hempty : t = []
    · rw [hempty, List.append_nil] at hc
      exact hs.last c hc
    · rw [List.getLast?_append_of_ne_nil _ hempty] at hc
      exact ht c hc

theorem dropTrailing_of_last (h : ∀ c ∈ s.getLast?, p c = false) : dropTrailing p s = s := by
  rw [dropTrailing_eq_rdropWhile, List.rdropWhile_eq_self_iff]
  intro hs
  simp [h _ (List.getLast?_eq_some_getLast hs)]

theorem dropWhile_of_head (h : ∀ c ∈ s.head?, p c = false) : s.dropWhile p = s :=
  dropWhile_append_stop (s := []) (by simp) h

theorem getLast?_dropTrailing : ∀ c ∈ (dropTrailing p s).getLast?, p c = false := by
  intro c hc
  rw [dropTrailing, List.getLast?_reverse] at hc
  exact head?_dropWhile c hc

theorem head?_dropTrailing (h : ∀ c ∈ s.head?, p c = false) :
    ∀ c ∈ (dropTrailing p s).head?, p c = false := by
  intro c hc
  obtain ⟨dropped, hs⟩ : dropTrailing p s <+: s := List.rdropWhile_prefix p s
  refine h c ?_
  rw [← hs]
  exact List.mem_head?_append_of_mem_head? hc

theorem trimmed_infix_self (p : Char → Bool) (s : List Char) : trimmed p s <:+: s :=
  (List.rdropWhile_prefix p _).isInfix.trans (List.dropWhile_suffix p).isInfix

theorem mem_of_mem_trimmed {c : Char} (h : c ∈ trimmed p s) : c ∈ s :=
  (trimmed_infix_self p s).subset h

theorem trimmed_trimmed (p : Char → Bool) (s : List Char) : Trimmed p (trimmed p s) :=
  ⟨head?_dropTrailing head?_dropWhile, getLast?_dropTrailing⟩

theorem Trimmed.trimmed_eq (h : Trimmed p s) : trimmed p s = s := by
  rw [trimmed, dropWhile_of_head h.head, dropTrailing_of_last h.last]

theorem trimmed_trimString (s : String) : Trimmed isBlank (trimString s).toList := by
  rw [trimString, String.toList_ofList]
  exact trimmed_trimmed isBlank s.toList

theorem Trimmed.trimString_eq {t : String} (h : Trimmed isBlank t.toList) : trimString t = t :=
  (congrArg String.ofList h.trimmed_eq).trans String.ofList_toList

theorem trimmed_eq_nil_iff : trimmed p s = [] ↔ ∀ c ∈ s, p c = true := by
  rw [trimmed, dropTrailing_eq_rdropWhile, List.rdropWhile_eq_nil_iff]
  constructor
  · intro h c hc
    rw [← List.takeWhile_append_dropWhile (p := p) (l := s), List.mem_append] at hc
    rcases hc with hc | hc
    · exact List.mem_takeWhile_imp hc
    · exact h c hc
  · exact fun h c hc => h c ((List.dropWhile_suffix p).mem hc)

theorem trim_infix_self (s : List Char) : trim s <:+: s :=
  trimmed_infix_self isBlank s

@[simp] theorem trim_trim (s : List Char) : trim (trim s) = trim s :=
  (trimmed_trimmed isBlank s).trimmed_eq

theorem trim_eq_nil_iff : trim s = [] ↔ ∀ c ∈ s, isBlank c = true :=
  trimmed_eq_nil_iff

theorem not_forall_isBlank_of_eq_trim {t : String} (h : t.toList = trim s) (hne : t ≠ "") :
    ¬ ∀ c ∈ t.toList, isBlank c = true := by
  rw [← trim_eq_nil_iff, h, trim_trim, ← h, String.toList_eq_nil_iff]
  exact hne

theorem trimmed_append (hs : Trimmed p s) (hne : s ≠ []) {before after : List Char}
    (hbefore : ∀ c ∈ before, p c = true) (hafter : ∀ c ∈ after, p c = true) :
    trimmed p (before ++ s ++ after) = s := by
  have hhead : ∀ c ∈ (s ++ after).head?, p c = false := by
    rw [List.head?_append_of_ne_nil _ hne]
    exact hs.head
  have hlast : ∀ c ∈ s.reverse.head?, p c = false := by simpa using hs.last
  rw [trimmed, List.append_assoc, dropWhile_append_stop hbefore hhead, dropTrailing,
    List.reverse_append, dropWhile_append_stop (by simpa using hafter) hlast, List.reverse_reverse]

theorem trimmed_append_right {after : List Char} (hafter : ∀ c ∈ after, p c = true) :
    trimmed p (s ++ after) = trimmed p s := by
  have hdrop : dropTrailing p (s.dropWhile p ++ after) = dropTrailing p (s.dropWhile p) := by
    rw [dropTrailing, List.reverse_append, List.dropWhile_append_of_pos (by simpa using hafter),
      dropTrailing]
  rw [trimmed, trimmed, List.dropWhile_append]
  split
  · next hempty =>
    rw [List.isEmpty_iff.1 hempty, List.dropWhile_eq_nil_iff.2 hafter]
  · exact hdrop

theorem trim_cons_space (hs : Trimmed isBlank s) (hne : s ≠ []) : trim (' ' :: s) = s := by
  have htrim : trimmed isBlank ([' '] ++ s ++ []) = s := trimmed_append hs hne (by decide) (by simp)
  rwa [List.append_nil] at htrim

theorem trim_append_space (hs : Trimmed isBlank s) : trim (s ++ [' ']) = s :=
  (trimmed_append_right (by decide)).trans hs.trimmed_eq

theorem trimmed_append_trimmed (before : List Char) {last : List Char} (hlast : Trimmed p last)
    (hne : last ≠ []) : trimmed p (before ++ last) = before.dropWhile p ++ last := by
  have hdrop : (before ++ last).dropWhile p = before.dropWhile p ++ last := by
    rw [List.dropWhile_append]
    split
    · next hempty => rw [List.isEmpty_iff.1 hempty, List.nil_append, dropWhile_of_head hlast.head]
    · rfl
  rw [trimmed, hdrop, dropTrailing_of_last]
  rw [List.getLast?_append_of_ne_nil _ hne]
  exact hlast.last

/-! What trimming leaves in. -/

theorem infix_dropWhile {part : List Char} (hpart : ∀ c ∈ part, p c = false) (h : part <:+: s) :
    part <:+: s.dropWhile p := by
  induction s with
  | nil => exact h
  | cons c s ih =>
    rw [List.dropWhile_cons]
    split
    · next hc =>
      rcases List.infix_cons_iff.1 h with hprefix | h
      · rcases List.prefix_cons_iff.1 hprefix with rfl | ⟨rest, rfl, -⟩
        · exact List.nil_infix
        · simp [hpart c (List.mem_cons_self ..)] at hc
      · exact ih h
    · exact h

theorem prefix_trimmed {part : List Char} (hpart : ∀ c ∈ part, p c = false) (h : part <+: s) :
    part <+: trimmed p s := by
  obtain ⟨rest, rfl⟩ := h
  cases part with
  | nil => exact List.nil_prefix
  | cons c part =>
    have hlast : ∀ d ∈ (c :: part).reverse.head?, p d = false :=
      fun d hd => hpart d (List.mem_reverse.1 (List.mem_of_mem_head? hd))
    have hc : p c = false := hpart c (List.mem_cons_self ..)
    rw [trimmed, List.cons_append, List.dropWhile_cons_of_neg (by simp [hc]), ← List.cons_append,
      dropTrailing, List.reverse_append, List.dropWhile_append]
    split
    · exact ⟨[], by rw [dropWhile_of_head hlast, List.reverse_reverse, List.append_nil]⟩
    · rw [List.reverse_append, List.reverse_reverse]
      exact List.prefix_append _ _

theorem infix_trimmed {part : List Char} (hpart : ∀ c ∈ part, p c = false) (h : part <:+: s) :
    part <:+: trimmed p s := by
  have hreverse : part.reverse <:+: (s.dropWhile p).reverse.dropWhile p :=
    infix_dropWhile (by simpa using hpart) (List.reverse_infix.2 (infix_dropWhile hpart h))
  rw [trimmed, dropTrailing, ← List.reverse_infix, List.reverse_reverse]
  exact hreverse

theorem mem_trimmed {c : Char} (h : c ∈ s) (hc : p c = false) : c ∈ trimmed p s := by
  obtain ⟨before, after, rfl⟩ := List.append_of_mem h
  have hinfix : [c] <:+: trimmed p (before ++ c :: after) :=
    infix_trimmed (by simpa using hc) ⟨before, after, by simp⟩
  exact hinfix.subset (List.mem_singleton_self c)

end FeedOutline.Text
