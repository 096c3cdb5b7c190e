import FeedOutline.Text.Blank
import FeedOutline.Text.Lines
import FeedOutline.Text.Torn
import FeedOutline.Text.Word

/-!
The characters of tags against the characters that mean something in an outline.
-/
namespace FeedOutline.Text

variable {c : Char}

theorem isBlank_of_isBreak (h : isBreak c = true) : isBlank c = true := by
  simp only [isBreak, isBlank, Bool.or_eq_true, Bool.and_eq_true, decide_eq_true_eq, beq_iff_eq] at *
  omega

theorem isBlank_of_isGap (h : isGap c = true) : isBlank c = true := by
  simp only [isGap, Bool.or_eq_true, beq_iff_eq] at h
  rcases h with rfl | rfl <;> decide

theorem isBreak_of_not_isBlank (h : isBlank c = false) : isBreak c = false := by
  rw [← Bool.not_eq_true] at *
  exact mt isBlank_of_isBreak h

theorem isGap_of_not_isBlank (h : isBlank c = false) : isGap c = false := by
  rw [← Bool.not_eq_true] at *
  exact mt isBlank_of_isGap h

def blankCodes : List Nat :=
  [9, 10, 11, 12, 13, 28, 29, 30, 31, 32, 0x85, 0xA0, 0x1680, 0x2000, 0x2001, 0x2002, 0x2003, 0x2004,
    0x2005, 0x2006, 0x2007, 0x2008, 0x2009, 0x200A, 0x2028, 0x2029, 0x202F, 0x205F, 0x3000]

theorem mem_blankCodes (h : isBlank c = true) : c.toNat ∈ blankCodes := by
  simp only [isBlank, Bool.or_eq_true, Bool.and_eq_true, decide_eq_true_eq, beq_iff_eq] at h
  simp only [blankCodes, List.mem_cons, List.not_mem_nil, or_false]
  omega

theorem isTagChar_of_mem_blankCodes :
    ∀ n ∈ blankCodes, isTagChar (Char.ofNat n) = false := by
  decide +kernel

theorem isBlank_of_isTagChar (h : isTagChar c = true) : isBlank c = false := by
  rw [← Bool.not_eq_true]
  intro hblank
  have hnot := isTagChar_of_mem_blankCodes _ (mem_blankCodes hblank)
  rw [Char.ofNat_toNat, h] at hnot
  cases hnot

theorem isTag_iff {s : List Char} : isTag s = true ↔ s ≠ [] ∧ ∀ c ∈ s, isTagChar c = true := by
  simp [isTag]

theorem ne_of_isTagChar {d : Char} (h : isTagChar c = true) (hd : isTagChar d = false) : c ≠ d := by
  rintro rfl
  rw [h] at hd
  cases hd

/-! Texts with lone surrogates, which are shown by escapes. -/

theorem mem_of_mem_hexDigits {width n : Nat} (h : c ∈ hexDigits width n) : c ∈ "0123456789abcdef".toList := by
  have hdigit : ∀ d < 16, hexDigit d ∈ "0123456789abcdef".toList := by decide
  induction width generalizing n with
  | zero => cases h
  | succ width ih =>
    rw [hexDigits, List.mem_append, List.mem_singleton] at h
    rcases h with h | rfl
    · exact ih h
    · exact hdigit _ (Nat.mod_lt n (by decide))

theorem mem_of_mem_shown {s : AnyText} (h : c ∈ s.shown.toList) :
    c ∈ s.chars ∨ c ∈ "\\u0123456789abcdef".toList := by
  cases s with
  | whole s => exact .inl h
  | torn t =>
    rw [AnyText.shown, Torn.shown, String.toList_ofList, List.mem_flatMap] at h
    obtain ⟨m, hm, hc⟩ := h
    cases m with
    | char d =>
      rw [Mark.shown, List.mem_singleton] at hc
      exact .inl (List.mem_filterMap.2 ⟨_, hm, congrArg some hc.symm⟩)
    | surrogate s =>
      rw [Mark.shown, List.mem_cons, List.mem_cons] at hc
      rcases hc with rfl | rfl | hc
      · exact .inr (by decide)
      · exact .inr (by decide)
      · exact .inr (List.mem_cons_of_mem _ (List.mem_cons_of_mem _ (mem_of_mem_hexDigits hc)))

theorem Torn.backslash_mem_shown (t : Torn) : '\\' ∈ t.shown.toList := by
  obtain ⟨m, hm, hsurrogate⟩ := List.any_eq_true.1 t.isTorn
  rw [Torn.shown, String.toList_ofList, List.mem_flatMap]
  refine ⟨m, hm, ?_⟩
  cases m with
  | char c => cases hsurrogate
  | surrogate s => exact List.mem_cons_self

end FeedOutline.Text
