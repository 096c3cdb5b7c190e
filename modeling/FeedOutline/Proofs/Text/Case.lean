import FeedOutline.Proofs.Text.Tag
import FeedOutline.Proofs.Text.Utf8
import FeedOutline.Text.Case

/-!
Lower case. A letter that comes of lowering another is its own lower case, so that a lowered text stays as
it is, and what a text is lowered to is told letter by letter but for the form of a sigma.
-/
namespace FeedOutline.Text

def CaseRun.target (r : CaseRun) (n : Nat) : Nat :=
  Int.toNat (n + r.shift)

/-- The run covers none of the code points from `low` to `high`, or, if `skips` says so, none of every other
one of them. -/
def CaseRun.misses (low high : Nat) (skips : Bool) (r : CaseRun) : Bool :=
  Nat.blt high r.first || Nat.blt r.last low ||
    (skips && Nat.beq r.step 2 && Nat.beq ((low + r.first) % 2) 1)

/-- The run maps its letters past the capitals of ASCII, past the capital I with a dot, and past all letters
that a run covers. -/
def CaseRun.settles (r : CaseRun) : Bool :=
  Nat.blt 90 (r.target r.first) &&
    (Nat.blt (r.target r.last) 0x130 || Nat.blt 0x130 (r.target r.first)) &&
    lowerRuns.all (misses (r.target r.first) (r.target r.last) (r.first == r.last || r.step == 2))

set_option maxRecDepth 10000 in
theorem settles_lowerRuns : ∀ r ∈ lowerRuns, r.settles = true := by
  decide +kernel

variable {c d : Char} {r : CaseRun} {n : Nat}

theorem CaseRun.covers_iff :
    r.covers n = true ↔ r.first ≤ n ∧ n ≤ r.last ∧ (n - r.first) % r.step = 0 := by
  simp [covers, and_assoc]

theorem CaseRun.settles_iff : r.settles = true ↔ 90 < r.target r.first ∧
    (r.target r.last < 0x130 ∨ 0x130 < r.target r.first) ∧ ∀ s ∈ lowerRuns,
      r.target r.last < s.first ∨ s.last < r.target r.first ∨
        ((r.first = r.last ∨ r.step = 2) ∧ s.step = 2 ∧ (r.target r.first + s.first) % 2 = 1) := by
  simp [settles, misses, and_assoc, or_assoc]

theorem CaseRun.target_between (h : r.covers n = true) :
    r.target r.first ≤ r.target n ∧ r.target n ≤ r.target r.last := by
  obtain ⟨hfirst, hlast, -⟩ := covers_iff.1 h
  unfold target
  omega

theorem CaseRun.not_covers_target (hr : r.settles = true) (hn : r.covers n = true) :
    ∀ s ∈ lowerRuns, s.covers (r.target n) = false := by
  intro s hs
  rw [← Bool.not_eq_true]
  intro hcovers
  obtain ⟨hsfirst, hslast, hsstep⟩ := covers_iff.1 hcovers
  obtain ⟨hlow, -, hmisses⟩ := settles_iff.1 hr
  obtain ⟨hrlow, hrhigh⟩ := target_between hn
  obtain ⟨hfirst, hlast, hstep⟩ := covers_iff.1 hn
  rcases hmisses s hs with habove | hbelow | ⟨hskips, htwo, hodd⟩
  · omega
  · omega
  · -- what the first run maps to is odd where the second one is even, or the other way round
    rw [htwo] at hsstep
    unfold target at *
    rcases hskips with hone | htwo'
    · omega
    · rw [htwo'] at hstep
      omega

/-! Letters. -/

theorem lowerChar_ascii : ∀ n < 128, lowerChar (Char.ofNat n).toLower = [(Char.ofNat n).toLower] := by
  decide

theorem toLower_late (h : 90 < c.toNat) : c.toLower = c := by
  have hcapital : ¬ (c.val ≥ 'A'.val ∧ c.val ≤ 'Z'.val) := fun hbetween =>
    absurd (UInt32.le_iff_toNat_le.1 hbetween.2) (Nat.not_le.2 h)
  exact dif_neg hcapital

theorem lowerChar_target (hr : r.settles = true) (hn : r.covers n = true) :
    lowerChar (Char.ofNat (r.target n)) = [Char.ofNat (r.target n)] := by
  by_cases hvalid : (r.target n).isValidChar
  · have hnat : (Char.ofNat (r.target n)).toNat = r.target n := toNat_val_ofNat hvalid
    obtain ⟨hlow, hdot, -⟩ := CaseRun.settles_iff.1 hr
    obtain ⟨hrlow, hrhigh⟩ := CaseRun.target_between hn
    unfold lowerChar
    split
    · rw [toLower_late (by omega)]
    · split
      · next hdotted =>
        have hcode : r.target n = 0x130 := by
          rw [← hnat, eq_of_beq hdotted]
          rfl
        omega
      · have hnone : lowerRuns.find? (·.covers (r.target n)) = none := by
          simpa using CaseRun.not_covers_target hr hn
        rw [shiftBy, hnat, hnone]
  · have hzero : Char.ofNat (r.target n) = Char.ofNat 0 := by
      rw [Char.ofNat, dif_neg hvalid]
      rfl
    rw [hzero]
    decide

theorem lowerChar_of_mem (h : d ∈ lowerChar c) : lowerChar d = [d] := by
  unfold lowerChar at h
  split at h
  · next hascii =>
    rw [List.mem_singleton.1 h, ← Char.ofNat_toNat c]
    exact lowerChar_ascii _ hascii
  · split at h
    · simp only [List.mem_cons, List.not_mem_nil, or_false] at h
      rcases h with rfl | rfl <;> decide
    · next hascii hdot =>
      rw [List.mem_singleton.1 h]
      unfold shiftBy
      cases hfind : lowerRuns.find? (·.covers c.toNat) with
      | none =>
        simp only
        rw [lowerChar, if_neg hascii, if_neg hdot, shiftBy, hfind]
      | some r =>
        have hcovers : r.covers c.toNat = true := by simpa using List.find?_some hfind
        exact lowerChar_target (settles_lowerRuns r (List.mem_of_find?_eq_some hfind)) hcovers

/-! Texts. -/

variable {s before : List Char}

theorem lowerChar_of_mem_lowerAfter (h : d ∈ lowerAfter before s) : lowerChar d = [d] := by
  induction s generalizing before with
  | nil => cases h
  | cons c s ih =>
    rw [lowerAfter, List.mem_append] at h
    rcases h with h | h
    · split at h
      · rw [List.mem_singleton.1 h]
        split <;> decide
      · exact lowerChar_of_mem h
    · exact ih h

theorem lowerChar_of_mem_lower (h : d ∈ lower s) : lowerChar d = [d] :=
  lowerChar_of_mem_lowerAfter h

/-- The capital sigma has a lower case, so it is none of these letters. -/
theorem lowerAfter_eq_self (h : ∀ c ∈ s, lowerChar c = [c]) (before : List Char) :
    lowerAfter before s = s := by
  induction s generalizing before with
  | nil => rfl
  | cons c s ih =>
    rw [List.forall_mem_cons] at h
    have hsigma : c ≠ 'Σ' := by
      rintro rfl
      exact absurd h.1 (by decide)
    rw [lowerAfter, if_neg (by simpa using hsigma), h.1, ih h.2, List.singleton_append]

theorem lower_eq_self (h : ∀ c ∈ s, lowerChar c = [c]) : lower s = s :=
  lowerAfter_eq_self h []

/-- A property that does not tell the two small sigmas apart is a property of single letters. -/
theorem forall_mem_lowerAfter {P : Char → Prop} (hP : P 'ς' ↔ P 'σ') (before : List Char) :
    (∀ d ∈ lowerAfter before s, P d) ↔ ∀ c ∈ s, ∀ d ∈ lowerChar c, P d := by
  induction s generalizing before with
  | nil => simp [lowerAfter]
  | cons c s ih =>
    rw [lowerAfter, List.forall_mem_append, ih, List.forall_mem_cons]
    refine and_congr_left' ?_
    split
    · next hsigma =>
      have hlower : lowerChar c = ['σ'] := by
        rw [eq_of_beq hsigma]
        decide
      rw [hlower]
      split <;> simp [hP]
    · rfl

theorem forall_mem_lower {P : Char → Prop} (hP : P 'ς' ↔ P 'σ') :
    (∀ d ∈ lower s, P d) ↔ ∀ c ∈ s, ∀ d ∈ lowerChar c, P d :=
  forall_mem_lowerAfter hP []

/-! Blanks. -/

theorem lowerChar_of_mem_blankCodes : ∀ n ∈ blankCodes, lowerChar (Char.ofNat n) = [Char.ofNat n] := by
  decide

theorem lowerChar_of_isBlank (h : isBlank c = true) : lowerChar c = [c] := by
  have hcode := lowerChar_of_mem_blankCodes _ (mem_blankCodes h)
  rwa [Char.ofNat_toNat] at hcode

end FeedOutline.Text
