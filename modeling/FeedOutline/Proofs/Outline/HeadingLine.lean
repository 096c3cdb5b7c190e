import FeedOutline.Outline.Heading
import FeedOutline.Proofs.Text.Search
import Mathlib.Data.List.TakeWhile

/-!
Which lines are headings: those that begin with stars behind which a space, a tab or nothing stands.
-/
namespace FeedOutline.Outline

open Text

/-- The line begins with so many stars, at least one, and a space, a tab or its end comes next. -/
def HasStars (stars : Nat) (line : List Char) : Prop :=
  0 < stars ∧ ∃ rest, line = List.replicate stars '*' ++ rest ∧ ∀ c ∈ rest.head?, c = ' ' ∨ c = '\t'

def IsHeading (line : List Char) : Prop :=
  ∃ stars, HasStars stars line

theorem takeWhile_stars {rest : List Char} (stars : Nat) (hrest : ∀ c ∈ rest.head?, c = ' ' ∨ c = '\t') :
    (List.replicate stars '*' ++ rest).takeWhile (· == '*') = List.replicate stars '*' ∧
      (List.replicate stars '*' ++ rest).dropWhile (· == '*') = rest := by
  have hall : ∀ c ∈ List.replicate stars '*', (c == '*') = true := by
    intro c hc
    rw [(List.mem_replicate.1 hc).2]
    rfl
  have hstop : ∀ c ∈ rest.head?, (c == '*') = false := by
    intro c hc
    rcases hrest c hc with rfl | rfl <;> rfl
  exact ⟨takeWhile_append_stop hall hstop, dropWhile_append_stop hall hstop⟩

theorem Heading.ofLine?_replicate {stars : Nat} {rest : List Char} (hstars : 0 < stars)
    (hrest : ∀ c ∈ rest.head?, c = ' ' ∨ c = '\t') :
    Heading.ofLine? (List.replicate stars '*' ++ rest) =
      some ⟨String.ofList (splitTags (trim rest)).1, stars,
        (splitTags (trim rest)).2.map String.ofList⟩ := by
  have hgap : rest.isEmpty || rest.head?.any isGap := by
    cases rest with
    | nil => rfl
    | cons c rest => simpa [isGap] using hrest c rfl
  have hne : (List.replicate stars '*').isEmpty = false := by
    simpa using Nat.pos_iff_ne_zero.1 hstars
  unfold Heading.ofLine?
  rw [(takeWhile_stars stars hrest).1, (takeWhile_stars stars hrest).2]
  simp only [hne, hgap, Bool.not_false, Bool.and_self, ↓reduceIte, List.length_replicate]

theorem hasStars_of_ofLine? {line : List Char} {h : Heading} (hline : Heading.ofLine? line = some h) :
    HasStars h.level line := by
  unfold Heading.ofLine? at hline
  dsimp only at hline
  split at hline
  · next hcond =>
    cases Option.some.inj hline
    rw [Bool.and_eq_true] at hcond
    refine ⟨List.length_pos_iff.2 fun h => by simp [h] at hcond, line.dropWhile (· == '*'), ?_, ?_⟩
    · have hall : line.takeWhile (· == '*') =
          List.replicate (line.takeWhile (· == '*')).length '*' := by
        refine List.eq_replicate_iff.2 ⟨rfl, fun c hc => ?_⟩
        have hstar := List.mem_takeWhile_imp hc
        exact eq_of_beq hstar
      rw [← hall, List.takeWhile_append_dropWhile]
    · intro c hc
      have hgap := hcond.2
      rw [Option.mem_def] at hc
      cases hrest : line.dropWhile (· == '*') with
      | nil => simp [hrest] at hc
      | cons d rest => simpa [hrest, isGap] using (by simp_all : isGap c = true)
  · cases hline

theorem HasStars.exists_ofLine? {stars : Nat} {line : List Char} (h : HasStars stars line) :
    ∃ hd, Heading.ofLine? line = some hd ∧ hd.level = stars := by
  obtain ⟨hstars, rest, rfl, hrest⟩ := h
  exact ⟨_, Heading.ofLine?_replicate hstars hrest, rfl⟩

theorem isHeading_iff {line : List Char} : IsHeading line ↔ (Heading.ofLine? line).isSome := by
  constructor
  · rintro ⟨stars, hstars⟩
    obtain ⟨hd, hline, -⟩ := hstars.exists_ofLine?
    rw [hline]
    rfl
  · intro h
    obtain ⟨hd, hline⟩ := Option.isSome_iff_exists.1 h
    exact ⟨hd.level, hasStars_of_ofLine? hline⟩

theorem isHeading_iff_exists {line : List Char} :
    IsHeading line ↔ ∃ h, Heading.ofLine? line = some h := by
  rw [isHeading_iff, Option.isSome_iff_exists]

theorem not_isHeading_iff {line : List Char} : ¬ IsHeading line ↔ Heading.ofLine? line = none := by
  rw [isHeading_iff, Option.not_isSome_iff_eq_none]

theorem IsHeading.of_append {line rest : List Char} (hne : line ≠ [])
    (h : IsHeading (line ++ '*' :: rest)) : IsHeading line := by
  obtain ⟨stars, hstars, tail, heq, htail⟩ := h
  rcases List.append_eq_append_iff.1 heq with ⟨more, hreplicate, -⟩ | ⟨more, rfl, hrest⟩
  · have hline : line = List.replicate line.length '*' := by
      refine List.eq_replicate_iff.2 ⟨rfl, fun c hc => ?_⟩
      exact List.eq_of_mem_replicate (hreplicate ▸ List.mem_append_left _ hc)
    exact ⟨line.length, List.length_pos_iff.2 hne, [], by simpa using hline, by simp⟩
  · refine ⟨stars, hstars, more, rfl, fun c hc => htail c ?_⟩
    rw [hrest, List.head?_append, hc]
    rfl

theorem hasStars_iff {stars : Nat} {line : List Char} :
    HasStars stars line ↔ (Heading.ofLine? line).map (·.level) = some stars := by
  rw [Option.map_eq_some_iff]
  constructor
  · exact fun h => h.exists_ofLine?
  · rintro ⟨hd, hline, rfl⟩
    exact hasStars_of_ofLine? hline

instance (stars : Nat) : DecidablePred (HasStars stars) :=
  fun _ => decidable_of_iff _ hasStars_iff.symm

instance : DecidablePred IsHeading :=
  fun _ => decidable_of_iff _ isHeading_iff.symm

end FeedOutline.Outline
