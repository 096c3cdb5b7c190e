import FeedOutline.Proofs.Classified.Shape
import FeedOutline.Proofs.Outline.Annotation

/-!
Texts that name a feed: its address, if that is recognised by itself, or else a link with a title. On a
heading line such a text is read as it is written, whatever annotation stands behind it.
-/
namespace FeedOutline

open Outline (lastWord tagGroup?)
open Text

namespace Opml

/-- A text that a heading line without tags carries as it is. -/
structure IsHeadingText (text : List Char) : Prop where
  trimmed : Trimmed isBlank text
  ne_nil : text ≠ []
  no_break : ∀ c ∈ text, isBreak c = false
  no_tags : tagGroup? (lastWord text) = none

/-- A text that names the feed with that address, and the title that it gives the feed. -/
inductive FeedText (url : List Char) : List Char → Option (List Char) → Prop
  | address : "http".toList <+: url → FeedText url url none
  | titled {t} : url ≠ [] → ']' ∉ url → ']' ∉ t → t ≠ [] → Trimmed isBlank t →
      (∀ c ∈ t, isBreak c = false) →
      FeedText url ("[[".toList ++ url ++ "][".toList ++ t ++ "]]".toList) (some t)

end Opml

theorem Keyword.head?_start (k : Keyword) : k.start.head? ≠ some 'h' ∧ k.start.head? ≠ some '[' := by
  cases k <;> decide

namespace Opml

theorem link_concat (url t : List Char) : "[[".toList ++ url ++ "][".toList ++ t ++ "]]".toList =
    "[[".toList ++ url ++ "][".toList ++ t ++ [']'] ++ [']'] := by
  simp

theorem trimmed_link (url t : List Char) :
    Trimmed isBlank ("[[".toList ++ url ++ "][".toList ++ t ++ "]]".toList) := by
  constructor
  · simp [isBlank]
  · rw [link_concat, List.getLast?_concat]
    simp [isBlank]

theorem isHeadingText_link {url t : List Char} (hurl : ∀ c ∈ url, isBreak c = false)
    (ht : ∀ c ∈ t, isBreak c = false) :
    IsHeadingText ("[[".toList ++ url ++ "][".toList ++ t ++ "]]".toList) := by
  constructor
  · exact trimmed_link url t
  · simp
  · simp only [List.forall_mem_append]
    exact ⟨⟨⟨⟨by decide, hurl⟩, by decide⟩, ht⟩, by decide⟩
  · have hlast := Outline.getLast?_lastWord (c := ']') (by decide)
      ("[[".toList ++ url ++ "][".toList ++ t ++ [']'])
    obtain ⟨front, hfront⟩ := List.getLast?_eq_some_iff.1 hlast
    rw [link_concat, hfront]
    exact Outline.tagGroup?_eq_none (by decide) front

theorem isHeadingText_address {url : List Char} (hhttp : "http".toList <+: url)
    (hblank : ∀ c ∈ url, isBlank c = false) : IsHeadingText url := by
  constructor
  · exact .of_forall hblank
  · rintro rfl
    simp at hhttp
  · exact fun c hc => isBreak_of_not_isBlank (hblank c hc)
  · obtain ⟨rest, rfl⟩ := hhttp
    rw [Outline.lastWord_of_no_gap fun c hc => isGap_of_not_isBlank (hblank c hc)]
    rfl

end Opml

theorem Keyword.not_prefix_of_head? {k : Keyword} {text : List Char}
    (h : text.head? = some 'h' ∨ text.head? = some '[') : ¬ k.start <+: text := by
  rintro ⟨rest, rfl⟩
  obtain ⟨hletter, hbracket⟩ := k.head?_start
  have hne : k.start ≠ [] := by simp [start_eq]
  rw [List.head?_append_of_ne_nil _ hne] at h
  exact h.elim hletter hbracket

namespace Opml.FeedText

variable {url text : List Char} {title : Option (List Char)}

theorem isHeadingText (h : FeedText url text title) (hblank : ∀ c ∈ url, isBlank c = false) :
    IsHeadingText text := by
  cases h with
  | address hhttp => exact isHeadingText_address hhttp hblank
  | titled _ _ _ _ _ ht => exact isHeadingText_link (fun c hc => isBreak_of_not_isBlank (hblank c hc)) ht

theorem trimmed (h : FeedText url text title) (hblank : ∀ c ∈ url, isBlank c = false) :
    Trimmed isBlank text :=
  (h.isHeadingText hblank).trimmed

theorem no_keyword (h : FeedText url text title) (k : Keyword) : ¬ k.start <+: text := by
  apply Keyword.not_prefix_of_head?
  cases h with
  | address hhttp =>
    obtain ⟨rest, rfl⟩ := hhttp
    exact .inl rfl
  | titled => exact .inr (by simp)

theorem names (h : FeedText url text title) (hblank : ∀ c ∈ url, isBlank c = false) :
    NamesFeed text (String.ofList url) (title.map String.ofList) := by
  have hurl : trim url = url := (Trimmed.of_forall hblank).trimmed_eq
  cases h with
  | address hhttp => exact .address hhttp
  | @titled t hne hno ht htne htrim =>
    have htitle : trim t = t := htrim.trimmed_eq
    have hlink := NamesFeed.titled hne hno ht
    rwa [hurl, htitle, if_neg htne] at hlink

end Opml.FeedText

/-! The heading that is written for a feed. -/

namespace Link

theorem heading_none (url : String) : heading url none = url := rfl

theorem roundBrackets_eq {s : List Char} (h : ∀ c ∈ s, c ≠ '[' ∧ c ≠ ']') : roundBrackets s = s := by
  refine (List.map_congr_left fun c hc => ?_).trans (List.map_id s)
  simp [h c hc]

theorem mem_roundBrackets {c : Char} {s : List Char} (h : c ∈ roundBrackets s) :
    c ≠ ']' ∧ (c ∈ s ∨ c = '(' ∨ c = ')') := by
  obtain ⟨d, hd, rfl⟩ := List.mem_map.1 h
  split_ifs with hopen hclose
  · exact ⟨by decide, .inr (.inl rfl)⟩
  · exact ⟨by decide, .inr (.inr rfl)⟩
  · exact ⟨by simpa using hclose, .inl hd⟩

theorem trimmed_roundBrackets {s : List Char} (h : Trimmed isBlank s) :
    Trimmed isBlank (roundBrackets s) := by
  have hround (c : Char) (hc : isBlank c = false) :
      isBlank (if c == '[' then '(' else if c == ']' then ')' else c) = false := by
    split_ifs
    · decide
    · decide
    · exact hc
  constructor
  · intro c hc
    rw [roundBrackets, List.head?_map] at hc
    obtain ⟨d, hd, rfl⟩ := Option.map_eq_some_iff.1 hc
    exact hround d (h.head d hd)
  · intro c hc
    rw [roundBrackets, List.getLast?_map] at hc
    obtain ⟨d, hd, rfl⟩ := Option.map_eq_some_iff.1 hc
    exact hround d (h.last d hd)

theorem heading_titled (url : String) {t : String} (hne : t ≠ "") (ht : Trimmed isBlank t.toList) :
    (heading url (some t)).toList =
      "[[".toList ++ url.toList ++ "][".toList ++ roundBrackets t.toList ++ "]]".toList := by
  have hshown : trim (roundBrackets t.toList) = roundBrackets t.toList :=
    (trimmed_roundBrackets ht).trimmed_eq
  have hempty : (roundBrackets t.toList).isEmpty = false := by simpa [roundBrackets] using hne
  rw [heading, Option.getD_some]
  simp only [hshown, hempty, Bool.false_eq_true, if_false, String.toList_append, String.toList_ofList]

end Link

namespace Opml

variable {url t : String}

theorem feedText_address (h : "http".toList <+: url.toList) :
    FeedText url.toList (Link.heading url none).toList none :=
  .address h

theorem feedText_titled (hurl : url ≠ "") (hno : ']' ∉ url.toList) (hne : t ≠ "")
    (ht : Trimmed isBlank t.toList) (hbreak : ∀ c ∈ t.toList, isBreak c = false) :
    FeedText url.toList (Link.heading url (some t)).toList (some (Link.roundBrackets t.toList)) := by
  rw [Link.heading_titled url hne ht]
  refine .titled (by simpa using hurl) hno (fun h => (Link.mem_roundBrackets h).1 rfl)
    (by simpa [Link.roundBrackets] using hne) (Link.trimmed_roundBrackets ht) fun c hc => ?_
  obtain ⟨-, hc | rfl | rfl⟩ := Link.mem_roundBrackets hc
  · exact hbreak c hc
  · decide
  · decide

end Opml

end FeedOutline
