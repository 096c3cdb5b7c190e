import FeedOutline.Proofs.Config.Accepted
import FeedOutline.Proofs.Outline.Annotation
import FeedOutline.Proofs.Outline.Document
import FeedOutline.Proofs.Text.Lines

/-!
Headings that are annotated with a tag of the configuration. The annotation is read as such if the tag
is made of the characters of tags, and else it stays part of the text.
-/
namespace FeedOutline.Outline

open Config (Accepted)
open Text

def annotated (stars : Nat) (text tag : String) : List Char :=
  List.replicate stars '*' ++ ' ' :: (text ++ " :" ++ tag ++ ":").toList

variable {stars : Nat} {text tag : String}

theorem annotated_eq (stars : Nat) (text tag : String) : annotated stars text tag =
    List.replicate stars '*' ++ ((' ' :: text.toList) ++ ' ' :: ':' :: (tag.toList ++ [':'])) := by
  simp [annotated]

theorem tagGroup?_single (h : Accepted tag) :
    tagGroup? (':' :: (tag.toList ++ [':'])) = if isTag tag.toList then some [tag.toList] else none := by
  have hcolon : ∀ c ∈ tag.toList, (c == ':') = false := by
    intro c hc
    rw [beq_eq_false_iff_ne]
    rintro rfl
    exact h.not_colon hc
  have hsplit : splitOn ':' (tag.toList ++ [':']) = [tag.toList, []] :=
    splitWhere_append hcolon (by decide)
  simp [tagGroup?, hsplit]

theorem not_isBlank_single (h : Accepted tag) :
    ∀ c ∈ ':' :: (tag.toList ++ [':']), isBlank c = false := by
  simp only [List.forall_mem_cons, List.forall_mem_append]
  exact ⟨by decide, h.not_blank, by decide, by simp⟩

theorem splitTags_annotated (h : Accepted tag) (before : List Char) :
    (splitTags (trim (before ++ ' ' :: ':' :: (tag.toList ++ [':'])))).2 =
      if isTag tag.toList then [tag.toList] else [] := by
  rw [splitTags, lastWord_trim_append before (not_isBlank_single h) (by simp), tagGroup?_single h]
  by_cases htag : isTag tag.toList = true <;> simp [htag, List.eraseDups_cons]

theorem exists_ofLine?_annotated (hstars : 0 < stars) (h : Accepted tag) (text : String) :
    ∃ shown, Heading.ofLine? (annotated stars text tag) =
      some ⟨shown, stars, if isTag tag.toList then [tag] else []⟩ := by
  have htags := splitTags_annotated h (' ' :: text.toList)
  rw [annotated_eq, Heading.ofLine?_replicate hstars (by simp), htags]
  refine ⟨_, congrArg (some ∘ Heading.mk _ stars) ?_⟩
  split <;> simp

def shownText (text tag : String) : String :=
  if isTag tag.toList then text else text ++ " :" ++ tag ++ ":"

theorem prefix_shownText (text tag : String) : text.toList <+: (shownText text tag).toList := by
  unfold shownText
  split
  · exact List.prefix_refl _
  · exact ⟨" :".toList ++ tag.toList ++ ":".toList, by simp⟩

theorem ofLine?_annotated (hstars : 0 < stars) (h : Accepted tag) {text : String}
    (htrim : Trimmed isBlank text.toList) (hne : text ≠ "") :
    Heading.ofLine? (annotated stars text tag) =
      some ⟨shownText text tag, stars, if isTag tag.toList then [tag] else []⟩ := by
  have hblank := not_isBlank_single h
  have hword : ∀ c ∈ ':' :: (tag.toList ++ [':']), isGap c = false :=
    fun c hc => isGap_of_not_isBlank (hblank c hc)
  have hnonempty : text.toList ≠ [] := by simpa using hne
  have hwhole : trim (' ' :: (text.toList ++ ' ' :: ':' :: (tag.toList ++ [':']))) =
      text.toList ++ ' ' :: ':' :: (tag.toList ++ [':']) := by
    have hlast : ∀ c ∈ (' ' :: ':' :: (tag.toList ++ [':'])).getLast?, isBlank c = false := by
      simp only [← List.cons_append, List.getLast?_concat]
      decide
    exact trim_cons_space (htrim.append hnonempty hlast) (by simp)
  rw [annotated_eq, Heading.ofLine?_replicate hstars (by simp), List.cons_append, hwhole, splitTags,
    lastWord_append (by decide) hword, beforeLastWord_append (by decide) hword, tagGroup?_single h,
    trim_append_space htrim]
  by_cases htag : isTag tag.toList = true
  · simp [htag, shownText, List.eraseDups_cons]
  · have htext : String.ofList (text.toList ++ ' ' :: ':' :: (tag.toList ++ [':'])) =
        text ++ " :" ++ tag ++ ":" := String.toList_injective (by simp)
    simp [htag, shownText, htext]

theorem isBreak_annotated (h : Accepted tag) (htext : ∀ c ∈ text.toList, isBreak c = false) :
    ∀ c ∈ annotated stars text tag, isBreak c = false := by
  have htag : ∀ c ∈ tag.toList, isBreak c = false :=
    fun c hc => isBreak_of_not_isBlank (h.not_blank c hc)
  simp only [annotated_eq, List.forall_mem_append, List.forall_mem_cons]
  exact ⟨isBreak_stars stars, ⟨by decide, htext⟩, by decide, by decide, htag, by decide, by simp⟩

theorem exists_parse_annotated (h : Accepted tag) (htext : ∀ c ∈ text.toList, isBreak c = false) :
    ∃ shown, parse ("* " ++ text ++ " :" ++ tag ++ ":") =
      [⟨shown, 1, if isTag tag.toList then [tag] else [], none, []⟩] := by
  obtain ⟨shown, hline⟩ := exists_ofLine?_annotated Nat.one_pos h text
  have heq : ("* " ++ text ++ " :" ++ tag ++ ":").toList = annotated 1 text tag := by
    simp [annotated]
  rw [← heq] at hline
  exact ⟨shown, parse_line (heq ▸ isBreak_annotated h htext) hline⟩

end FeedOutline.Outline
