import FeedOutline.Opml.Import
import FeedOutline.Proofs.Outline.Annotation
import FeedOutline.Proofs.Text.Lines

/-!
The lines of an imported list. Each one begins as a heading of its level and does not end in a break, but
a name or an address may break it in between.
-/
namespace FeedOutline

open Outline (Heading HasStars isBreak_stars tagSuffix)
open Text

theorem Text.Closed.of_trimmed {s : List Char} (h : Trimmed isBlank s) (hne : s ≠ []) : Closed s :=
  ⟨hne, fun c hc => isBreak_of_not_isBlank (h.last c hc)⟩

namespace Opml

variable {level : Nat} {text name url category marker top : String} {tags : List (Option String)}

theorem toList_headingLine (level : Nat) (text : String) (tags : List (Option String)) :
    (headingLine level text tags).toList =
      List.replicate level '*' ++ ' ' :: (text.toList ++ (tagSuffix tags).toList) := by
  simp [headingLine]

/-! Heading lines. -/

theorem exists_lines_headingLine_append (hlevel : 0 < level) (text : String)
    (tags : List (Option String)) (rest : List Char) :
    ∃ line ls, lines ((headingLine level text tags).toList ++ rest) = line :: ls ∧ HasStars level line := by
  have hstart : ∀ c ∈ List.replicate level '*' ++ [' '], isBreak c = false :=
    List.forall_mem_append.2 ⟨isBreak_stars level, by decide⟩
  have hline : (headingLine level text tags).toList ++ rest =
      (List.replicate level '*' ++ [' ']) ++ (text.toList ++ (tagSuffix tags).toList ++ rest) := by
    rw [toList_headingLine]
    simp
  obtain ⟨more, ls, hlines⟩ := exists_lines_append (by simp) hstart
    (text.toList ++ (tagSuffix tags).toList ++ rest)
  exact ⟨_, ls, hline ▸ hlines, hlevel, ' ' :: more, by simp, by simp⟩

theorem exists_lines_headingLine (hlevel : 0 < level) (text : String) (tags : List (Option String)) :
    ∃ first more, lines (headingLine level text tags).toList = first :: more ∧ HasStars level first := by
  simpa using exists_lines_headingLine_append hlevel text tags []

theorem closed_headingLine (htext : Closed text.toList) : Closed (headingLine level text tags).toList := by
  rw [toList_headingLine]
  refine ⟨by simp, ?_⟩
  rcases Outline.getLast?_tagSuffix tags with hempty | hcolon
  · obtain ⟨hne, hlast⟩ := htext
    have hsplit : List.replicate level '*' ++ ' ' :: (text.toList ++ (tagSuffix tags).toList) =
        (List.replicate level '*' ++ [' ']) ++ text.toList := by
      simp [hempty]
    rwa [hsplit, List.getLast?_append_of_ne_nil _ hne]
  · have hsplit : List.replicate level '*' ++ ' ' :: (text.toList ++ (tagSuffix tags).toList) =
        (List.replicate level '*' ++ ' ' :: text.toList) ++ (tagSuffix tags).toList := by
      simp
    have hne : (tagSuffix tags).toList ≠ [] := fun hnil => by simp [hnil] at hcolon
    rw [hsplit, List.getLast?_append_of_ne_nil _ hne, hcolon]
    decide

theorem isBreak_headingLine (htext : ∀ c ∈ text.toList, isBreak c = false)
    (htags : ∀ t, some t ∈ tags → ∀ c ∈ t.toList, isTagChar c = true) :
    ∀ c ∈ (headingLine level text tags).toList, isBreak c = false := by
  rw [toList_headingLine]
  simp only [List.forall_mem_append, List.forall_mem_cons]
  exact ⟨isBreak_stars level, by decide, htext, Outline.isBreak_tagSuffix htags⟩

theorem exists_ofLine?_headingLine (hlevel : 0 < level) (text : String) {names : List String}
    (h : ∀ t ∈ names, isTag t.toList = true) (hnodup : names.Nodup) :
    ∃ hd, Heading.ofLine? (headingLine level text (names.map some)).toList = some hd ∧
      hd.level = level ∧ ∀ t ∈ names, t ∈ hd.tags := by
  refine ⟨_, toList_headingLine level text _ ▸ Heading.ofLine?_replicate hlevel (by simp), rfl, ?_⟩
  intro t ht
  have hne : names ≠ [] := List.ne_nil_of_mem ht
  rw [Outline.toList_tagSuffix hne h hnodup, ← List.cons_append,
    Outline.splitTags_trim_written _ hne h hnodup, List.map_map]
  simpa using ht

theorem headingLine_writtenTags (level : Nat) (text : String) (tags : List (Option String)) :
    headingLine level text ((Outline.writtenTags tags).map some) = headingLine level text tags := by
  rw [headingLine, headingLine, Outline.tagSuffix_writtenTags]

/-! The line of an element. -/

def itemText (name url : String) : String :=
  if url.isEmpty then (if name.isEmpty then "Untitled" else name)
  else Link.heading url (if name = url then none else some name)

def itemTags (name url category : String) : List (Option String) :=
  if url.isEmpty then (if name.isEmpty then none else tagOfName? name) :: categoryTags category
  else categoryTags category

theorem itemLine_eq (level : Nat) (name url category : String) :
    itemLine level name url category =
      headingLine level (itemText name url) (itemTags name url category) := by
  unfold itemLine itemText itemTags
  split <;> rfl

theorem isTagChar_joinRuns (s : List Char) : ∀ c ∈ joinRuns s, isTagChar c = true := by
  induction s with
  | nil => simp [joinRuns]
  | cons c s ih =>
    rw [joinRuns]
    split
    · next hc => exact List.forall_mem_cons.2 ⟨hc, ih⟩
    · split
      · exact ih
      · exact List.forall_mem_cons.2 ⟨by decide, ih⟩

theorem isTagChar_tagOfName? {tag : String} (h : tagOfName? name = some tag) :
    ∀ c ∈ tag.toList, isTagChar c = true := by
  unfold tagOfName? at h
  dsimp only at h
  split at h
  · cases h
  · cases Option.some.inj h
    intro c hc
    rw [String.toList_ofList] at hc
    exact isTagChar_joinRuns _ c (mem_of_mem_trimmed hc)

theorem tagOfName?_ne (name : String) : tagOfName? name ≠ some "" := by
  unfold tagOfName?
  dsimp only
  split
  · simp
  · next hne => simpa using hne

theorem isTagChar_itemTags {tag : String} (h : some tag ∈ itemTags name url category) :
    ∀ c ∈ tag.toList, isTagChar c = true := by
  have hcategory (h : some tag ∈ categoryTags category) : ∀ c ∈ tag.toList, isTagChar c = true := by
    obtain ⟨part, -, hpart⟩ := List.mem_map.1 h
    exact isTagChar_tagOfName? hpart
  unfold itemTags at h
  split at h
  · rcases List.mem_cons.1 h with hfolder | h
    · split at hfolder
      · cases hfolder
      · exact isTagChar_tagOfName? hfolder.symm
    · exact hcategory h
  · exact hcategory h

theorem closed_heading (hurl : Closed url.toList) (title : Option String) :
    Closed (Link.heading url title).toList := by
  unfold Link.heading
  dsimp only
  split
  · exact hurl
  · have hbrackets : "]]".toList = [']', ']'] := rfl
    rw [String.toList_append, hbrackets]
    refine ⟨by simp, ?_⟩
    rw [List.getLast?_append_of_ne_nil _ (by simp)]
    decide

theorem isBreak_heading {title : Option String} (hurl : ∀ c ∈ url.toList, isBreak c = false)
    (htitle : ∀ t ∈ title, ∀ c ∈ t.toList, isBreak c = false) :
    ∀ c ∈ (Link.heading url title).toList, isBreak c = false := by
  have hround : ∀ c ∈ Link.roundBrackets (title.getD "").toList, isBreak c = false := by
    intro c hc
    obtain ⟨d, hd, rfl⟩ := List.mem_map.1 hc
    cases title with
    | none => simp at hd
    | some t =>
      split
      · decide
      · split
        · decide
        · exact htitle t rfl d hd
  unfold Link.heading
  dsimp only
  split
  · exact hurl
  · simp only [String.toList_append, String.toList_ofList, List.forall_mem_append]
    exact ⟨⟨⟨⟨by decide, hurl⟩, by decide⟩, fun c hc => hround c (mem_of_mem_trimmed hc)⟩, by decide⟩

theorem closed_itemText (hname : Trimmed isBlank name.toList) (hurl : Trimmed isBlank url.toList) :
    Closed (itemText name url).toList := by
  unfold itemText
  split
  · split
    · exact ⟨by decide, by decide⟩
    · next hne => exact .of_trimmed hname (by simpa using hne)
  · next hne => exact closed_heading (.of_trimmed hurl (by simpa using hne)) _

theorem isBreak_itemText (hname : ∀ c ∈ name.toList, isBreak c = false)
    (hurl : ∀ c ∈ url.toList, isBreak c = false) : ∀ c ∈ (itemText name url).toList, isBreak c = false := by
  unfold itemText
  split
  · split
    · decide
    · exact hname
  · refine isBreak_heading hurl fun t ht => ?_
    split at ht
    · cases ht
    · rwa [← Option.some.inj ht]

end Opml

end FeedOutline
