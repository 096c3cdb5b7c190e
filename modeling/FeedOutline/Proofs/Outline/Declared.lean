import FeedOutline.Proofs.Outline.Annotation
import FeedOutline.Proofs.Outline.Document
import FeedOutline.Proofs.Outline.Path
import FeedOutline.Proofs.Text.Lines

/-!
What the headings of a document can declare: texts of one line, tags made of the characters of tags, and
no empty id.
-/
namespace FeedOutline.Outline

open Text

/-! Texts and tags. -/

theorem mem_of_mem_beforeLastWord {c : Char} {s : List Char} (h : c ∈ beforeLastWord s) : c ∈ s := by
  rw [beforeLastWord, List.mem_reverse] at h
  exact List.mem_reverse.1 ((List.dropWhile_suffix _).mem h)

theorem mem_of_mem_splitTags {c : Char} {s : List Char} (h : c ∈ (splitTags s).1) : c ∈ s := by
  unfold splitTags at h
  split at h
  · exact mem_of_mem_beforeLastWord (mem_of_mem_trimmed h)
  · exact h

theorem isTag_of_mem_splitTags {s t : List Char} (h : t ∈ (splitTags s).2) : isTag t = true := by
  unfold splitTags at h
  split at h
  · next names hnames => exact isTag_of_tagGroup? hnames t (List.mem_eraseDups.1 h)
  · cases h

theorem Heading.mem_of_mem_text {line : List Char} {h : Heading} (hline : ofLine? line = some h) {c : Char}
    (hc : c ∈ h.text.toList) : c ∈ line := by
  unfold ofLine? at hline
  dsimp only at hline
  split at hline
  · cases Option.some.inj hline
    rw [String.toList_ofList] at hc
    exact (List.dropWhile_suffix _).mem (mem_of_mem_trimmed (mem_of_mem_splitTags hc))
  · cases hline

theorem Heading.isTag_of_mem_tags {line : List Char} {h : Heading} (hline : ofLine? line = some h)
    {t : String} (ht : t ∈ h.tags) : isTag t.toList = true := by
  unfold ofLine? at hline
  dsimp only at hline
  split at hline
  · cases Option.some.inj hline
    obtain ⟨tag, htag, rfl⟩ := List.mem_map.1 ht
    rw [String.toList_ofList]
    exact isTag_of_mem_splitTags htag
  · cases hline

variable {text : String} {n : Node}

theorem exists_line_of_mem_parse (hn : n ∈ walkAll (parse text)) : ∃ line ∈ lines text.toList, ∃ h,
    Heading.ofLine? line = some h ∧ n.text = h.text ∧ n.tags = h.tags := by
  have hmem : n.bare.withoutId ∈ (listing (parse text)).map Node.withoutId :=
    List.mem_map_of_mem (List.mem_map_of_mem hn)
  rw [withoutId_listing_parse] at hmem
  obtain ⟨h, hh, heq⟩ := List.mem_map.1 hmem
  obtain ⟨line, hline, hread⟩ := List.mem_filterMap.1 hh
  exact ⟨line, hline, h, hread, congrArg Node.text heq.symm, congrArg Node.tags heq.symm⟩

theorem isBreak_of_mem_parse (hn : n ∈ walkAll (parse text)) :
    ∀ c ∈ n.text.toList, isBreak c = false := by
  obtain ⟨line, hline, h, hread, htext, -⟩ := exists_line_of_mem_parse hn
  rw [htext]
  exact fun c hc => forall_of_mem_lines hline c (Heading.mem_of_mem_text hread hc)

theorem isTag_of_mem_parse (hn : n ∈ walkAll (parse text)) : ∀ t ∈ n.tags, isTag t.toList = true := by
  obtain ⟨line, -, h, hread, -, htags⟩ := exists_line_of_mem_parse hn
  rw [htags]
  exact fun t ht => Heading.isTag_of_mem_tags hread ht

theorem mem_walkAll_of_leads {ns : List Node} {r h : Node} {path : List Node} (hr : r ∈ walkAll ns)
    (hpath : Leads r path h) : ∀ m ∈ path, m ∈ walkAll ns := by
  intro m hm
  obtain ⟨before, after, rfl⟩ := List.append_of_mem hm
  obtain ⟨top, htop, above, habove⟩ := mem_walkAll_iff.1 hr
  exact mem_walkAll_iff.2 ⟨top, htop, _, habove.trans hpath.of_append.1⟩

/-! Ids. -/

theorem idProperty?_ne {line : List Char} : idProperty? line ≠ some (some "") := by
  intro h
  unfold idProperty? at h
  split at h
  · split at h
    · split at h
      · cases h
      · next hne =>
        simp only [Option.some.injEq, String.ofList_eq_empty_iff] at h
        exact hne (by simp [h])
    · cases h
  · cases h

theorem Drawer.step_ne {d : Drawer} {line : List Char} : (d.step line).2 ≠ some (some "") := by
  intro h
  cases d with
  | awaited =>
    simp only [step] at h
    split_ifs at h
  | inside =>
    simp only [step] at h
    split_ifs at h
    exact idProperty?_ne h
  | _ => cases h

namespace Reader

variable {r : Reader}

def Identified (r : Reader) : Prop :=
  ∀ n ∈ r.headings, n.id ≠ some ""

theorem Identified.setId (h : r.Identified) {id : Option String} (hid : id ≠ some "") :
    (r.setId id).Identified := by
  obtain ⟨roots, frames, drawer⟩ := r
  cases frames with
  | nil => exact h
  | cons f fs =>
    simp only [Identified, Reader.setId, headings, pending, List.forall_mem_append,
      List.forall_mem_cons] at h ⊢
    exact ⟨h.1, h.2.1, hid, h.2.2.2⟩

theorem Identified.step (h : r.Identified) (line : List Char) : (r.step line).Identified := by
  unfold Reader.step
  split
  · rw [Identified, headings_enter, List.forall_mem_append]
    exact ⟨h, by simp [Heading.node]⟩
  · have hdrawer : Identified { r with drawer := (r.drawer.step (trim line)).1 } := h
    unfold Reader.body
    dsimp only
    split
    · next id hid =>
      refine hdrawer.setId ?_
      rintro rfl
      exact Drawer.step_ne hid
    · exact hdrawer

theorem Identified.foldl (h : r.Identified) (ls : List (List Char)) :
    (ls.foldl Reader.step r).Identified := by
  induction ls generalizing r with
  | nil => exact h
  | cons line ls ih => exact ih (h.step line)

end Reader

theorem id_ne_of_mem_parse (hn : n ∈ walkAll (parse text)) : n.id ≠ some "" := by
  have hempty : Reader.Identified {} := by
    intro n hn
    cases hn
  have hall : ∀ m ∈ listing (parse text), m.id ≠ some "" := by
    rw [parse, Reader.listing_forest]
    exact hempty.foldl _
  exact hall n.bare (List.mem_map_of_mem hn)

end FeedOutline.Outline
