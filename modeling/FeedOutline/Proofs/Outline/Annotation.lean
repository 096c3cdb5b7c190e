import FeedOutline.Proofs.Outline.HeadingLine
import FeedOutline.Proofs.TagSet
import FeedOutline.Proofs.Text.Split
import FeedOutline.Proofs.Text.Tag
import FeedOutline.Proofs.Text.Trim

/-!
Annotations. Only the last word of a heading can be one, and it is read as a group of tags exactly if it is
such a group. The tags that are written behind a heading are read back, and what does not end in a colon has
none.
-/
namespace FeedOutline.Outline

open Text

variable {s before text word : List Char} {tags : List String}

theorem lastWord_append {gap : Char} (hgap : isGap gap = true) (hword : ∀ c ∈ word, isGap c = false) :
    lastWord (before ++ gap :: word) = word := by
  have hall : ∀ c ∈ word.reverse, (!isGap c) = true := by simpa using hword
  have hstop : ∀ c ∈ (gap :: before.reverse).head?, (!isGap c) = false := by simpa using hgap
  have hreverse : (before ++ gap :: word).reverse = word.reverse ++ gap :: before.reverse := by simp
  rw [lastWord, hreverse, takeWhile_append_stop hall hstop, List.reverse_reverse]

theorem beforeLastWord_append {gap : Char} (hgap : isGap gap = true)
    (hword : ∀ c ∈ word, isGap c = false) :
    beforeLastWord (before ++ gap :: word) = before ++ [gap] := by
  have hall : ∀ c ∈ word.reverse, (!isGap c) = true := by simpa using hword
  have hstop : ∀ c ∈ (gap :: before.reverse).head?, (!isGap c) = false := by simpa using hgap
  have hreverse : (before ++ gap :: word).reverse = word.reverse ++ gap :: before.reverse := by simp
  rw [beforeLastWord, hreverse, dropWhile_append_stop hall hstop]
  simp

theorem lastWord_of_no_gap (h : ∀ c ∈ word, isGap c = false) : lastWord word = word := by
  have hall : ∀ c ∈ word.reverse, (!isGap c) = true := by simpa using h
  rw [lastWord, List.takeWhile_eq_self_iff.2 hall, List.reverse_reverse]

theorem beforeLastWord_of_no_gap (h : ∀ c ∈ word, isGap c = false) : beforeLastWord word = [] := by
  have hall : ∀ c ∈ word.reverse, (!isGap c) = true := by simpa using h
  rw [beforeLastWord, List.dropWhile_eq_nil_iff.2 hall, List.reverse_nil]

theorem getLast?_lastWord {c : Char} (hc : isGap c = false) (s : List Char) :
    (lastWord (s ++ [c])).getLast? = some c := by
  simp [lastWord, hc]

/-- The longest end of a text in which no space or tab stands, and what stands before it. -/
structure IsLastWord (s before word : List Char) : Prop where
  eq : s = before ++ word
  no_gap : ∀ c ∈ word, isGap c = false
  longest : ∀ tail, tail <:+ s → (∀ c ∈ tail, isGap c = false) → tail.length ≤ word.length

theorem beforeLastWord_append_lastWord (s : List Char) : beforeLastWord s ++ lastWord s = s := by
  rw [beforeLastWord, lastWord, ← List.reverse_append, List.takeWhile_append_dropWhile, List.reverse_reverse]

theorem isGap_lastWord (s : List Char) : ∀ c ∈ lastWord s, isGap c = false := by
  intro c hc
  rw [lastWord, List.mem_reverse] at hc
  simpa using List.mem_takeWhile_imp hc

theorem getLast?_beforeLastWord (s : List Char) : ∀ c ∈ (beforeLastWord s).getLast?, isGap c = true := by
  intro c hc
  rw [beforeLastWord, List.getLast?_reverse] at hc
  simpa using head?_dropWhile c hc

theorem lastWord_of_getLast? (hword : ∀ c ∈ word, isGap c = false)
    (hlast : ∀ c ∈ before.getLast?, isGap c = true) :
    lastWord (before ++ word) = word ∧ beforeLastWord (before ++ word) = before := by
  rcases List.eq_nil_or_concat before with rfl | ⟨front, gap, rfl⟩
  · exact ⟨lastWord_of_no_gap hword, beforeLastWord_of_no_gap hword⟩
  · have hgap : isGap gap = true := hlast gap (by simp)
    rw [List.concat_eq_append, List.append_assoc, List.singleton_append]
    exact ⟨lastWord_append hgap hword, beforeLastWord_append hgap hword⟩

theorem isLastWord_lastWord (s : List Char) : IsLastWord s (beforeLastWord s) (lastWord s) := by
  have heq := beforeLastWord_append_lastWord s
  refine ⟨heq.symm, isGap_lastWord s, fun tail htail hgap => ?_⟩
  rcases List.suffix_or_suffix_of_suffix htail ⟨_, heq⟩ with hshort | ⟨more, rfl⟩
  · exact hshort.length_le
  · -- a longer end would begin behind the last gap
    obtain ⟨front, hfront⟩ := htail
    rw [← List.append_assoc] at hfront
    have hbefore : beforeLastWord s = front ++ more := List.append_cancel_right (heq.trans hfront.symm)
    rcases List.eq_nil_or_concat more with rfl | ⟨inner, c, rfl⟩
    · exact le_rfl
    · rw [List.concat_eq_append] at hbefore hgap
      have hlast := getLast?_beforeLastWord s c (by simp [hbefore])
      rw [hgap c (by simp)] at hlast
      cases hlast

theorem tagGroup?_eq_none {c : Char} (hc : c ≠ ':') (front : List Char) :
    tagGroup? (front ++ [c]) = none := by
  cases front with
  | nil => simp [tagGroup?, hc]
  | cons d front =>
    have hlast : ((splitOn ':' (front ++ [c])).getLast? == some []) = false :=
      beq_eq_false_iff_ne.2 (getLast?_splitWhere_ne (by simpa using hc) front)
    by_cases hd : d = ':'
    · subst hd
      rw [List.cons_append, tagGroup?]
      simp only [hlast, Bool.false_and, Bool.false_eq_true, if_false]
    · simp [tagGroup?, hd]

theorem tagGroup?_written (hne : tags ≠ []) (h : ∀ t ∈ tags, isTag t.toList = true) :
    tagGroup? (':' :: tags.flatMap fun t => t.toList ++ [':']) = some (tags.map String.toList) := by
  have hcolon : ∀ t ∈ tags, ∀ c ∈ t.toList, (c == ':') = false := by
    intro t ht c hc
    have htag := (isTag_iff.1 (h t ht)).2 c hc
    simpa using ne_of_isTagChar htag (by decide)
  have hall : (tags.map String.toList).all isTag = true := by simpa using h
  have hnil : (tags.map String.toList).isEmpty = false := by simpa using hne
  rw [tagGroup?, splitOn, splitWhere_closed hcolon (by decide)]
  simp only [List.dropLast_concat, List.getLast?_concat, hall, hnil]
  rfl

/-- The word is a colon and these tags, at least one, with a colon behind each. -/
structure IsTagGroup (tags : List String) (word : List Char) : Prop where
  ne_nil : tags ≠ []
  isTag : ∀ t ∈ tags, isTag t.toList = true
  word_eq : word = ':' :: tags.flatMap fun t => t.toList ++ [':']

variable {names : List (List Char)}

theorem isTag_of_tagGroup? (h : tagGroup? word = some names) :
    ∀ t ∈ names, isTag t = true := by
  unfold tagGroup? at h
  split at h
  · dsimp only at h
    split at h
    · next hcond =>
      cases Option.some.inj h
      simp only [Bool.and_eq_true, List.all_eq_true] at hcond
      exact hcond.2
    · cases h
  · cases h

theorem word_eq_of_tagGroup? (h : tagGroup? word = some names) :
    names ≠ [] ∧ word = ':' :: names.flatMap (· ++ [':']) := by
  unfold tagGroup? at h
  split at h
  · next rest =>
    dsimp only at h
    split at h
    · next hcond =>
      cases h
      simp only [Bool.and_eq_true, beq_iff_eq] at hcond
      have hparts : splitOn ':' rest = (splitOn ':' rest).dropLast ++ [[]] :=
        (List.dropLast_append_getLast? [] hcond.1.1).symm
      have hclosed := flatMap_splitOn ':' rest
      rw [hparts, List.flatMap_append] at hclosed
      exact ⟨by simpa using hcond.1.2, congrArg _ (List.append_cancel_right hclosed).symm⟩
    · cases h
  · cases h

theorem tagGroup?_eq_some_iff :
    tagGroup? word = some names ↔ ∃ tags, IsTagGroup tags word ∧ names = tags.map String.toList := by
  constructor
  · intro h
    obtain ⟨hne, hword⟩ := word_eq_of_tagGroup? h
    have hnames : (names.map String.ofList).map String.toList = names := by simp
    refine ⟨names.map String.ofList, ⟨by simpa using hne, ?_, ?_⟩, hnames.symm⟩
    · simpa using isTag_of_tagGroup? h
    · simpa [List.flatMap_map] using hword
  · rintro ⟨tags, hgroup, rfl⟩
    rw [hgroup.word_eq, tagGroup?_written hgroup.ne_nil hgroup.isTag]

theorem tagGroup?_eq_none_iff : tagGroup? word = none ↔ ¬ ∃ tags, IsTagGroup tags word := by
  rw [Option.eq_none_iff_forall_ne_some]
  constructor
  · rintro h ⟨tags, hgroup⟩
    exact h _ (tagGroup?_eq_some_iff.2 ⟨tags, hgroup, rfl⟩)
  · intro h names hnames
    obtain ⟨tags, hgroup, -⟩ := tagGroup?_eq_some_iff.1 hnames
    exact h ⟨tags, hgroup⟩

theorem splitTags_ne_nil {names : List String} (h : IsTagGroup names (lastWord s)) :
    (splitTags s).2 ≠ [] := by
  obtain ⟨t, ht⟩ := List.exists_mem_of_ne_nil names h.ne_nil
  rw [splitTags, tagGroup?_eq_some_iff.2 ⟨names, h, rfl⟩]
  exact List.ne_nil_of_mem (List.mem_eraseDups.2 (List.mem_map_of_mem ht))

theorem splitTags_none (h : tagGroup? (lastWord text) = none) : splitTags text = (text, []) := by
  rw [splitTags, h]

theorem not_isBlank_written (h : ∀ t ∈ tags, isTag t.toList = true) :
    ∀ c ∈ ':' :: tags.flatMap fun t => t.toList ++ [':'], isBlank c = false := by
  simp only [List.forall_mem_cons]
  refine ⟨by decide, fun c hc => ?_⟩
  obtain ⟨t, ht, hc⟩ := List.mem_flatMap.1 hc
  rcases List.mem_append.1 hc with hc | hc
  · exact isBlank_of_isTagChar ((isTag_iff.1 (h t ht)).2 c hc)
  · rw [List.mem_singleton.1 hc]
    decide

theorem IsTagGroup.no_gap (h : IsTagGroup tags word) : ∀ c ∈ word, isGap c = false := by
  rw [h.word_eq]
  exact fun c hc => isGap_of_not_isBlank (not_isBlank_written h.isTag c hc)

theorem IsTagGroup.head? (h : IsTagGroup tags word) : word.head? = some ':' := by
  rw [h.word_eq]
  rfl

theorem prefix_splitTags {start : List Char} (hstart : start ≠ []) (hcolon : start.head? ≠ some ':')
    (hblank : ∀ c ∈ start, isBlank c = false) (h : start <+: s) : start <+: (splitTags s).1 := by
  cases hgroup : tagGroup? (lastWord s) with
  | none => rwa [splitTags_none hgroup]
  | some names =>
    have htext : (splitTags s).1 = trim (beforeLastWord s) := by rw [splitTags, hgroup]
    have hbefore : beforeLastWord s <+: s := ⟨lastWord s, beforeLastWord_append_lastWord s⟩
    rw [htext]
    rcases List.prefix_or_prefix_of_prefix h hbefore with hlong | hshort
    · exact prefix_trimmed hblank hlong
    · -- nothing stands before the last word, so it begins as the text does
      exfalso
      have hnil : beforeLastWord s = [] := by
        by_contra hne
        have hlast := List.getLast?_eq_some_getLast hne
        have hmem := hshort.subset (List.mem_of_getLast? hlast)
        have hgap := getLast?_beforeLastWord s _ hlast
        rw [isGap_of_not_isBlank (hblank _ hmem)] at hgap
        cases hgap
      have hs := beforeLastWord_append_lastWord s
      rw [hnil, List.nil_append, (word_eq_of_tagGroup? hgroup).2] at hs
      obtain ⟨rest, hrest⟩ := h
      rw [← hrest] at hs
      cases start with
      | nil => exact hstart rfl
      | cons c start => exact hcolon (congrArg some (List.cons.inj hs).1.symm)

theorem eraseDups_written (hnodup : tags.Nodup) :
    (tags.map String.toList).eraseDups = tags.map String.toList :=
  eraseDups_eq_self (hnodup.map fun _ _ => String.toList_injective)

theorem splitTags_written (htext : Trimmed isBlank text) (hne : tags ≠ [])
    (h : ∀ t ∈ tags, isTag t.toList = true) (hnodup : tags.Nodup) :
    splitTags (text ++ ' ' :: ':' :: tags.flatMap fun t => t.toList ++ [':']) =
      (text, tags.map String.toList) := by
  have hword := fun c hc => isGap_of_not_isBlank (not_isBlank_written h c hc)
  rw [splitTags, lastWord_append (by decide) hword, tagGroup?_written hne h,
    beforeLastWord_append (by decide) hword, trim_append_space htext]
  simp only [eraseDups_written hnodup]

theorem lastWord_trim_append (before : List Char) (hblank : ∀ c ∈ word, isBlank c = false)
    (hne : word ≠ []) : lastWord (trim (before ++ ' ' :: word)) = word := by
  have hword : ∀ c ∈ word, isGap c = false := fun c hc => isGap_of_not_isBlank (hblank c hc)
  have htrim : trim (before ++ ' ' :: word) = (before ++ [' ']).dropWhile isBlank ++ word := by
    rw [← List.singleton_append, ← List.append_assoc]
    exact trimmed_append_trimmed _ (.of_forall hblank) hne
  rw [htrim, List.dropWhile_append]
  split
  · exact lastWord_of_no_gap hword
  · rw [List.append_assoc, List.singleton_append, lastWord_append (by decide) hword]

theorem splitTags_trim_written (before : List Char) (hne : tags ≠ [])
    (h : ∀ t ∈ tags, isTag t.toList = true) (hnodup : tags.Nodup) :
    (splitTags (trim (before ++ ' ' :: ':' :: tags.flatMap fun t => t.toList ++ [':']))).2 =
      tags.map String.toList := by
  rw [splitTags, lastWord_trim_append before (not_isBlank_written h) (by simp), tagGroup?_written hne h]
  exact eraseDups_written hnodup

theorem tagSuffix_some (hne : tags ≠ []) (h : ∀ t ∈ tags, isTag t.toList = true)
    (hnodup : tags.Nodup) : tagSuffix (tags.map some) = " :" ++ joined ":" tags ++ ":" := by
  have hdups : (tags.map some).eraseDups = tags.map some :=
    eraseDups_eq_self (hnodup.map (Option.some_injective _))
  have hnames : ((tags.map some).filterMap id).filter (· != "") = tags := by
    simpa using fun t ht => mt String.toList_eq_nil_iff.2 (isTag_iff.1 (h t ht)).1
  have hempty : tags.isEmpty = false := by simpa using hne
  rw [tagSuffix, hdups, hnames]
  simp only [hempty, Bool.false_eq_true, if_false]

theorem toList_tagSuffix (hne : tags ≠ []) (h : ∀ t ∈ tags, isTag t.toList = true)
    (hnodup : tags.Nodup) :
    (tagSuffix (tags.map some)).toList = ' ' :: ':' :: tags.flatMap fun t => t.toList ++ [':'] := by
  rw [tagSuffix_some hne h hnodup, String.append_assoc, String.toList_append,
    toList_joined_append ":" hne]
  rfl

theorem isBreak_stars (stars : Nat) : ∀ c ∈ List.replicate stars '*', isBreak c = false := by
  intro c hc
  rw [List.eq_of_mem_replicate hc]
  decide

theorem isBreak_tagSuffix {tags : List (Option String)}
    (h : ∀ t, some t ∈ tags → ∀ c ∈ t.toList, isTagChar c = true) :
    ∀ c ∈ (tagSuffix tags).toList, isBreak c = false := by
  have hnames : ∀ t ∈ (tags.eraseDups.filterMap id).filter (· != ""), some t ∈ tags := by
    intro t ht
    simpa using (List.mem_filter.1 ht).1
  unfold tagSuffix
  dsimp only
  split
  · decide
  · next hne =>
    rw [String.append_assoc, String.toList_append, toList_joined_append ":" (by simpa using hne)]
    simp only [List.forall_mem_append, List.forall_mem_flatMap]
    refine ⟨by decide, fun t ht => ⟨fun c hc => ?_, by decide⟩⟩
    exact isBreak_of_not_isBlank (isBlank_of_isTagChar (h t (hnames t ht) c hc))

theorem getLast?_tagSuffix (tags : List (Option String)) :
    tagSuffix tags = "" ∨ (tagSuffix tags).toList.getLast? = some ':' := by
  unfold tagSuffix
  dsimp only
  split
  · exact .inl rfl
  · have hcolon : ":".toList = [':'] := rfl
    exact .inr (by rw [String.toList_append, hcolon, List.getLast?_concat])

def writtenTags (tags : List (Option String)) : List String :=
  (tags.eraseDups.filterMap id).filter (· != "")

theorem mem_writtenTags {tags : List (Option String)} {t : String} :
    t ∈ writtenTags tags ↔ some t ∈ tags ∧ t ≠ "" := by
  simp [writtenTags]

theorem nodup_writtenTags (tags : List (Option String)) : (writtenTags tags).Nodup := by
  refine ((nodup_filterMap_iff (nodup_eraseDups tags)).2 ?_).filter _
  rintro x - y - hne z rfl hy
  exact hne (Eq.symm hy)

theorem tagSuffix_writtenTags (tags : List (Option String)) :
    tagSuffix ((writtenTags tags).map some) = tagSuffix tags := by
  have hdups : ((writtenTags tags).map some).eraseDups = (writtenTags tags).map some :=
    eraseDups_eq_self ((nodup_writtenTags tags).map (Option.some_injective _))
  have hnames : (((writtenTags tags).map some).filterMap id).filter (· != "") = writtenTags tags := by
    simp [writtenTags]
  rw [tagSuffix, hdups, hnames]
  rfl

theorem writtenTags_eq {tags : List (Option String)} (h : some "" ∉ tags) :
    writtenTags tags = (tags.filterMap id).eraseDups := by
  have hfilter : writtenTags tags = tags.eraseDups.filterMap id := by
    refine List.filter_eq_self.2 fun t ht => bne_iff_ne.2 ?_
    rintro rfl
    exact h (by simpa using ht)
  rw [← eraseDups_filterMap_eraseDups, ← hfilter, eraseDups_eq_self (nodup_writtenTags tags)]

theorem writtenTags_map_some (h : ∀ t ∈ tags, isTag t.toList = true) :
    writtenTags (tags.map some) = tags.eraseDups := by
  have hempty : some "" ∉ tags.map some := by
    intro hmem
    exact (isTag_iff.1 (h "" (by simpa using hmem))).1 rfl
  rw [writtenTags_eq hempty, List.filterMap_map, Function.id_comp, List.filterMap_some]

theorem isTag_writtenTags {tags : List (Option String)}
    (h : ∀ t, some t ∈ tags → ∀ c ∈ t.toList, isTagChar c = true) :
    ∀ t ∈ writtenTags tags, isTag t.toList = true := by
  intro t ht
  obtain ⟨hmem, hne⟩ := mem_writtenTags.1 ht
  exact isTag_iff.2 ⟨by simpa using hne, h t hmem⟩

theorem splitTags_tagSuffix (htext : Trimmed isBlank text)
    (hno : tags = [] → tagGroup? (lastWord text) = none) (h : ∀ t ∈ tags, isTag t.toList = true)
    (hnodup : tags.Nodup) :
    splitTags (text ++ (tagSuffix (tags.map some)).toList) = (text, tags.map String.toList) := by
  by_cases hne : tags = []
  · have hsuffix : (tagSuffix ([].map some)).toList = [] := by decide
    rw [hne, hsuffix, List.append_nil, splitTags_none (hno hne), List.map_nil]
  · rw [toList_tagSuffix hne h hnodup, splitTags_written htext hne h hnodup]

theorem splitTags_tagSuffix_alone (h : ∀ t ∈ tags, isTag t.toList = true) (hnodup : tags.Nodup) :
    splitTags (trim (' ' :: (tagSuffix (tags.map some)).toList)) = ([], tags.map String.toList) := by
  by_cases hne : tags = []
  · subst hne
    rfl
  · have hblank := not_isBlank_written h
    have hword := fun c hc => isGap_of_not_isBlank (hblank c hc)
    have hspaces : trim (' ' :: ' ' :: ':' :: tags.flatMap fun t => t.toList ++ [':']) =
        ':' :: tags.flatMap fun t => t.toList ++ [':'] :=
      trimmed_append_trimmed [' ', ' '] (.of_forall hblank) (by simp)
    rw [toList_tagSuffix hne h hnodup, hspaces, splitTags, lastWord_of_no_gap hword,
      tagGroup?_written hne h, beforeLastWord_of_no_gap hword]
    simp only [eraseDups_written hnodup]
    rfl

/-- Nothing stands before a text that is one word, so it is the whole text unless it is itself a group
of tags. -/
theorem splitTags_word (hblank : ∀ c ∈ word, isBlank c = false)
    (h : ∀ t ∈ tags, isTag t.toList = true) (hnodup : tags.Nodup) :
    (splitTags (word ++ (tagSuffix (tags.map some)).toList)).1 = word ∨
      (splitTags (word ++ (tagSuffix (tags.map some)).toList)).1 = [] := by
  by_cases htags : tags = []
  · have hsuffix : (tagSuffix ([].map some)).toList = [] := by decide
    have hword : ∀ c ∈ word, isGap c = false := fun c hc => isGap_of_not_isBlank (hblank c hc)
    rw [htags, hsuffix, List.append_nil, splitTags, lastWord_of_no_gap hword]
    split
    · rw [beforeLastWord_of_no_gap hword]
      exact .inr rfl
    · exact .inl rfl
  · rw [toList_tagSuffix htags h hnodup, splitTags_written (.of_forall hblank) htags h hnodup]
    exact .inl rfl

theorem ofLine?_suffixed {stars : Nat} (hstars : 0 < stars) (htext : Trimmed isBlank text)
    (hnonempty : text ≠ []) (tags : List (Option String)) :
    Heading.ofLine? (List.replicate stars '*' ++ ' ' :: (text ++ (tagSuffix tags).toList)) =
      some ⟨String.ofList (splitTags (text ++ (tagSuffix tags).toList)).1, stars,
        (splitTags (text ++ (tagSuffix tags).toList)).2.map String.ofList⟩ := by
  have hlast : ∀ c ∈ (tagSuffix tags).toList.getLast?, isBlank c = false := by
    rcases getLast?_tagSuffix tags with hempty | hcolon
    · rw [hempty]
      decide
    · rw [hcolon]
      decide
  have hwhole : text ++ (tagSuffix tags).toList ≠ [] := by simp [hnonempty]
  rw [Heading.ofLine?_replicate hstars (by simp), trim_cons_space (htext.append hnonempty hlast) hwhole]

theorem ofLine?_written {stars : Nat} (hstars : 0 < stars) (htext : Trimmed isBlank text)
    (hnonempty : text ≠ []) (hno : tags = [] → tagGroup? (lastWord text) = none)
    (h : ∀ t ∈ tags, isTag t.toList = true) (hnodup : tags.Nodup) :
    Heading.ofLine? (List.replicate stars '*' ++ ' ' :: (text ++ (tagSuffix (tags.map some)).toList)) =
      some ⟨String.ofList text, stars, tags⟩ := by
  rw [ofLine?_suffixed hstars htext hnonempty, splitTags_tagSuffix htext hno h hnodup]
  simp

end FeedOutline.Outline
