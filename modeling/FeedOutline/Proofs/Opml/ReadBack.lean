import FeedOutline.Proofs.Opml.Headings
import FeedOutline.Proofs.Text.Case

/-!
One heading line on its own. It is read as the heading that it was written for, unless no tags stand
behind its text and the text ends in what is itself a group of tags. The tags that names are made into stand
for themselves, and are read back whatever the names are.
-/
namespace FeedOutline.Opml

open Outline (Heading IsTagGroup lastWord splitTags tagGroup? tagSuffix writtenTags)
open Text

variable {level : Nat} {text : String} {tags : List String}

theorem headingLine_read_of_trimmed (hlevel : 0 < level) (htrim : Trimmed isBlank text.toList)
    (hbreak : ∀ c ∈ text.toList, isBreak c = false) (htags : ∀ t ∈ tags, isTag t.toList = true)
    (hno : tags = [] → tagGroup? (lastWord text.toList) = none) (hnodup : tags.Nodup) :
    Heading.OnLine (headingLine level text (tags.map some)) ⟨text, level, tags⟩ := by
  by_cases hne : text.toList = []
  · refine ⟨isBreak_headingLine hbreak fun t ht => (isTag_iff.1 (htags t (by simpa using ht))).2, ?_⟩
    rw [toList_headingLine, hne, List.nil_append, Heading.ofLine?_replicate hlevel (by simp),
      Outline.splitTags_tagSuffix_alone htags hnodup]
    simp [String.toList_eq_nil_iff.1 hne]
  · exact headingLine_annotated_read hlevel htrim hne hbreak hno htags hnodup

theorem exists_tags_of_tagGroup {names : List String} (hlevel : 0 < level)
    (htrim : Trimmed isBlank text.toList) (h : IsTagGroup names (lastWord text.toList)) :
    ∃ hd, Heading.ofLine? (headingLine level text []).toList = some hd ∧ hd.tags ≠ [] := by
  have hne : text.toList ≠ [] := by
    intro hnil
    rw [hnil] at h
    cases h.word_eq
  have hsuffix : (tagSuffix []).toList = [] := by decide
  refine ⟨_, toList_headingLine level text [] ▸ Outline.ofLine?_suffixed hlevel htrim hne [], ?_⟩
  rw [hsuffix, List.append_nil]
  simpa using Outline.splitTags_ne_nil h

/-- A line that is written for a heading is read as a tree of that heading alone, each of its tags being
given once. Only without tags of its own can a heading lose a group of tags that ends its text. -/
theorem parse_headingLine_iff (hlevel : 0 < level) (htrim : trimString text = text)
    (hbreak : ∀ c ∈ text.toList, isBreak c = false) (htags : ∀ t ∈ tags, isTag t.toList = true) :
    Outline.parse (headingLine level text (tags.map some)) = [⟨text, level, tags.eraseDups, none, []⟩] ↔
      (tags ≠ [] ∨ ¬ ∃ names, IsTagGroup names (lastWord text.toList)) := by
  have htrimmed : Trimmed isBlank text.toList := htrim ▸ trimmed_trimString text
  constructor
  · intro hparse
    refine or_iff_not_imp_left.2 ?_
    rintro hnil ⟨names, hgroup⟩
    rw [not_not] at hnil
    subst hnil
    obtain ⟨h, hline, hread⟩ := exists_tags_of_tagGroup hlevel htrimmed hgroup
    rw [List.map_nil, Outline.parse_line (isBreak_headingLine hbreak (by simp)) hline] at hparse
    exact hread (congrArg Outline.Node.tags (List.singleton_injective hparse))
  · intro hgroup
    have hdups : ∀ t ∈ tags.eraseDups, isTag t.toList = true :=
      fun t ht => htags t (List.mem_eraseDups.1 ht)
    have hno : tags.eraseDups = [] → tagGroup? (lastWord text.toList) = none := by
      intro hnil
      have htags_nil : tags = [] := List.eq_nil_iff_forall_not_mem.2 fun t ht =>
        List.ne_nil_of_mem (List.mem_eraseDups.2 ht) hnil
      exact Outline.tagGroup?_eq_none_iff.2 (hgroup.resolve_left (· htags_nil))
    obtain ⟨hline, hread⟩ :=
      headingLine_read_of_trimmed hlevel htrimmed hbreak hdups hno (nodup_eraseDups tags)
    rw [← headingLine_writtenTags, Outline.writtenTags_map_some htags]
    exact Outline.parse_line hline hread

theorem parse_headingLine_odd :
    Outline.parse (headingLine 3 "a:  \t: :b:c:" (["é@", "x", "é@"].map some)) =
      [⟨"a:  \t: :b:c:", 3, ["é@", "x"], none, []⟩] :=
  (parse_headingLine_iff (by decide) (by decide +kernel) (by decide +kernel) (by decide +kernel)).2
    (.inl (by decide))

/-! Tags that names are made into. -/

variable {name tag : String} {s : List Char}

theorem mem_joinRuns {c : Char} (hc : isTagChar c = true) (h : c ∈ s) : c ∈ joinRuns s := by
  induction s with
  | nil => cases h
  | cons d s ih =>
    rw [joinRuns]
    rcases List.mem_cons.1 h with rfl | h
    · rw [if_pos hc]
      exact List.mem_cons_self
    · split
      · exact List.mem_cons_of_mem _ (ih h)
      · split
        · exact ih h
        · exact List.mem_cons_of_mem _ (ih h)

theorem mem_of_mem_joinRuns {c : Char} (h : c ∈ joinRuns s) : c ∈ s ∨ c = '_' := by
  induction s with
  | nil => cases h
  | cons d s ih =>
    have hrest (h : c ∈ joinRuns s) : c ∈ d :: s ∨ c = '_' := (ih h).imp_left (List.mem_cons_of_mem d)
    rw [joinRuns] at h
    split at h
    · rcases List.mem_cons.1 h with rfl | h
      · exact .inl List.mem_cons_self
      · exact hrest h
    · split at h
      · exact hrest h
      · rcases List.mem_cons.1 h with rfl | h
        · exact .inr rfl
        · exact hrest h

theorem joinRuns_blank_iff :
    (∀ c ∈ joinRuns s, c = '_') ↔ ∀ c ∈ s, isTagChar c = true → c = '_' := by
  constructor
  · exact fun h c hc htag => h c (mem_joinRuns htag hc)
  · intro h c hc
    rcases mem_of_mem_joinRuns hc with hs | hunderscore
    · exact h c hs (isTagChar_joinRuns s c hc)
    · exact hunderscore

theorem forall_lower_trim_iff (s : List Char) :
    (∀ c ∈ lower (trim s), isTagChar c = true → c = '_') ↔
      ∀ c ∈ lower s, isTagChar c = true → c = '_' := by
  have hsigma : (isTagChar 'ς' = true → 'ς' = '_') ↔ (isTagChar 'σ' = true → 'σ' = '_') := by
    decide
  rw [forall_mem_lower hsigma, forall_mem_lower hsigma]
  constructor
  · intro h c hc
    by_cases hblank : isBlank c = true
    · intro d hd htag
      rw [lowerChar_of_isBlank hblank, List.mem_singleton] at hd
      rw [hd] at htag
      exact absurd (isBlank_of_isTagChar htag) (by simp [hblank])
    · exact h c (mem_trimmed hc (Bool.not_eq_true _ ▸ hblank))
  · exact fun h c hc => h c (mem_of_mem_trimmed hc)

theorem tagOfName?_eq_none_iff :
    tagOfName? name = none ↔ ∀ c ∈ lower name.toList, isTagChar c = true → c = '_' := by
  rw [← forall_lower_trim_iff, ← joinRuns_blank_iff, tagOfName?]
  simp [trimmed_eq_nil_iff]

theorem settled_of_tagOfName? (h : tagOfName? name = some tag) :
    isTag tag.toList = true ∧ lower tag.toList = tag.toList ∧ Trimmed (· == '_') tag.toList := by
  have hchars := isTagChar_tagOfName? h
  have hne : tag.toList ≠ [] := by
    intro hnil
    exact tagOfName?_ne name (String.toList_eq_nil_iff.1 hnil ▸ h)
  refine ⟨isTag_iff.2 ⟨hne, hchars⟩, ?_⟩
  unfold tagOfName? at h
  dsimp only at h
  split at h
  · cases h
  · cases Option.some.inj h
    rw [String.toList_ofList]
    refine ⟨lower_eq_self fun c hc => ?_, trimmed_trimmed _ _⟩
    rcases mem_of_mem_joinRuns (mem_of_mem_trimmed hc) with hlower | rfl
    · exact lowerChar_of_mem_lower hlower
    · decide

theorem splitTags_names {text : List Char} {names : List String} (htext : Trimmed isBlank text)
    (hsome : ∃ name ∈ names, tagOfName? name ≠ none) :
    splitTags (text ++ (tagSuffix (names.map tagOfName?)).toList) =
      (text, (names.filterMap tagOfName?).eraseDups.map String.toList) := by
  have hchars : ∀ t, some t ∈ names.map tagOfName? → ∀ c ∈ t.toList, isTagChar c = true := by
    intro t ht
    obtain ⟨name, -, hname⟩ := List.mem_map.1 ht
    exact isTagChar_tagOfName? hname
  have hempty : some "" ∉ names.map tagOfName? := by
    intro hmem
    obtain ⟨name, -, hname⟩ := List.mem_map.1 hmem
    exact tagOfName?_ne name hname
  have hwritten : writtenTags (names.map tagOfName?) = (names.filterMap tagOfName?).eraseDups := by
    rw [Outline.writtenTags_eq hempty, List.filterMap_map, Function.id_comp]
  have hne : writtenTags (names.map tagOfName?) ≠ [] := by
    obtain ⟨name, hname, hmade⟩ := hsome
    obtain ⟨t, ht⟩ := Option.ne_none_iff_exists'.1 hmade
    have hmem : some t ∈ names.map tagOfName? := List.mem_map.2 ⟨name, hname, ht⟩
    exact List.ne_nil_of_mem (Outline.mem_writtenTags.2 ⟨hmem, fun hnil => hempty (hnil ▸ hmem)⟩)
  have hread := Outline.splitTags_tagSuffix htext (fun hnil => absurd hnil hne)
    (Outline.isTag_writtenTags hchars) (Outline.nodup_writtenTags _)
  rwa [Outline.tagSuffix_writtenTags, hwritten] at hread

/-- A name is made into no tag if only underscores are left of it, and else into a tag that is its own name.
Written behind a text, such tags are read as they are. -/
theorem tags_of_names_settle :
    (∀ name : String,
      (tagOfName? name = none ↔ ∀ c ∈ lower name.toList, isTagChar c = true → c = '_') ∧
      ∀ tag, tagOfName? name = some tag →
        isTag tag.toList = true ∧ Trimmed (· == '_') tag.toList ∧
        (∀ c ∈ tag.toList, c ≠ ',' ∧ c ≠ '/' ∧ c ≠ ':' ∧ isBlank c = false) ∧
        tagOfName? tag = some tag) ∧
    ∀ (text : String) (names : List String), trimString text = text →
      (∃ name ∈ names, tagOfName? name ≠ none) →
      splitTags (text ++ tagSuffix (names.map tagOfName?)).toList =
        (text.toList, (names.filterMap tagOfName?).eraseDups.map String.toList) := by
  refine ⟨fun name => ⟨tagOfName?_eq_none_iff, fun tag htag => ?_⟩, fun text names htext hsome => ?_⟩
  · obtain ⟨hisTag, hlower, htrimmed⟩ := settled_of_tagOfName? htag
    refine ⟨hisTag, htrimmed, fun c hc => ?_, tagOfName?_eq_some hisTag hlower htrimmed⟩
    have hchar := (isTag_iff.1 hisTag).2 c hc
    exact ⟨ne_of_isTagChar hchar (by decide), ne_of_isTagChar hchar (by decide),
      ne_of_isTagChar hchar (by decide), isBlank_of_isTagChar hchar⟩
  · rw [String.toList_append]
    exact splitTags_names (htext ▸ trimmed_trimString text) hsome

theorem tags_of_names_settle_of_repeated :
    splitTags ("A :b:" ++ tagSuffix
        (["Tech & News", "--", " ÜBER/ΣΟΦΟΣ ", "_tech@news_", "TECH news"].map tagOfName?)).toList =
      ("A :b:".toList, ["tech_news", "über_σοφος", "tech@news"].map String.toList) := by
  have hread := tags_of_names_settle.2 "A :b:"
    ["Tech & News", "--", " ÜBER/ΣΟΦΟΣ ", "_tech@news_", "TECH news"] (by decide)
    ⟨"Tech & News", by decide, by decide +kernel⟩
  have htags : ["Tech & News", "--", " ÜBER/ΣΟΦΟΣ ", "_tech@news_", "TECH news"].filterMap tagOfName? =
      ["tech_news", "über_σοφος", "tech@news", "tech_news"] := by
    decide +kernel
  rw [htags] at hread
  exact hread

end FeedOutline.Opml
