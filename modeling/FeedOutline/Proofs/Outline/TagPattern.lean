import FeedOutline.Proofs.Classified.Shape
import FeedOutline.Proofs.Outline.Annotation
import FeedOutline.Proofs.Text.Pattern

/-!
The annotation of a heading as a regular expression. However it is matched, the tags are those of the last
word, and the text is what stands before that word.
-/
namespace FeedOutline.Outline

open Text
open Text.Pattern
open scoped Computability

/-- `:(?:[\w@#%]+:)+`, the tags between their colons. -/
def groupPattern : Pattern :=
  .seq (.char (· == ':')) (.plus (.seq (.plus (.char isTagChar)) (.char (· == ':'))))

/-- `(?:^|[ \t]+)`, what stands before the tags. -/
def gapPattern : Pattern :=
  .either .start (.plus (.char isGap))

/-- `^(?P<text>.*?)(?:^|[ \t]+)(?P<tags>:(?:[\w@#%]+:)+)$`, a text and the tags behind it. -/
def tagPattern : Pattern :=
  .seq .start (.seq (.group "text" (.repeated true (.char (· != '\n'))))
    (.seq gapPattern (.seq (.group "tags" groupPattern) .finish)))

def splitByPattern (s : List Char) : List Char × List (List Char) :=
  match tagPattern.first? s with
  | some m => (trim (m.group "text"), ((splitOn ':' (m.group "tags")).filter (!·.isEmpty)).eraseDups)
  | none => (s, [])

variable {s text gaps word : List Char} {names : List String} {u v m : Place}

/-! The groups of tags are the words that the expression for them takes. -/

def closedTags : Language Char :=
  (letters isTagChar * (letters isTagChar)∗) * letters (· == ':')

theorem mem_closedTags :
    word ∈ closedTags ↔ ∃ t : String, isTag t.toList = true ∧ word = t.toList ++ [':'] := by
  rw [closedTags, Language.mem_mul]
  constructor
  · rintro ⟨tag, htag, _, ⟨c, hc, rfl⟩, rfl⟩
    refine ⟨String.ofList tag, ?_, ?_⟩
    · rw [String.toList_ofList]
      exact isTag_iff.2 (mem_plus_letters.1 htag)
    · rw [String.toList_ofList, eq_of_beq hc]
  · rintro ⟨t, ht, rfl⟩
    exact ⟨t.toList, mem_plus_letters.2 (isTag_iff.1 ht), [':'], ⟨':', rfl, rfl⟩, rfl⟩

theorem mem_kstar_closedTags : word ∈ closedTags∗ ↔
    ∃ names : List String, (∀ t ∈ names, isTag t.toList = true) ∧
      word = names.flatMap fun t => t.toList ++ [':'] := by
  rw [Language.mem_kstar]
  constructor
  · rintro ⟨words, rfl, hwords⟩
    induction words with
    | nil => exact ⟨[], by simp, rfl⟩
    | cons w words ih =>
      rw [List.forall_mem_cons] at hwords
      obtain ⟨t, ht, rfl⟩ := mem_closedTags.1 hwords.1
      obtain ⟨names, hnames, hrest⟩ := ih hwords.2
      exact ⟨t :: names, List.forall_mem_cons.2 ⟨ht, hnames⟩,
        by rw [List.flatten_cons, hrest, List.flatMap_cons]⟩
  · rintro ⟨names, hnames, rfl⟩
    refine ⟨names.map fun t => t.toList ++ [':'], by rw [List.flatMap_def], ?_⟩
    rintro _ hw
    obtain ⟨t, ht, rfl⟩ := List.mem_map.1 hw
    exact mem_closedTags.2 ⟨t, hnames t ht, rfl⟩

theorem mem_tagGroups :
    word ∈ letters (· == ':') * (closedTags * closedTags∗) ↔ ∃ names, IsTagGroup names word := by
  rw [Language.mem_mul]
  constructor
  · rintro ⟨_, ⟨c, hc, rfl⟩, rest, hrest, rfl⟩
    obtain ⟨first, hfirst, more, hmore, rfl⟩ := Language.mem_mul.1 hrest
    obtain ⟨t, ht, rfl⟩ := mem_closedTags.1 hfirst
    obtain ⟨names, hnames, rfl⟩ := mem_kstar_closedTags.1 hmore
    exact ⟨t :: names, by simp, List.forall_mem_cons.2 ⟨ht, hnames⟩, by rw [eq_of_beq hc]; rfl⟩
  · rintro ⟨names, hne, hnames, rfl⟩
    cases names with
    | nil => exact absurd rfl hne
    | cons t names =>
      rw [List.forall_mem_cons] at hnames
      refine ⟨[':'], ⟨':', rfl, rfl⟩, _, Language.append_mem_mul ?_ ?_, rfl⟩
      · exact mem_closedTags.2 ⟨t, hnames.1, rfl⟩
      · exact mem_kstar_closedTags.2 ⟨names, hnames.2, rfl⟩

theorem reads_groupPattern :
    groupPattern.Reads (letters (· == ':') * (closedTags * closedTags∗)) :=
  (reads_char _).seq (((reads_char isTagChar).plus.seq (reads_char _)).plus)

/-! The matches. -/

theorem mem_tries_gapPattern :
    v ∈ gapPattern.tries u ↔ ∃ gaps rest, (∀ c ∈ gaps, isGap c = true) ∧
      (gaps = [] → u.passed = []) ∧ u.ahead = gaps ++ rest ∧ v = u.behind gaps rest := by
  rw [gapPattern, mem_either, mem_start, (reads_char isGap).plus]
  constructor
  · rintro (⟨hpassed, rfl⟩ | ⟨gaps, hgaps, rest, hahead, rfl⟩)
    · exact ⟨[], v.ahead, by simp, fun _ => hpassed, rfl, rfl⟩
    · obtain ⟨hne, hall⟩ := mem_plus_letters.1 hgaps
      exact ⟨gaps, rest, hall, fun hnil => absurd hnil hne, hahead, rfl⟩
  · rintro ⟨gaps, rest, hall, hstart, hahead, rfl⟩
    by_cases hgaps : gaps = []
    · subst hgaps
      rw [List.nil_append] at hahead
      exact .inl ⟨hstart rfl, by rw [← hahead]; rfl⟩
    · exact .inr ⟨gaps, mem_plus_letters.2 ⟨hgaps, hall⟩, rest, hahead, rfl⟩

theorem mem_tries_groupPattern (hline : '\n' ∉ u.ahead) :
    v ∈ (Pattern.seq (.group "tags" groupPattern) .finish).tries u ↔
      (∃ names, IsTagGroup names u.ahead) ∧
        v = ⟨u.ahead.reverse ++ u.passed, [], ("tags", u.ahead) :: u.groups⟩ := by
  simp only [mem_seq, mem_finish, reads_groupPattern.mem_group, mem_tagGroups]
  constructor
  · rintro ⟨_, ⟨word, hword, rest, hahead, rfl⟩, hend, rfl⟩
    have hrest : rest = [] := by
      refine hend.resolve_right fun (hbreak : rest = ['\n']) => hline ?_
      rw [hahead, hbreak]
      exact List.mem_append_right word (List.mem_singleton_self _)
    rw [hrest, List.append_nil] at hahead
    rw [hahead]
    exact ⟨hword, by rw [hrest]⟩
  · rintro ⟨hword, rfl⟩
    exact ⟨_, ⟨u.ahead, hword, [], by simp, rfl⟩, .inl rfl, rfl⟩

/-- A heading taken apart: a text, a gap behind it unless it is empty, and a group of tags. -/
structure Parts (s text gaps word : List Char) : Prop where
  eq : s = text ++ (gaps ++ word)
  gap : ∀ c ∈ gaps, isGap c = true
  alone : gaps = [] → text = []
  group : ∃ names, IsTagGroup names word

/-- The ways to match are the ways to take the heading apart. -/
theorem mem_tries_tagPattern (hline : '\n' ∉ s) : m ∈ tagPattern.tries ⟨[], s, []⟩ ↔
    ∃ text gaps word, Parts s text gaps word ∧
      m = ⟨s.reverse, [], [("tags", word), ("text", text)]⟩ := by
  have hchars {text rest : List Char} (heq : s = text ++ rest) : ∀ c ∈ text, (c != '\n') = true := by
    intro c hc
    rw [bne_iff_ne]
    rintro rfl
    exact hline (heq ▸ List.mem_append_left rest hc)
  have hword {text gaps word : List Char} (heq : s = text ++ (gaps ++ word)) : '\n' ∉ word :=
    fun hmem => hline (by simp [heq, hmem])
  have hread := (reads_char (· != '\n')).repeated true
  constructor
  · intro hm
    obtain ⟨_, hstart, hm⟩ := mem_seq.1 hm
    obtain ⟨-, rfl⟩ := mem_start.1 hstart
    obtain ⟨_, htext, hm⟩ := mem_seq.1 hm
    obtain ⟨text, -, rest, heq, rfl⟩ := (hread.mem_group "text").1 htext
    obtain ⟨_, hbetween, hm⟩ := mem_seq.1 hm
    obtain ⟨gaps, word, hgap, halone, hrest, rfl⟩ := mem_tries_gapPattern.1 hbetween
    have hs : s = text ++ (gaps ++ word) := heq.trans (congrArg _ hrest)
    obtain ⟨hgroup, rfl⟩ := (mem_tries_groupPattern (hword hs)).1 hm
    refine ⟨text, gaps, word, ⟨hs, hgap, fun hnil => ?_, hgroup⟩, ?_⟩
    · simpa using halone hnil
    · simp [Place.behind, hs]
  · rintro ⟨text, gaps, word, h, rfl⟩
    refine mem_seq.2 ⟨_, mem_start.2 ⟨rfl, rfl⟩, mem_seq.2 ⟨_, (hread.mem_group "text").2
      ⟨text, mem_kstar_letters.2 (hchars h.eq), gaps ++ word, h.eq, rfl⟩, mem_seq.2 ⟨_,
      mem_tries_gapPattern.2 ⟨gaps, word, h.gap, fun hnil => ?_, rfl, rfl⟩,
      (mem_tries_groupPattern (hword h.eq)).2 ⟨h.group, ?_⟩⟩⟩⟩
    · rw [h.alone hnil]
      rfl
    · simp [Place.behind, h.eq]

theorem Parts.lastWord (h : Parts s text gaps word) :
    lastWord s = word ∧ beforeLastWord s = text ++ gaps := by
  obtain ⟨names, hgroup⟩ := h.group
  have hlast : ∀ c ∈ (text ++ gaps).getLast?, isGap c = true := by
    intro c hc
    by_cases hgaps : gaps = []
    · rw [h.alone hgaps, hgaps] at hc
      cases hc
    · rw [List.getLast?_append_of_ne_nil _ hgaps] at hc
      exact h.gap c (List.mem_of_getLast? hc)
  rw [h.eq, ← List.append_assoc]
  exact lastWord_of_getLast? hgroup.no_gap hlast

theorem exists_parts (h : ∃ names, IsTagGroup names (lastWord s)) :
    ∃ text gaps, Parts s text gaps (lastWord s) := by
  have heq := (beforeLastWord_append_lastWord s).symm
  rcases List.eq_nil_or_concat (beforeLastWord s) with hbefore | ⟨front, gap, hbefore⟩
  · rw [hbefore] at heq
    exact ⟨[], [], heq, by simp, fun _ => rfl, h⟩
  · rw [List.concat_eq_append] at hbefore
    rw [hbefore, List.append_assoc] at heq
    have hgap : isGap gap = true := getLast?_beforeLastWord s gap (by simp [hbefore])
    exact ⟨front, [gap], heq, by simpa using hgap, by simp, h⟩

/-! What the match tells. -/

theorem filter_splitOn (h : IsTagGroup names word) :
    (splitOn ':' word).filter (!·.isEmpty) = names.map String.toList := by
  have hcolon : ∀ t ∈ names, ∀ c ∈ t.toList, (c == ':') = false := by
    intro t ht c hc
    simpa using ne_of_isTagChar ((isTag_iff.1 (h.isTag t ht)).2 c hc) (by decide)
  have hfull : (names.map String.toList).filter (!·.isEmpty) = names.map String.toList := by
    rw [List.filter_eq_self]
    rintro _ hmem
    obtain ⟨t, ht, rfl⟩ := List.mem_map.1 hmem
    simpa using (isTag_iff.1 (h.isTag t ht)).1
  have hsplit : splitOn ':' word = [] :: (names.map String.toList ++ [[]]) := by
    rw [h.word_eq, splitOn, splitWhere, if_pos (by decide), splitWhere_closed hcolon (by decide)]
  rw [hsplit, List.filter_cons_of_neg (by simp), List.filter_append, hfull]
  simp

theorem splitByPattern_eq (hline : '\n' ∉ s) : splitByPattern s = splitTags s := by
  unfold splitByPattern
  cases hfirst : tagPattern.first? s with
  | none =>
    have hnone : tagPattern.tries ⟨[], s, []⟩ = [] := List.head?_eq_none_iff.1 hfirst
    refine (splitTags_none (tagGroup?_eq_none_iff.2 fun hgroup => ?_)).symm
    obtain ⟨text, gaps, hparts⟩ := exists_parts hgroup
    have hmem := (mem_tries_tagPattern hline).2 ⟨text, gaps, _, hparts, rfl⟩
    rw [hnone] at hmem
    cases hmem
  | some m =>
    obtain ⟨text, gaps, word, hparts, rfl⟩ :=
      (mem_tries_tagPattern hline).1 (List.mem_of_mem_head? hfirst)
    obtain ⟨names, hgroup⟩ := hparts.group
    have htags : tagGroup? word = some (names.map String.toList) :=
      tagGroup?_eq_some_iff.2 ⟨names, hgroup, rfl⟩
    have htrim : trim (text ++ gaps) = trim text :=
      trimmed_append_right fun c hc => isBlank_of_isGap (hparts.gap c hc)
    rw [splitTags, hparts.lastWord.1, hparts.lastWord.2, htags]
    simp only [htrim]
    refine Prod.ext rfl ?_
    exact congrArg List.eraseDups (filter_splitOn hgroup)

/-- The expression for annotations takes the last word for tags exactly if it is a colon and tags with a
colon behind each. A colon behind a keyword, or within a word that begins otherwise, belongs to the text. -/
theorem annotation_recognised (hbreak : ∀ c ∈ s, isBreak c = false) :
    splitByPattern s = splitTags s ∧
      (∃ before word, IsLastWord s before word ∧
        (∀ names, IsTagGroup names word →
          splitTags s = (trim before, names.eraseDups.map String.toList)) ∧
        ((¬ ∃ names, IsTagGroup names word) → splitTags s = (s, [])) ∧
        (word.head? ≠ some ':' → splitTags s = (s, []))) ∧
      ∀ k : Keyword, k.start <+: s → k.start <+: (splitTags s).1 := by
  have hline : '\n' ∉ s := fun hmem => by simpa [isBreak] using hbreak _ hmem
  have hnone (h : ¬ ∃ names, IsTagGroup names (lastWord s)) : splitTags s = (s, []) :=
    splitTags_none (tagGroup?_eq_none_iff.2 h)
  refine ⟨splitByPattern_eq hline, ⟨_, _, isLastWord_lastWord s, ?_, hnone, ?_⟩, ?_⟩
  · intro names hgroup
    rw [splitTags, tagGroup?_eq_some_iff.2 ⟨names, hgroup, rfl⟩,
      ← eraseDups_map fun _ _ => String.toList_injective]
  · intro hhead
    refine hnone ?_
    rintro ⟨names, hgroup⟩
    exact hhead hgroup.head?
  · intro k hk
    have hcolon : k.start.head? ≠ some ':' := by cases k <;> decide
    have hblank : ∀ c ∈ k.start, isBlank c = false := by cases k <;> decide
    exact prefix_splitTags (by simp [Keyword.start_eq]) hcolon hblank hk

theorem annotation_recognised_of_keyword :
    splitByPattern "entry-title: a:b: \t:x:é@:x:".toList =
        ("entry-title: a:b:".toList, ["x".toList, "é@".toList]) ∧
      Keyword.entryTitle.start <+: (splitTags "entry-title: a:b: \t:x:é@:x:".toList).1 :=
  have h := annotation_recognised (s := "entry-title: a:b: \t:x:é@:x:".toList) (by decide)
  ⟨h.1.trans (by decide +kernel), h.2.2 .entryTitle (by decide)⟩

example : splitByPattern "News :no-feed:".toList = ("News :no-feed:".toList, []) := by decide +kernel

end FeedOutline.Outline
