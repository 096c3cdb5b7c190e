import FeedOutline.Proofs.Compile.Sources
import FeedOutline.Proofs.Entry

/-!
Compilations of several documents. What an entry is tagged with depends on which documents there are and
not on their order; the feeds come in the order in which the documents name them first.
-/
namespace FeedOutline

open Disk (FileTree)
open Text (encodeUtf8)

namespace Selection

variable {s : Selection} {texts texts' : List String} {e : Entry} {tag : String}

/-! Tags. -/

theorem selects_iff {h : Outline.Node} {tags : List String} :
    s.Selects texts h tags ↔ ∃ text ∈ texts, s.Selects [text] h tags := by
  simp [Selects]

/-- Every document adds its own tags, whatever stands beside it. -/
theorem gains_compileTexts_iff (texts : List String) :
    e.Gains (s.compileTexts texts) tag ↔ ∃ text ∈ texts, e.Gains (s.compileTexts [text]) tag := by
  simp only [Entry.Gains, mem_keywordRules_iff, mem_subscriptionRules_iff]
  constructor
  · rintro (⟨r, ⟨h, tags, hselects, hrule⟩, hgains⟩ | ⟨r, ⟨h, tags, hselects, hrule⟩, hgains⟩)
    · obtain ⟨text, htext, hselects⟩ := selects_iff.1 hselects
      exact ⟨text, htext, .inl ⟨r, ⟨h, tags, hselects, hrule⟩, hgains⟩⟩
    · obtain ⟨text, htext, hselects⟩ := selects_iff.1 hselects
      exact ⟨text, htext, .inr ⟨r, ⟨h, tags, hselects, hrule⟩, hgains⟩⟩
  · rintro ⟨text, htext, ⟨r, ⟨h, tags, hselects, hrule⟩, hgains⟩ | ⟨r, ⟨h, tags, hselects, hrule⟩, hgains⟩⟩
    · exact .inl ⟨r, ⟨h, tags, selects_iff.2 ⟨text, htext, hselects⟩, hrule⟩, hgains⟩
    · exact .inr ⟨r, ⟨h, tags, selects_iff.2 ⟨text, htext, hselects⟩, hrule⟩, hgains⟩

theorem tags_apply_append (s : Selection) (e : Entry) (texts texts' : List String) :
    (e.apply (s.compileTexts (texts ++ texts'))).entry.tags =
      (e.apply (s.compileTexts texts)).entry.tags.union (e.apply (s.compileTexts texts')).entry.tags := by
  refine TagSet.ext fun tag => ?_
  rw [TagSet.mem_union, Entry.mem_tags_apply, Entry.mem_tags_apply, Entry.mem_tags_apply,
    gains_compileTexts_iff (texts ++ texts'), gains_compileTexts_iff texts, gains_compileTexts_iff texts']
  simp only [List.mem_append, or_and_right, exists_or]
  exact or_or_distrib_left

theorem tags_apply_congr (s : Selection) (e : Entry) (h : ∀ text, text ∈ texts ↔ text ∈ texts') :
    (e.apply (s.compileTexts texts)).entry.tags = (e.apply (s.compileTexts texts')).entry.tags := by
  refine TagSet.ext fun tag => ?_
  rw [Entry.mem_tags_apply, Entry.mem_tags_apply, gains_compileTexts_iff texts,
    gains_compileTexts_iff texts']
  simp only [h]

/-! Feeds. -/

def flatEntries (s : Selection) (text : String) : List FlatEntry :=
  ((s.treesOf text).flatMap flatten).map (·.withoutTag s.marker)

/-- It is enough to leave out repetitions at the end. -/
theorem entriesOf_treesOf (s : Selection) (texts : List String) :
    s.entriesOf (texts.flatMap s.treesOf) = (texts.flatMap s.flatEntries).eraseDups := by
  unfold entriesOf dedupe cleanup flattenAll dedupe
  rw [eraseDups_map_eraseDups, List.flatMap_assoc, List.map_flatMap]
  rfl

def feedsOf (s : Selection) (text : String) : List String :=
  (s.flatEntries text).filterMap fun e => (s.subscriptionRule? e).map (·.feedUrl)

theorem feedUrls_compileTexts (s : Selection) (texts : List String) :
    (s.compileTexts texts).feedUrls = (texts.flatMap s.feedsOf).eraseDups := by
  rw [RuleTable.feedUrls_eq, urlsOf, compileTexts, subscriptionRules_tableOf, List.map_filterMap,
    entriesOf_treesOf, eraseDups_filterMap_eraseDups, List.filterMap_flatMap]
  rfl

theorem feedUrls_append (s : Selection) (texts texts' : List String) :
    (s.compileTexts (texts ++ texts')).feedUrls =
      (s.compileTexts texts).feedUrls ++
        (s.compileTexts texts').feedUrls.filter (!(s.compileTexts texts).feedUrls.contains ·) := by
  simp only [feedUrls_compileTexts, List.flatMap_append]
  exact eraseDups_append_eq _ _

end Selection

namespace Compile

def Readable (env : Environment) (files : FileTree) (document : String) : Prop :=
  ∃ text, Holds env files document text

variable {env : Environment} {files : FileTree} {documents documents' texts texts' : List String}

theorem Holds.unique {document text text' : String} (h : Holds env files document text)
    (h' : Holds env files document text') : text = text' := by
  obtain ⟨p, hp, hread⟩ := h
  obtain ⟨p', hp', hread'⟩ := h'
  have hpath : p = p' := Except.ok.inj (hp.symm.trans hp')
  subst hpath
  exact Except.ok.inj (hread.symm.trans hread')

theorem exists_texts (h : ∀ d ∈ documents, Readable env files d) :
    ∃ texts, List.Forall₂ (Holds env files) documents texts := by
  induction documents with
  | nil => exact ⟨[], .nil⟩
  | cons d documents ih =>
    rw [List.forall_mem_cons] at h
    obtain ⟨text, htext⟩ := h.1
    obtain ⟨texts, htexts⟩ := ih h.2
    exact ⟨text :: texts, .cons htext htexts⟩

theorem mem_texts_iff (h : List.Forall₂ (Holds env files) documents texts) {text : String} :
    text ∈ texts ↔ ∃ d ∈ documents, Holds env files d text := by
  induction h with
  | nil => simp
  | cons hd _ ih =>
    simp only [List.mem_cons, ih, exists_eq_or_imp]
    exact or_congr_left ⟨fun heq => heq ▸ hd, fun htext => htext.unique hd⟩

/-- The documents of two lists give the tags of the one and of the other, the same documents in another
order or more than once give the same tags, and the feeds of the second list come behind those of the
first. -/
theorem table_append (s : Selection) (h : ∀ d ∈ documents ++ documents', Readable env files d) :
    ∃ t t' both, table s env files documents = .ok t ∧ table s env files documents' = .ok t' ∧
      table s env files (documents ++ documents') = .ok both ∧
      (∀ e : Entry, (e.apply both).entry.tags = (e.apply t).entry.tags.union (e.apply t').entry.tags) ∧
      (∀ others, (∀ d, d ∈ others ↔ d ∈ documents) → ∃ other, table s env files others = .ok other ∧
        ∀ e : Entry, (e.apply other).entry.tags = (e.apply t).entry.tags) ∧
      both.feedUrls = t.feedUrls ++ t'.feedUrls.filter (!t.feedUrls.contains ·) := by
  rw [List.forall_mem_append] at h
  obtain ⟨texts, htexts⟩ := exists_texts h.1
  obtain ⟨texts', htexts'⟩ := exists_texts h.2
  refine ⟨_, _, _, table_eq s htexts, table_eq s htexts', table_eq s (List.rel_append htexts htexts'),
    fun e => s.tags_apply_append e _ _, ?_, s.feedUrls_append _ _⟩
  intro others hothers
  obtain ⟨textsO, htextsO⟩ := exists_texts fun d hd => h.1 d ((hothers d).1 hd)
  refine ⟨_, table_eq s htextsO, fun e => s.tags_apply_congr e fun text => ?_⟩
  rw [mem_texts_iff htextsO, mem_texts_iff htexts]
  simp only [hothers]

/-- Two documents that name one feed with different tags, and the second of them read before the first
and once more. -/
theorem table_append_of_shared :
    let first := "* A :elfeed:\n** http://x.example :x:\n** http://y.example\n"
    let second := "* B :elfeed:b:\n** http://z.example\n** http://x.example\n*** http://y.example\n"
    let files : FileTree := { entries := [(["a.org"], .file (encodeUtf8 first)), (["b.org"], .file (encodeUtf8 second))] }
    let s : Selection := {}
    (∀ d ∈ ["a.org", "b.org"] ++ ["b.org"], Readable {} files d) ∧
      ∃ t t' both, table s {} files ["a.org", "b.org"] = .ok t ∧ table s {} files ["b.org"] = .ok t' ∧
        table s {} files (["a.org", "b.org"] ++ ["b.org"]) = .ok both ∧
        (∀ e : Entry,
          (e.apply both).entry.tags = (e.apply t).entry.tags.union (e.apply t').entry.tags) ∧
        (∃ other, table s {} files ["b.org", "a.org", "b.org"] = .ok other ∧
          ∀ e : Entry, (e.apply other).entry.tags = (e.apply t).entry.tags) ∧
        both.feedUrls = t.feedUrls ++ t'.feedUrls.filter (!t.feedUrls.contains ·) ∧
        t.feedUrls = ["http://x.example", "http://y.example", "http://z.example"] ∧
        t'.feedUrls = ["http://z.example", "http://x.example", "http://y.example"] := by
  intro first second files s
  have ha : Holds {} files "a.org" first := ⟨_, rfl, by decide +kernel⟩
  have hb : Holds {} files "b.org" second := ⟨_, rfl, by decide +kernel⟩
  have hreadable : ∀ d ∈ ["a.org", "b.org"] ++ ["b.org"], Readable {} files d := by
    simp only [List.cons_append, List.nil_append, List.forall_mem_cons]
    exact ⟨⟨first, ha⟩, ⟨second, hb⟩, ⟨second, hb⟩, by simp⟩
  obtain ⟨t, t', both, ht, ht', hboth, htags, hothers, hurls⟩ := table_append s hreadable
  refine ⟨hreadable, t, t', both, ht, ht', hboth, htags, hothers _ (by simp [or_comm]), hurls, ?_, ?_⟩
  · rw [Except.ok.inj (ht.symm.trans (table_eq s (.cons ha (.cons hb .nil))))]
    decide +kernel
  · rw [Except.ok.inj (ht'.symm.trans (table_eq s (.cons hb .nil)))]
    decide +kernel

end Compile

end FeedOutline
