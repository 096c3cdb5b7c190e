import FeedOutline.Proofs.Entry
import FeedOutline.Proofs.Text.Search
import Mathlib.Tactic.MkIffOfInductiveProp

/-!
What a table does to an entry, told without the order of its rules. The entry gets the tags of every rule that
fits it, exactly those that it lacked are reported, and when the table is applied again nothing is new.
-/
namespace FeedOutline.Entry

open Text

@[mk_iff] inductive HasValue (e : Entry) : Keyword → String → Prop
  | feedTitle {v} : e.feedTitle = some v → HasValue e .feedTitle v
  | feedUrl : HasValue e .feedUrl e.feedUrl
  | feedAuthor {v} : v ∈ e.feedAuthors → HasValue e .feedAuthor v
  | entryTitle {v} : e.title = some v → HasValue e .entryTitle v
  | entryLink {v} : e.link = some v → HasValue e .entryLink v
  | entryContentType {v} : e.contentType = some v → HasValue e .entryContentType v
  | entryEnclosure {v} : v ∈ e.enclosures → HasValue e .entryEnclosure v

/-- The rule's text stands at the start of a value, or anywhere in the name of an author or the address of an
enclosure. -/
def Fits (e : Entry) (r : KeywordRule) : Prop :=
  ∃ v, e.HasValue r.field v ∧ v ≠ "" ∧
    if r.field = .feedAuthor ∨ r.field = .entryEnclosure then r.value.toList <:+: v.toList
    else r.value.toList <+: v.toList

variable {e : Entry} {t t' : RuleTable} {tag : String}

theorem mem_valuesFor {k : Keyword} {v : String} : v ∈ e.valuesFor k ↔ e.HasValue k v ∧ v ≠ "" := by
  cases k <;> simp [valuesFor, hasValue_iff]

theorem isMultiValued_iff {k : Keyword} : k.isMultiValued = true ↔ k = .feedAuthor ∨ k = .entryEnclosure := by
  cases k <;> simp [Keyword.isMultiValued]

theorem matchesRule_iff {r : KeywordRule} : e.matchesRule r = true ↔ e.Fits r := by
  unfold matchesRule Fits
  by_cases hfield : r.field = .feedAuthor ∨ r.field = .entryEnclosure
  · rw [if_pos (isMultiValued_iff.2 hfield)]
    simp [hfield, mem_valuesFor, containsString_iff, and_assoc]
  · rw [if_neg (mt isMultiValued_iff.1 hfield)]
    simp [hfield, mem_valuesFor, startsWith, and_assoc]

theorem gains_iff : e.Gains t tag ↔
    (∃ r ∈ t.keywordRules, e.Fits r ∧ tag ∈ r.addTags) ∨
      ∃ r ∈ t.subscriptionRules, r.feedUrl = e.feedUrl ∧ tag ∈ r.addTags := by
  simp only [Gains, matchesRule_iff]

/-! What is reported. -/

/-- In the course of tagging nothing is lost, and what is reported is what the entry did not have at the
start. -/
structure Tagging.Counts (g : Tagging) (start : Entry) : Prop where
  kept : ∀ tag ∈ start.tags, tag ∈ g.entry.tags
  mem_added : ∀ tag, tag ∈ g.added ↔ tag ∈ g.entry.tags ∧ tag ∉ start.tags

namespace Tagging.Counts

variable {g : Tagging} {start : Entry}

theorem refl (e : Entry) : (Tagging.mk e .empty).Counts e :=
  ⟨fun _ h => h, fun tag => by simp⟩

theorem add (h : g.Counts start) (tags : TagSet) : (g.add tags).Counts start := by
  constructor
  · intro tag htag
    exact TagSet.mem_union.2 (.inl (h.kept tag htag))
  · intro tag
    have hkept := h.kept tag
    simp only [Tagging.add, TagSet.mem_union, TagSet.mem_diff, h.mem_added]
    tauto

theorem foldl_keyword (h : g.Counts start) (rs : List KeywordRule) :
    (rs.foldl (fun g r => if g.entry.matchesRule r then g.add r.addTags else g) g).Counts start := by
  induction rs generalizing g with
  | nil => exact h
  | cons r rs ih =>
    rw [List.foldl_cons]
    split
    · exact ih (h.add r.addTags)
    · exact ih h

theorem foldl_subscription (h : g.Counts start) (rs : List SubscriptionRule) :
    (rs.foldl (fun g r => g.add r.addTags) g).Counts start := by
  induction rs generalizing g with
  | nil => exact h
  | cons r rs ih => exact ih (h.add r.addTags)

theorem apply (e : Entry) (t : RuleTable) : (e.apply t).Counts e :=
  ((refl e).foldl_keyword t.keywordRules).foldl_subscription (t.subscriptionsFor e.feedUrl)

end Tagging.Counts

/-! One table. -/

theorem entry_apply (e : Entry) (t : RuleTable) :
    (e.apply t).entry = { e with tags := (e.apply t).entry.tags } := by
  obtain ⟨tags, htags⟩ := ((TaggedFrom.refl e).apply t).entry_eq
  rw [htags]

theorem mem_added_apply : tag ∈ (e.apply t).added ↔ e.Gains t tag ∧ tag ∉ e.tags := by
  rw [(Tagging.Counts.apply e t).mem_added, mem_tags_apply]
  tauto

theorem apply_congr (h : ∀ tag, e.Gains t tag ↔ e.Gains t' tag) : e.apply t = e.apply t' := by
  have htags : (e.apply t).entry.tags = (e.apply t').entry.tags := by
    apply TagSet.ext
    intro tag
    rw [mem_tags_apply, mem_tags_apply, h]
  have hentry : (e.apply t).entry = (e.apply t').entry := by
    rw [entry_apply, htags, ← entry_apply]
  have hadded : (e.apply t).added = (e.apply t').added := by
    apply TagSet.ext
    intro tag
    rw [mem_added_apply, mem_added_apply, h]
  exact congrArg₂ Tagging.mk hentry hadded

theorem added_apply_apply (e : Entry) (t : RuleTable) : ((e.apply t).entry.apply t).added = .empty := by
  apply TagSet.ext
  intro tag
  have hagain : (e.apply t).entry.Gains t tag ↔ e.Gains t tag := by
    rw [entry_apply]
    rfl
  rw [mem_added_apply, mem_tags_apply, hagain]
  simp +contextual

/-! Several tables. -/

def applyAll (e : Entry) (ts : List RuleTable) : Entry :=
  ts.foldl (fun e t => (e.apply t).entry) e

theorem taggedFrom_applyAll {start : Entry} {gained : String → Prop} (h : e.TaggedFrom start gained)
    (ts : List RuleTable) :
    (e.applyAll ts).TaggedFrom start fun tag => gained tag ∨ ∃ t ∈ ts, start.Gains t tag := by
  induction ts generalizing e gained with
  | nil => exact h.congr fun tag => by simp
  | cons t ts ih => exact (ih (h.apply t)).congr fun tag => by simp [or_assoc]

theorem applyAll_congr {ts ts' : List RuleTable} (h : ∀ t, t ∈ ts ↔ t ∈ ts') :
    e.applyAll ts = e.applyAll ts' := by
  have hfirst := taggedFrom_applyAll (.refl e) ts
  have hsecond := taggedFrom_applyAll (.refl e) ts'
  have htags : (e.applyAll ts).tags = (e.applyAll ts').tags := by
    apply TagSet.ext
    intro tag
    rw [hfirst.mem_tags, hsecond.mem_tags]
    simp only [h]
  obtain ⟨tags, heq⟩ := hfirst.entry_eq
  obtain ⟨tags', heq'⟩ := hsecond.entry_eq
  rw [heq, heq'] at htags ⊢
  rw [show tags = tags' from htags]

/-- Applying a table adds the tags of all rules that fit and reports those that are new, so that it adds
nothing a second time, and neither the order of the rules nor that of several tables matters. -/
theorem apply_gains (e : Entry) (t : RuleTable) :
    (e.apply t).entry = { e with tags := (e.apply t).entry.tags } ∧
      (∀ tag, tag ∈ (e.apply t).entry.tags ↔ tag ∈ e.tags ∨
        (∃ r ∈ t.keywordRules, e.Fits r ∧ tag ∈ r.addTags) ∨
          ∃ r ∈ t.subscriptionRules, r.feedUrl = e.feedUrl ∧ tag ∈ r.addTags) ∧
      (∀ tag, tag ∈ (e.apply t).added ↔ tag ∈ (e.apply t).entry.tags ∧ tag ∉ e.tags) ∧
      ((e.apply t).entry.apply t).added = .empty ∧
      (∀ t' : RuleTable, t'.keywordRules.Perm t.keywordRules →
        t'.subscriptionRules.Perm t.subscriptionRules → e.apply t' = e.apply t) ∧
      ∀ ts ts' : List RuleTable, (∀ t, t ∈ ts ↔ t ∈ ts') → e.applyAll ts = e.applyAll ts' := by
  refine ⟨entry_apply e t, fun tag => ?_, (Tagging.Counts.apply e t).mem_added, added_apply_apply e t, ?_,
    fun ts ts' => applyAll_congr⟩
  · rw [mem_tags_apply, gains_iff]
  · intro t' hkeyword hsubscription
    apply apply_congr
    intro tag
    simp only [Gains, hkeyword.mem_iff, hsubscription.mem_iff]

theorem apply_gains_of_overlap :
    let e : Entry :=
      { feedUrl := "http://a.example", feedAuthors := ["", "Jane Doe"], title := some "Lean 4",
        tags := .ofList ["lean"] }
    let t : RuleTable :=
      ⟨[⟨.feedAuthor, "Doe", .ofList ["jane"]⟩, ⟨.entryTitle, "4", .ofList ["four"]⟩,
          ⟨.entryTitle, "Lean", .ofList ["lean", "prover"]⟩, ⟨.entryLink, "http", .ofList ["link"]⟩],
        [⟨"http://a.example", .ofList ["jane", "a"], none⟩, ⟨"http://b.example", .ofList ["b"], none⟩]⟩
    let t' : RuleTable := ⟨t.keywordRules.reverse, t.subscriptionRules.reverse⟩
    (t'.keywordRules.Perm t.keywordRules ∧ t'.subscriptionRules.Perm t.subscriptionRules) ∧
      (∀ x, x ∈ [t, .empty] ↔ x ∈ [.empty, t, t]) ∧
      (e.apply t).added = .ofList ["a", "jane", "prover"] ∧
      (e.apply t).entry = { e with tags := .ofList ["a", "jane", "lean", "prover"] } ∧
      ((e.apply t).entry.apply t).added = .empty ∧ e.apply t' = e.apply t ∧
      e.applyAll [t, .empty] = e.applyAll [.empty, t, t] := by
  intro e t t'
  have hkeyword : t'.keywordRules.Perm t.keywordRules := List.reverse_perm _
  have hsubscription : t'.subscriptionRules.Perm t.subscriptionRules := List.reverse_perm _
  have hmem : ∀ x, x ∈ [t, .empty] ↔ x ∈ [.empty, t, t] := fun x => by simp [or_comm]
  obtain ⟨-, -, -, hagain, hperm, hall⟩ := apply_gains e t
  refine ⟨⟨hkeyword, hsubscription⟩, hmem, by decide +kernel, by decide +kernel, hagain,
    hperm t' hkeyword hsubscription, hall _ _ hmem⟩

end FeedOutline.Entry
