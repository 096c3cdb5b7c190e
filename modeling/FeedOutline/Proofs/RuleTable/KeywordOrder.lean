import FeedOutline.Proofs.Classified.Shape
import FeedOutline.Proofs.Entry.Tagging
import FeedOutline.Proofs.RuleTable

/-!
The order of the keywords. A heading begins with one keyword at most, so that it does not matter which is looked
for first; in a table the order decides which group of keyword rules comes first, and no entry sees that.
-/
namespace FeedOutline

variable {keywords keywords' : List Keyword}

namespace FlatEntry

theorem isRelevant_perm (h : keywords.Perm keywords') (ignoreTag : String) (e : FlatEntry) :
    e.isRelevant ignoreTag keywords = e.isRelevant ignoreTag keywords' := by
  rw [Bool.eq_iff_iff, isRelevant_iff, isRelevant_iff]
  simp only [h.mem_iff]

theorem keywordValue?_perm (h : keywords.Perm keywords') (e : FlatEntry) :
    e.keywordValue? keywords = e.keywordValue? keywords' := by
  apply Option.ext
  rintro ⟨k, value⟩
  rw [keywordValue?_eq_some_iff, keywordValue?_eq_some_iff, h.mem_iff]

theorem classify?_perm (h : keywords.Perm keywords') (e : FlatEntry) :
    e.classify? keywords = e.classify? keywords' := by
  unfold classify?
  rw [keywordValue?_perm h]

end FlatEntry

theorem classify_eq_of_perm (h : keywords.Perm keywords') (ignoreTag : String) (entries : List FlatEntry) :
    classify ignoreTag keywords entries = classify ignoreTag keywords' entries := by
  have hrelevant : relevant ignoreTag keywords entries = relevant ignoreTag keywords' entries :=
    List.filter_congr fun e _ => e.isRelevant_perm h ignoreTag
  rw [classify, classify, hrelevant]
  exact List.filterMap_congr fun e _ => e.classify?_perm h

namespace RuleTable

theorem keywordRules_build_perm (h : keywords.Perm keywords') (classified : List Classified) :
    (build keywords classified).keywordRules.Perm (build keywords' classified).keywordRules :=
  h.flatMap_right _

end RuleTable

theorem Entry.apply_eq_of_perm {t t' : RuleTable} (hkeyword : t.keywordRules.Perm t'.keywordRules)
    (hsubscription : t.subscriptionRules = t'.subscriptionRules) (e : Entry) : e.apply t = e.apply t' := by
  apply apply_congr
  intro tag
  simp only [Gains, hkeyword.mem_iff, hsubscription]

/-- Keywords in another order classify every heading alike, and the tables have the same subscription rules, the
same keyword rules in another order, and the same effect on every entry. -/
theorem classify_perm (h : keywords.Perm keywords') (ignoreTag : String) (entries : List FlatEntry) :
    let c := classify ignoreTag keywords entries
    let c' := classify ignoreTag keywords' entries
    let t := RuleTable.build keywords c
    let t' := RuleTable.build keywords' c'
    c = c' ∧ t.subscriptionRules = t'.subscriptionRules ∧ t.keywordRules.Perm t'.keywordRules ∧
      ∀ e : Entry, e.apply t = e.apply t' := by
  intro c c' t t'
  have hclassify : c = c' := classify_eq_of_perm h ignoreTag entries
  have hsubscription : t.subscriptionRules = t'.subscriptionRules :=
    congrArg (List.filterMap Classified.subscriptionRule?) hclassify
  have hkeyword : t.keywordRules.Perm t'.keywordRules := by
    rw [show t' = RuleTable.build keywords' c from hclassify ▸ rfl]
    exact RuleTable.keywordRules_build_perm h c
  exact ⟨hclassify, hsubscription, hkeyword, Entry.apply_eq_of_perm hkeyword hsubscription⟩

theorem classify_perm_of_reverse :
    let keywords : List Keyword := [.entryTitle, .feedTitle, .feedUrl]
    let keywords' : List Keyword := [.feedUrl, .feedTitle, .entryTitle]
    let entries : List FlatEntry := [⟨"feed-title: entry-title: Lean", ["lean"]⟩, ⟨"http://a.example", ["a"]⟩,
      ⟨"entry-title:Lean", ["title", "lean"]⟩]
    let c := classify "ignore" keywords entries
    let c' := classify "ignore" keywords' entries
    let t := RuleTable.build keywords c
    let t' := RuleTable.build keywords' c'
    let e : Entry := { feedUrl := "http://a.example", title := some "Lean 4", tags := .ofList ["title"] }
    keywords.Perm keywords' ∧ c.length = 3 ∧ c = c' ∧
      t.subscriptionRules = t'.subscriptionRules ∧
      t.keywordRules ≠ t'.keywordRules ∧ t.keywordRules.Perm t'.keywordRules ∧
      e.apply t = e.apply t' ∧ (e.apply t').added = .ofList ["a", "lean"] := by
  intro keywords keywords' entries c c' t t' e
  have hperm : keywords.Perm keywords' := (List.reverse_perm keywords).symm
  obtain ⟨hclassify, hsubscription, hkeyword, happly⟩ := classify_perm hperm "ignore" entries
  exact ⟨hperm, by decide +kernel, hclassify, hsubscription, by decide +kernel, hkeyword, happly e,
    by decide +kernel⟩

end FeedOutline
