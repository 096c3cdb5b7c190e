import FeedOutline.RuleTable
import FeedOutline.Proofs.TagSet
import FeedOutline.Proofs.Text.Trim

/-!
Which rules a table is built with: one for each classified heading whose rule is valid, and no other.
-/
namespace FeedOutline

open Text

theorem SubscriptionRule.make_eq_ok_iff {url : String} {tags : TagSet} {title : Option String}
    {r : SubscriptionRule} :
    make url tags title = .ok r ↔
      r = ⟨url, tags, title⟩ ∧ url ≠ "" ∧ ∀ c ∈ url.toList, isBlank c = false := by
  unfold make
  split
  · next hblank =>
    refine iff_of_false (by simp) ?_
    rintro ⟨-, hne, hno⟩
    obtain ⟨c, s, hurl⟩ := List.exists_cons_of_ne_nil (mt String.toList_eq_nil_iff.1 hne)
    simp_all [isBlankString]
  · next hblank =>
    have hne : url ≠ "" := fun h => by simp [h, isBlankString] at hblank
    split
    · next hany => simp_all
    · next hany =>
      have hno : ∀ c ∈ url.toList, isBlank c = false := by simpa using hany
      rw [Except.ok.injEq]
      exact ⟨fun h => ⟨h.symm, hne, hno⟩, fun h => h.1.symm⟩

theorem KeywordRule.make_eq_ok_iff {k : Keyword} {value : String} {tags : TagSet} {r : KeywordRule} :
    make (.keyword k) value tags = .ok r ↔
      r = ⟨k, value, tags⟩ ∧ ¬ ∀ c ∈ value.toList, isBlank c = true := by
  unfold make
  dsimp only
  split
  · next hblank => simp_all [isBlankString]
  · next hblank =>
    have hno : ¬ ∀ c ∈ value.toList, isBlank c = true := by simpa [isBlankString] using hblank
    rw [Except.ok.injEq]
    exact ⟨fun h => ⟨h.symm, hno⟩, fun h => h.1.symm⟩

theorem toOption_eq_some_iff {ε α : Type} {x : Except ε α} {a : α} :
    x.toOption = some a ↔ x = .ok a := by
  cases x <;> simp [Except.toOption]

namespace Classified

def subscriptionRule? : Classified → Option SubscriptionRule
  | .filter _ => none
  | .subscription s => (SubscriptionRule.make s.url (.ofList s.tags) s.title).toOption

def keywordRule? (k : Keyword) : Classified → Option KeywordRule
  | .filter f =>
    if f.keyword = k then (KeywordRule.make (.keyword k) f.value (.ofList f.tags)).toOption else none
  | .subscription _ => none

variable {c : Classified}

theorem subscriptionRule?_eq_some_iff {r : SubscriptionRule} :
    c.subscriptionRule? = some r ↔
      ∃ s, c = .subscription s ∧ r = ⟨s.url, .ofList s.tags, s.title⟩ ∧ s.url ≠ "" ∧
        ∀ c ∈ s.url.toList, isBlank c = false := by
  cases c with
  | filter f => simp [subscriptionRule?]
  | subscription s =>
    rw [subscriptionRule?, toOption_eq_some_iff, SubscriptionRule.make_eq_ok_iff]
    simp

theorem keywordRule?_eq_some_iff {k : Keyword} {r : KeywordRule} :
    c.keywordRule? k = some r ↔
      ∃ f, c = .filter f ∧ f.keyword = k ∧ r = ⟨f.keyword, f.value, .ofList f.tags⟩ ∧
        ¬ ∀ c ∈ f.value.toList, isBlank c = true := by
  cases c with
  | subscription s => simp [keywordRule?]
  | filter f =>
    rw [keywordRule?]
    split
    · next hf =>
      subst hf
      rw [toOption_eq_some_iff, KeywordRule.make_eq_ok_iff]
      simp
    · next hf => simp [hf]

end Classified

namespace RuleTable

variable {keywords : List Keyword}

theorem subscriptionRules_build (classified : List Classified) :
    (build keywords classified).subscriptionRules = classified.filterMap (·.subscriptionRule?) := rfl

theorem keywordRules_build (classified : List Classified) :
    (build keywords classified).keywordRules =
      keywords.flatMap fun k => classified.filterMap (·.keywordRule? k) := rfl

theorem build_subscriptions {rs : List SubscriptionRule}
    (h : ∀ r ∈ rs, SubscriptionRule.make r.feedUrl r.addTags r.title = .ok r) :
    build keywords (rs.map fun r => .subscription ⟨r.feedUrl, r.addTags.toList, r.title⟩) = ⟨[], rs⟩ := by
  have hkeyword (k : Keyword) : keywordRulesFor
      (rs.map fun r => .subscription ⟨r.feedUrl, r.addTags.toList, r.title⟩) k = [] := by
    simp [keywordRulesFor]
  have hmake : ∀ r ∈ rs, (SubscriptionRule.make r.feedUrl (.ofList r.addTags.toList) r.title).toOption =
      some r := by
    intro r hr
    rw [TagSet.ofList_toList, h r hr]
    rfl
  rw [build, mk.injEq, List.filterMap_map]
  constructor
  · simp [hkeyword]
  · exact (List.filterMap_congr hmake).trans List.filterMap_some

end RuleTable

end FeedOutline
