import FeedOutline.Proofs.Classified.Shape
import FeedOutline.Proofs.Grouping
import FeedOutline.Proofs.RuleTable

/-!
The rules that classified headings make. No keyword is passed over, since its value is never blank, so that only
a subscription without an address, or with a blank in it, makes no rule.
-/
namespace FeedOutline

open Text

def KeywordFilter.rule (f : KeywordFilter) : KeywordRule :=
  ⟨f.keyword, f.value, .ofList f.tags⟩

namespace Subscription

def rule (s : Subscription) : SubscriptionRule :=
  ⟨s.url, .ofList s.tags, s.title⟩

def IsUsable (s : Subscription) : Prop :=
  s.url ≠ "" ∧ ∀ c ∈ s.url.toList, isBlank c = false

instance (s : Subscription) : Decidable s.IsUsable :=
  inferInstanceAs (Decidable (_ ∧ _))

end Subscription

namespace Classified

def filter? : Classified → Option KeywordFilter
  | .filter f => some f
  | .subscription _ => none

def subscription? : Classified → Option Subscription
  | .filter _ => none
  | .subscription s => some s

/-- The rule that a classified heading stands for, be it valid or not. -/
def rule : Classified → Rule
  | .filter f => .keyword f.rule
  | .subscription s => .subscription s.rule

def IsUsable : Classified → Prop
  | .filter _ => True
  | .subscription s => s.IsUsable

instance : (c : Classified) → Decidable c.IsUsable
  | .filter _ => inferInstanceAs (Decidable True)
  | .subscription s => inferInstanceAs (Decidable s.IsUsable)

end Classified

def RuleTable.rules (t : RuleTable) : List Rule :=
  t.keywordRules.map .keyword ++ t.subscriptionRules.map .subscription

variable {ignoreTag : String} {keywords : List Keyword} {entries : List FlatEntry}

/-! What the classification guarantees. -/

theorem filter_of_mem_classify {f : KeywordFilter}
    (h : .filter f ∈ classify ignoreTag keywords entries) :
    f.keyword ∈ keywords ∧ ¬ ∀ c ∈ f.value.toList, isBlank c = true := by
  obtain ⟨e, -, he⟩ := List.mem_filterMap.1 h
  obtain ⟨⟨hkeyword, rest, -, hvalue⟩, hne, -⟩ := FlatEntry.classify?_eq_filter_iff.1 he
  exact ⟨hkeyword, not_forall_isBlank_of_eq_trim hvalue hne⟩

theorem mem_filterMap_filter? {classified : List Classified} {f : KeywordFilter} :
    f ∈ classified.filterMap (·.filter?) ↔ .filter f ∈ classified := by
  rw [List.mem_filterMap]
  constructor
  · rintro ⟨c, hc, hfilter⟩
    cases c with
    | filter g => exact Option.some.inj hfilter ▸ hc
    | subscription s => cases hfilter
  · exact fun hf => ⟨_, hf, rfl⟩

namespace Classified

theorem subscriptionRule?_eq (c : Classified) :
    c.subscriptionRule? = (c.subscription?.filter (·.IsUsable)).map (·.rule) := by
  ext r
  rw [subscriptionRule?_eq_some_iff]
  cases c with
  | filter f => simp [subscription?]
  | subscription s =>
    have hrule : s.rule = r ↔ r = ⟨s.url, .ofList s.tags, s.title⟩ := eq_comm
    simp only [subscription?, Option.map_eq_some_iff, Option.filter_eq_some_iff, Option.some.injEq, hrule,
      Classified.subscription.injEq, exists_eq_left', and_assoc, decide_eq_true_eq]
    exact and_comm

theorem keywordRule?_eq {c : Classified} (hc : c ∈ classify ignoreTag keywords entries) (k : Keyword) :
    c.keywordRule? k = (c.filter?.map (·.rule)).filter (·.field = k) := by
  ext r
  rw [keywordRule?_eq_some_iff]
  cases c with
  | subscription s => simp [filter?]
  | filter f =>
    -- The value is not blank, so the rule is valid whichever keyword it is for.
    have hvalue := (filter_of_mem_classify hc).2
    have hrule : f.rule = r ↔ r = ⟨f.keyword, f.value, .ofList f.tags⟩ := eq_comm
    simp only [filter?, Option.map_some, Option.filter_eq_some_iff, Option.some.injEq, hrule,
      Classified.filter.injEq, exists_eq_left', hvalue, not_false_eq_true, and_true, decide_eq_true_eq]
    constructor
    · rintro ⟨hk, rfl⟩
      exact ⟨rfl, hk⟩
    · rintro ⟨rfl, hk⟩
      exact ⟨hk, rfl⟩

end Classified

namespace RuleTable

theorem keywordRules_build_classify (ignoreTag : String) (keywords : List Keyword) (entries : List FlatEntry) :
    (build keywords (classify ignoreTag keywords entries)).keywordRules =
      groups (·.field) keywords
        (((classify ignoreTag keywords entries).filterMap (·.filter?)).map (·.rule)) := by
  rw [keywordRules_build, groups]
  refine List.flatMap_congr fun k _ => ?_
  rw [List.map_filterMap, List.filter_filterMap]
  exact List.filterMap_congr fun c hc => Classified.keywordRule?_eq hc k

theorem subscriptionRules_build_eq (keywords : List Keyword) (classified : List Classified) :
    (build keywords classified).subscriptionRules =
      ((classified.filterMap (·.subscription?)).filter (·.IsUsable)).map (·.rule) := by
  rw [subscriptionRules_build, List.filter_filterMap, List.map_filterMap]
  exact List.filterMap_congr fun c _ => c.subscriptionRule?_eq

theorem rules_perm (classified : List Classified) :
    (((classified.filterMap (·.filter?)).map (·.rule)).map Rule.keyword ++
      (((classified.filterMap (·.subscription?)).filter (·.IsUsable)).map (·.rule)).map Rule.subscription).Perm
      ((classified.filter (·.IsUsable)).map (·.rule)) := by
  induction classified with
  | nil => exact List.Perm.nil
  | cons c classified ih =>
    cases c with
    | filter f => exact ih.cons (.keyword f.rule)
    | subscription s =>
      have hfilters : (Classified.subscription s :: classified).filterMap (·.filter?) =
          classified.filterMap (·.filter?) := rfl
      have hsubscriptions : (Classified.subscription s :: classified).filterMap (·.subscription?) =
          s :: classified.filterMap (·.subscription?) := rfl
      by_cases hs : s.IsUsable
      · have hc : (Classified.subscription s).IsUsable := hs
        rw [hfilters, hsubscriptions, List.filter_cons_of_pos (by simpa using hs),
          List.filter_cons_of_pos (by simpa using hc)]
        exact List.perm_middle.trans (ih.cons (.subscription s.rule))
      · have hc : ¬ (Classified.subscription s).IsUsable := hs
        rw [hfilters, hsubscriptions, List.filter_cons_of_neg (by simpa using hs),
          List.filter_cons_of_neg (by simpa using hc)]
        exact ih

/-- The keyword rules are those of all filters, regrouped in the order of the keywords; the subscription rules
are those of the usable subscriptions as they come; and what makes no rule are the other subscriptions. -/
theorem build_classify (hnodup : keywords.Nodup) (ignoreTag : String) (entries : List FlatEntry) :
    let c := classify ignoreTag keywords entries
    let t := build keywords c
    Regrouped (·.field) keywords ((c.filterMap (·.filter?)).map (·.rule)) t.keywordRules ∧
      t.subscriptionRules = ((c.filterMap (·.subscription?)).filter (·.IsUsable)).map (·.rule) ∧
      t.rules.Perm ((c.filter (·.IsUsable)).map (·.rule)) := by
  intro c t
  have hfields : ∀ r ∈ (c.filterMap (·.filter?)).map (·.rule), r.field ∈ keywords := by
    rw [List.forall_mem_map]
    intro f hf
    exact (filter_of_mem_classify (mem_filterMap_filter?.1 hf)).1
  have hkeyword : Regrouped (·.field) keywords ((c.filterMap (·.filter?)).map (·.rule)) t.keywordRules := by
    rw [keywordRules_build_classify]
    exact regrouped_groups hnodup hfields
  have hsubscription := subscriptionRules_build_eq keywords c
  refine ⟨hkeyword, hsubscription, ?_⟩
  rw [rules, hsubscription]
  exact ((hkeyword.perm.map _).append_right _).trans (rules_perm c)

theorem build_classify_of_mixed :
    let keywords : List Keyword := [.feedAuthor, .entryTitle]
    let entries : List FlatEntry := [⟨"entry-title: Lean", ["lean"]⟩, ⟨"[[http://a.example][A]]", ["a"]⟩,
      ⟨"feed-author:Jane", []⟩, ⟨"http://b.example c", []⟩, ⟨"entry-title: Rocq", ["b", "a", "b"]⟩,
      ⟨"http://d.example", ["ignore"]⟩, ⟨"entry-link: http://e.example", []⟩]
    let c := classify "ignore" keywords entries
    let t := build keywords c
    keywords.Nodup ∧ c.length = 5 ∧
      Regrouped (·.field) keywords ((c.filterMap (·.filter?)).map (·.rule)) t.keywordRules ∧
      t.keywordRules = [⟨.feedAuthor, "Jane", .empty⟩, ⟨.entryTitle, "Lean", .ofList ["lean"]⟩,
        ⟨.entryTitle, "Rocq", .ofList ["a", "b"]⟩] ∧
      t.subscriptionRules = ((c.filterMap (·.subscription?)).filter (·.IsUsable)).map (·.rule) ∧
      t.subscriptionRules = [⟨"http://a.example", .ofList ["a"], some "A"⟩] ∧
      t.rules.Perm ((c.filter (·.IsUsable)).map (·.rule)) := by
  intro keywords entries c t
  have hnodup : keywords.Nodup := by decide
  obtain ⟨hkeyword, hsubscription, hrules⟩ := build_classify hnodup "ignore" entries
  exact ⟨hnodup, by decide +kernel, hkeyword, by decide +kernel, hsubscription, by decide +kernel, hrules⟩

end RuleTable

end FeedOutline
