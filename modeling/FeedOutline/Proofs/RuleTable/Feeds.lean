import FeedOutline.RuleTable
import FeedOutline.Proofs.Ledger

/-!
The views of a rule table by feed. The index has one place for each feed, in the order in which feeds
first come, with the rules of that feed in theirs; of the titles of a feed the last one is shown.
-/
namespace FeedOutline

def rulesOf (rs : List SubscriptionRule) (url : String) : List SubscriptionRule :=
  rs.filter (·.feedUrl = url)

def urlsOf (rs : List SubscriptionRule) : List String :=
  (rs.map (·.feedUrl)).eraseDups

/-- The title that a rule gives its feed, none if it is empty. -/
def SubscriptionRule.shownTitle? (r : SubscriptionRule) : Option String :=
  r.title.filter (!·.isEmpty)

variable {r : SubscriptionRule} {rs : List SubscriptionRule} {url : String}

theorem mem_rulesOf : r ∈ rulesOf rs url ↔ r ∈ rs ∧ r.feedUrl = url := by
  simp [rulesOf]

theorem mem_urlsOf : url ∈ urlsOf rs ↔ ∃ r ∈ rs, r.feedUrl = url := by
  simp [urlsOf]

theorem nodup_urlsOf (rs : List SubscriptionRule) : (urlsOf rs).Nodup :=
  nodup_eraseDups _

theorem filter_urlsOf (h : url ∈ urlsOf rs) : (urlsOf rs).filter (· = url) = [url] := by
  rw [List.filter_eq, List.count_eq_one_of_mem (nodup_urlsOf rs) h]
  rfl

theorem rulesOf_concat_self (rs : List SubscriptionRule) (r : SubscriptionRule) :
    rulesOf (rs ++ [r]) r.feedUrl = rulesOf rs r.feedUrl ++ [r] := by
  simp [rulesOf]

theorem rulesOf_concat_of_ne (h : url ≠ r.feedUrl) : rulesOf (rs ++ [r]) url = rulesOf rs url := by
  simp [rulesOf, h.symm]

theorem rulesOf_eq_nil (h : url ∉ urlsOf rs) : rulesOf rs url = [] := by
  rw [List.eq_nil_iff_forall_not_mem]
  intro r hr
  exact h (mem_urlsOf.2 ⟨r, mem_rulesOf.1 hr⟩)

namespace RuleTable

/-! The index. -/

theorem feedIndex_eq (t : RuleTable) :
    t.feedIndex = (urlsOf t.subscriptionRules).map fun url => (url, rulesOf t.subscriptionRules url) :=
  foldl_upsert (fun r : SubscriptionRule => r.feedUrl) (fun r rules => rules.getD [] ++ [r])
    (fun rules => rules) (fun _ => rfl) (fun _ _ => rfl) t.subscriptionRules

theorem feedUrls_eq (t : RuleTable) : t.feedUrls = urlsOf t.subscriptionRules := by
  rw [feedUrls, feedIndex_eq, List.map_map]
  exact List.map_id _

/-! Titles. -/

theorem Titles.lookup_give (url title u : String) (titles : Titles) :
    (titles.give url title).lookup u = if u = url then some title else titles.lookup u :=
  lookup_upsert url _ titles u

theorem titles_concat (keywordRules : List KeywordRule) (rs : List SubscriptionRule)
    (r : SubscriptionRule) :
    titles ⟨keywordRules, rs ++ [r]⟩ =
      match r.shownTitle? with
      | some title => (titles ⟨keywordRules, rs⟩).give r.feedUrl title
      | none => titles ⟨keywordRules, rs⟩ := by
  unfold titles
  rw [List.foldl_append, List.foldl_cons, List.foldl_nil, SubscriptionRule.shownTitle?]
  cases r.title with
  | none => rfl
  | some title =>
    dsimp only
    rw [Option.filter_some]
    cases title.isEmpty <;> rfl

theorem nodup_titles (t : RuleTable) : (t.titles.map (·.1)).Nodup := by
  obtain ⟨keywordRules, rs⟩ := t
  induction rs using List.reverseRecOn with
  | nil => exact List.nodup_nil
  | append_singleton rs r ih =>
    rw [titles_concat]
    cases r.shownTitle? with
    | none => exact ih
    | some title => exact nodup_map_fst_upsert ih

theorem lookup_titles (t : RuleTable) (url : String) :
    t.titles.lookup url =
      ((rulesOf t.subscriptionRules url).filterMap (·.shownTitle?)).getLast? := by
  obtain ⟨keywordRules, rs⟩ := t
  induction rs using List.reverseRecOn with
  | nil => rfl
  | append_singleton rs r ih =>
    dsimp only at ih ⊢
    rw [titles_concat]
    by_cases hurl : url = r.feedUrl
    · rw [hurl] at ih ⊢
      rw [rulesOf_concat_self, List.filterMap_append]
      cases hshown : r.shownTitle? with
      | none => simp [hshown, ih]
      | some title => simp [hshown, Titles.lookup_give]
    · rw [rulesOf_concat_of_ne hurl, ← ih]
      split
      · rw [Titles.lookup_give, if_neg hurl]
      · rfl

end RuleTable

end FeedOutline
