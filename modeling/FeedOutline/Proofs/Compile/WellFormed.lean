import FeedOutline.Proofs.Compile.Feeds

/-!
Compiled rules on their own. Whatever the documents are, every value, address and title is trimmed and not
empty, and no rule adds the marker or the tag of ignored headings.
-/
namespace FeedOutline

open Compile (Holds table)
open Disk (FileTree)
open Outline (Node)
open Text

/-- A tag that a rule may add: an outline can carry it, and it has no meaning of its own there. -/
structure Selection.Adds (s : Selection) (tag : String) : Prop where
  isTag : isTag tag.toList = true
  ne_marker : tag ≠ s.marker
  ne_ignoreTag : tag ≠ s.ignoreTag

structure KeywordRule.WellFormed (s : Selection) (r : KeywordRule) : Prop where
  field : r.field ∈ s.keywords
  value_ne : r.value ≠ ""
  value_trim : trimString r.value = r.value
  adds : ∀ t ∈ r.addTags, s.Adds t

structure SubscriptionRule.WellFormed (s : Selection) (r : SubscriptionRule) : Prop where
  url_ne : r.feedUrl ≠ ""
  no_blank : ∀ c ∈ r.feedUrl.toList, isBlank c = false
  title : ∀ t ∈ r.title, t ≠ "" ∧ trimString t = t ∧ ']' ∉ t.toList
  adds : ∀ t ∈ r.addTags, s.Adds t

structure RuleTable.WellFormed (s : Selection) (t : RuleTable) : Prop where
  keywordRules : ∀ r ∈ t.keywordRules, r.WellFormed s
  subscriptionRules : ∀ r ∈ t.subscriptionRules, r.WellFormed s

namespace Selection

variable {s : Selection} {texts : List String} {h : Node} {tags : List String}

theorem Selects.adds (hselects : s.Selects texts h tags) (hignored : s.ignoreTag ∉ tags) :
    ∀ t ∈ tags, s.Adds t := by
  intro t ht
  obtain ⟨htag, hne⟩ := mem_tags_of_selects hselects t ht
  exact ⟨htag, hne, fun heq => hignored (heq ▸ ht)⟩

theorem Selects.wellFormed_keyword (hselects : s.Selects texts h tags) {rule : KeywordRule}
    (hrule : KeywordOf s h.text tags rule) : rule.WellFormed s := by
  obtain ⟨rest, -, hvalue⟩ := hrule.starts
  have htrimmed : Trimmed isBlank rule.value.toList := hvalue ▸ trimmed_trimmed isBlank rest
  refine ⟨hrule.field, hrule.value_ne, htrimmed.trimString_eq, fun t ht => ?_⟩
  exact hselects.adds hrule.not_ignored t ((hrule.mem_tags t).1 ht)

theorem Selects.wellFormed_subscription (hselects : s.Selects texts h tags) {rule : SubscriptionRule}
    (hrule : SubscriptionOf s h.text tags rule) : rule.WellFormed s := by
  refine ⟨hrule.url_ne, hrule.no_blank, fun t ht => ?_, fun t ht => ?_⟩
  · obtain ⟨hne, htrimmed, hbracket⟩ := hrule.names.of_title t ht
    exact ⟨hne, htrimmed.trimString_eq, hbracket⟩
  · exact hselects.adds hrule.not_ignored t ((hrule.mem_tags t).1 ht)

theorem wellFormed_compileTexts (s : Selection) (texts : List String) :
    (s.compileTexts texts).WellFormed s := by
  constructor
  · intro rule hrule
    obtain ⟨h, tags, hselects, hkeyword⟩ := mem_keywordRules_iff.1 hrule
    exact hselects.wellFormed_keyword hkeyword
  · intro rule hrule
    obtain ⟨h, tags, hselects, hsubscription⟩ := mem_subscriptionRules_iff.1 hrule
    exact hselects.wellFormed_subscription hsubscription

end Selection

/-- A compilation of readable documents succeeds, and all rules of its table are well formed. -/
theorem Compile.wellFormed_of_holds {env : Environment} {files : FileTree}
    {documents texts : List String} (s : Selection)
    (h : List.Forall₂ (Holds env files) documents texts) :
    ∃ t, table s env files documents = .ok t ∧ t.WellFormed s :=
  ⟨_, table_eq s h, s.wellFormed_compileTexts texts⟩

theorem Compile.wellFormed_of_one_tag :
    let text := "* Feeds :elfeed:news:news:\n** Deep :elfeed:c#:\n*** entry-title:  Lean \n" ++
      "*** [[ http://a.example ][ A [1) ]] :news:\n*** [[http://b.example][ ]] :elfeed:\n"
    let files : FileTree := { entries := [(["a.org"], .file (encodeUtf8 text))] }
    let s : Selection := { ignoreTag := "elfeed" }
    List.Forall₂ (Holds {} files) ["a.org"] [text] ∧
      ∃ t, table s {} files ["a.org"] = .ok t ∧ t.WellFormed s ∧
        t = ⟨[⟨.entryTitle, "Lean", .ofList ["news", "c#"]⟩, ⟨.entryTitle, "Lean", .ofList ["c#"]⟩],
          [⟨"http://a.example", .ofList ["news", "c#"], some "A [1)"⟩,
            ⟨"http://b.example", .ofList ["news", "c#"], none⟩,
            ⟨"http://a.example", .ofList ["news", "c#"], some "A [1)"⟩,
            ⟨"http://b.example", .ofList ["c#"], none⟩, ⟨"http://b.example", .empty, none⟩]⟩ := by
  intro text files s
  have hholds : List.Forall₂ (Holds {} files) ["a.org"] [text] :=
    .cons ⟨_, rfl, by decide +kernel⟩ .nil
  obtain ⟨t, ht, hformed⟩ := wellFormed_of_holds s hholds
  refine ⟨hholds, t, ht, hformed, ?_⟩
  rw [eq_compileTexts hholds ht]
  decide +kernel

end FeedOutline
