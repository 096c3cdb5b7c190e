import FeedOutline.Proofs.Classified.Shape
import FeedOutline.Proofs.Compile.Documents
import FeedOutline.Proofs.Flat.Inheritance
import FeedOutline.Proofs.Outline.Reading
import FeedOutline.Proofs.RuleTable
import FeedOutline.Proofs.TagSet

/-!
Where the rules of a table come from. Every rule comes from a heading at or below a marked one, with the
tags declared on the path between the two, and every such heading with the shape of a rule makes one.
-/
namespace FeedOutline

open Disk (FileTree)
open Outline (Node walkAll Leads Nested)
open Text

/-- The tags declared on a path, without the marker. -/
def Selection.pathTags (s : Selection) (path : List Node) : List String :=
  (path.flatMap (·.tags)).filter (· != s.marker)

def Selection.Marks (s : Selection) (n : Node) : Prop :=
  s.marker ∈ n.tags ∨ n.id = some s.marker

/-- A marked heading of one of the texts leads to the heading on a path with those tags. -/
def Selection.Selects (s : Selection) (texts : List String) (h : Node) (tags : List String) : Prop :=
  ∃ text ∈ texts, ∃ r ∈ walkAll (Outline.parse text), s.Marks r ∧
    ∃ path, Leads r path h ∧ tags = s.pathTags path

/-- A heading with this text and these tags makes that subscription rule. -/
structure SubscriptionOf (s : Selection) (heading : String) (tags : List String)
    (rule : SubscriptionRule) : Prop where
  not_ignored : s.ignoreTag ∉ tags
  relevant : "http".toList <:+: heading.toList ∨ ∃ k ∈ s.keywords, k.name.toList <:+: heading.toList
  no_keyword : ∀ k ∈ s.keywords, ¬ k.start <+: heading.toList
  names : NamesFeed (trim heading.toList) rule.feedUrl rule.title
  url_ne : rule.feedUrl ≠ ""
  no_blank : ∀ c ∈ rule.feedUrl.toList, isBlank c = false
  mem_tags : ∀ t, t ∈ rule.addTags ↔ t ∈ tags

/-- A heading with this text and these tags makes that keyword rule. -/
structure KeywordOf (s : Selection) (heading : String) (tags : List String) (rule : KeywordRule) :
    Prop where
  not_ignored : s.ignoreTag ∉ tags
  field : rule.field ∈ s.keywords
  starts : ∃ rest, heading.toList = rule.field.start ++ rest ∧ rule.value.toList = trim rest
  value_ne : rule.value ≠ ""
  mem_tags : ∀ t, t ∈ rule.addTags ↔ t ∈ tags

namespace Selection

variable {s : Selection} {texts : List String}

theorem isMarked_iff {n : Node} : n.isMarked s.marker = true ↔ s.Marks n := by
  simp [Node.isMarked, Marks]

theorem mem_treesOf_iff {text : String} {r : Node} :
    r ∈ s.treesOf text ↔ r ∈ walkAll (Outline.parse text) ∧ s.Marks r := by
  rw [treesOf, Outline.marked, List.mem_filter, isMarked_iff]

theorem nested_of_mem_treesOf {text : String} {r : Node} (h : r ∈ s.treesOf text) : Nested [r] :=
  (Outline.nested_parse text).of_mem_walkAll (mem_treesOf_iff.1 h).1

theorem mem_entriesOf_iff {trees : List Node} {e : FlatEntry} :
    e ∈ s.entriesOf trees ↔ ∃ r ∈ trees, ∃ e' ∈ flatten r, e'.withoutTag s.marker = e := by
  simp only [entriesOf, cleanup, flattenAll, mem_dedupe, List.mem_map, List.mem_flatMap]
  exact ⟨fun ⟨e', ⟨r, hr, he'⟩, he⟩ => ⟨r, hr, e', he', he⟩,
    fun ⟨r, hr, e', he', he⟩ => ⟨e', ⟨r, hr, he'⟩, he⟩⟩

/-- The entries of some texts are the headings at or below the marked ones, with the tags on the paths
to them. -/
theorem mem_entriesOf_texts_iff {e : FlatEntry} :
    e ∈ s.entriesOf (texts.flatMap s.treesOf) ↔
      ∃ h tags, s.Selects texts h tags ∧ e = ⟨h.text, tags⟩ := by
  rw [mem_entriesOf_iff]
  constructor
  · rintro ⟨r, hr, e', he', rfl⟩
    obtain ⟨text, htext, hr⟩ := List.mem_flatMap.1 hr
    obtain ⟨path, h, hpath, rfl⟩ := (mem_flatten_iff (nested_of_mem_treesOf hr)).1 he'
    obtain ⟨hwalk, hmarked⟩ := mem_treesOf_iff.1 hr
    exact ⟨h, _, ⟨text, htext, r, hwalk, hmarked, path, hpath, rfl⟩, rfl⟩
  · rintro ⟨h, tags, ⟨text, htext, r, hwalk, hmarked, path, hpath, rfl⟩, rfl⟩
    have hr : r ∈ s.treesOf text := mem_treesOf_iff.2 ⟨hwalk, hmarked⟩
    refine ⟨r, List.mem_flatMap.2 ⟨text, htext, hr⟩, ⟨h.text, path.flatMap (·.tags)⟩, ?_, rfl⟩
    exact (mem_flatten_iff (nested_of_mem_treesOf hr)).2 ⟨path, h, hpath, rfl⟩

end Selection

theorem TagSet.eq_ofList_iff {s : TagSet} {tags : List String} :
    s = ofList tags ↔ ∀ t, t ∈ s ↔ t ∈ tags :=
  ⟨fun h t => by rw [h, mem_ofList], fun h => ext fun t => by rw [h, mem_ofList]⟩

theorem Keyword.name_infix_of_start {k : Keyword} {rest : List Char} :
    k.name.toList <:+: k.start ++ rest := by
  rw [start_eq, List.append_assoc]
  exact (List.prefix_append _ _).isInfix

theorem KeywordOf.mentions {s : Selection} {heading : String} {tags : List String} {rule : KeywordRule}
    (h : KeywordOf s heading tags rule) :
    "http".toList <:+: heading.toList ∨ ∃ k ∈ s.keywords, k.name.toList <:+: heading.toList := by
  obtain ⟨rest, hrest, -⟩ := h.starts
  exact .inr ⟨rule.field, h.field, hrest ▸ Keyword.name_infix_of_start⟩

namespace Selection

/-! The rule of one entry. -/

def classified? (s : Selection) (e : FlatEntry) : Option Classified :=
  if e.isRelevant s.ignoreTag s.keywords then e.classify? s.keywords else none

def subscriptionRule? (s : Selection) (e : FlatEntry) : Option SubscriptionRule :=
  (s.classified? e).bind (·.subscriptionRule?)

def keywordRule? (s : Selection) (k : Keyword) (e : FlatEntry) : Option KeywordRule :=
  (s.classified? e).bind (·.keywordRule? k)

variable {s : Selection} {texts : List String} {e : FlatEntry}

theorem classify_eq (s : Selection) (entries : List FlatEntry) :
    classify s.ignoreTag s.keywords entries = entries.filterMap s.classified? := by
  rw [classify, relevant, List.filterMap_filter]
  rfl

theorem subscriptionRules_tableOf (s : Selection) (entries : List FlatEntry) :
    (s.tableOf entries).subscriptionRules = entries.filterMap s.subscriptionRule? := by
  rw [tableOf, RuleTable.subscriptionRules_build, classify_eq, List.filterMap_filterMap]
  rfl

theorem keywordRules_tableOf (s : Selection) (entries : List FlatEntry) :
    (s.tableOf entries).keywordRules =
      s.keywords.flatMap fun k => entries.filterMap (s.keywordRule? k) := by
  rw [tableOf, RuleTable.keywordRules_build, classify_eq]
  simp only [List.filterMap_filterMap]
  rfl

theorem classified?_eq_some_iff {c : Classified} :
    s.classified? e = some c ↔
      e.isRelevant s.ignoreTag s.keywords = true ∧ e.classify? s.keywords = some c := by
  simp [classified?]

theorem subscriptionRule?_eq_some_iff {rule : SubscriptionRule} :
    s.subscriptionRule? e = some rule ↔ SubscriptionOf s e.heading e.tags rule := by
  simp only [subscriptionRule?, Option.bind_eq_some_iff, classified?_eq_some_iff,
    Classified.subscriptionRule?_eq_some_iff]
  constructor
  · rintro ⟨-, ⟨hrelevant, hclassify⟩, sub, rfl, rfl, hne, hblank⟩
    obtain ⟨hignored, hmentions⟩ := FlatEntry.isRelevant_iff.1 hrelevant
    obtain ⟨hkeyword, hnames, htags⟩ := FlatEntry.classify?_eq_subscription_iff.1 hclassify
    exact ⟨hignored, hmentions, hkeyword, hnames, hne, hblank, by simp [htags]⟩
  · intro hrule
    refine ⟨_, ⟨FlatEntry.isRelevant_iff.2 ⟨hrule.not_ignored, hrule.relevant⟩, ?_⟩,
      ⟨rule.feedUrl, e.tags, rule.title⟩, rfl, ?_, hrule.url_ne, hrule.no_blank⟩
    · exact FlatEntry.classify?_eq_subscription_iff.2 ⟨hrule.no_keyword, hrule.names, rfl⟩
    · rw [← TagSet.eq_ofList_iff.2 hrule.mem_tags]

theorem keywordRule?_eq_some_iff {k : Keyword} {rule : KeywordRule} :
    s.keywordRule? k e = some rule ∧ k ∈ s.keywords ↔
      rule.field = k ∧ KeywordOf s e.heading e.tags rule := by
  simp only [keywordRule?, Option.bind_eq_some_iff, classified?_eq_some_iff,
    Classified.keywordRule?_eq_some_iff]
  constructor
  · rintro ⟨⟨-, ⟨hrelevant, hclassify⟩, f, rfl, hk, rfl, -⟩, -⟩
    obtain ⟨hignored, -⟩ := FlatEntry.isRelevant_iff.1 hrelevant
    obtain ⟨⟨hfield, hstarts⟩, hne, htags⟩ := FlatEntry.classify?_eq_filter_iff.1 hclassify
    exact ⟨hk, hignored, hfield, hstarts, hne, by simp [htags]⟩
  · rintro ⟨rfl, hrule⟩
    obtain ⟨rest, hrest, hvalue⟩ := hrule.starts
    refine ⟨⟨_, ⟨?_, ?_⟩, ⟨rule.field, rule.value, e.tags⟩, rfl, rfl, ?_, ?_⟩, hrule.field⟩
    · exact FlatEntry.isRelevant_iff.2 ⟨hrule.not_ignored, hrule.mentions⟩
    · exact FlatEntry.classify?_eq_filter_iff.2
        ⟨⟨hrule.field, rest, hrest, hvalue⟩, hrule.value_ne, rfl⟩
    · rw [← TagSet.eq_ofList_iff.2 hrule.mem_tags]
    · exact not_forall_isBlank_of_eq_trim hvalue hrule.value_ne

theorem mem_subscriptionRules_iff {rule : SubscriptionRule} :
    rule ∈ (s.compileTexts texts).subscriptionRules ↔
      ∃ h tags, s.Selects texts h tags ∧ SubscriptionOf s h.text tags rule := by
  rw [compileTexts, subscriptionRules_tableOf, List.mem_filterMap]
  simp only [mem_entriesOf_texts_iff, subscriptionRule?_eq_some_iff]
  constructor
  · rintro ⟨-, ⟨h, tags, hselects, rfl⟩, hrule⟩
    exact ⟨h, tags, hselects, hrule⟩
  · rintro ⟨h, tags, hselects, hrule⟩
    exact ⟨_, ⟨h, tags, hselects, rfl⟩, hrule⟩

theorem mem_keywordRules_iff {rule : KeywordRule} :
    rule ∈ (s.compileTexts texts).keywordRules ↔
      ∃ h tags, s.Selects texts h tags ∧ KeywordOf s h.text tags rule := by
  rw [compileTexts, keywordRules_tableOf, List.mem_flatMap]
  simp only [List.mem_filterMap, mem_entriesOf_texts_iff]
  constructor
  · rintro ⟨k, hk, -, ⟨h, tags, hselects, rfl⟩, hrule⟩
    exact ⟨h, tags, hselects, (keywordRule?_eq_some_iff.1 ⟨hrule, hk⟩).2⟩
  · rintro ⟨h, tags, hselects, hrule⟩
    obtain ⟨hmake, hk⟩ := keywordRule?_eq_some_iff (e := ⟨h.text, tags⟩).2 ⟨rfl, hrule⟩
    exact ⟨rule.field, hk, _, ⟨h, tags, hselects, rfl⟩, hmake⟩

end Selection

/-- A compilation of readable documents succeeds, and its rules are those of the headings at or below a
marked one. -/
theorem Compile.mem_rules_iff_of_holds {env : Environment} {files : FileTree}
    {documents texts : List String} (s : Selection)
    (h : List.Forall₂ (Holds env files) documents texts) :
    ∃ t, table s env files documents = .ok t ∧
      (∀ rule, rule ∈ t.subscriptionRules ↔
        ∃ h tags, s.Selects texts h tags ∧ SubscriptionOf s h.text tags rule) ∧
      ∀ rule, rule ∈ t.keywordRules ↔
        ∃ h tags, s.Selects texts h tags ∧ KeywordOf s h.text tags rule :=
  ⟨s.compileTexts texts, table_eq s h, fun _ => Selection.mem_subscriptionRules_iff,
    fun _ => Selection.mem_keywordRules_iff⟩

theorem Compile.mem_rules_of_overlap :
    let first := "* Feeds :elfeed:news:\n** Deep :elfeed:old:\n*** entry-title: Lean :lean:\n"
    let second := "* Saved\n:PROPERTIES:\n:ID: elfeed\n:END:\n*** [[http://a.example][A]] :a:\n"
    let files : FileTree := { entries := [(["a.org"], .file (encodeUtf8 first)), (["b.org"], .file (encodeUtf8 second))] }
    List.Forall₂ (Holds {} files) ["a.org", "./b.org"] [first, second] ∧
      ∃ t, table {} {} files ["a.org", "./b.org"] = .ok t ∧
        (∀ rule, rule ∈ t.subscriptionRules ↔ ∃ h tags,
          Selection.Selects {} [first, second] h tags ∧ SubscriptionOf {} h.text tags rule) ∧
        (∀ rule, rule ∈ t.keywordRules ↔ ∃ h tags,
          Selection.Selects {} [first, second] h tags ∧ KeywordOf {} h.text tags rule) ∧
        t = ⟨[⟨.entryTitle, "Lean", .ofList ["news", "old", "lean"]⟩,
            ⟨.entryTitle, "Lean", .ofList ["old", "lean"]⟩],
          [⟨"http://a.example", .ofList ["a"], some "A"⟩]⟩ := by
  intro first second files
  have hholds : List.Forall₂ (Holds {} files) ["a.org", "./b.org"] [first, second] :=
    .cons ⟨_, rfl, by decide +kernel⟩ (.cons ⟨_, rfl, by decide +kernel⟩ .nil)
  obtain ⟨t, ht, hsubscription, hkeyword⟩ := mem_rules_iff_of_holds {} hholds
  refine ⟨hholds, t, ht, hsubscription, hkeyword, ?_⟩
  have htexts : t = Selection.compileTexts {} [first, second] :=
    Except.ok.inj (ht.symm.trans (table_eq {} hholds))
  rw [htexts]
  decide +kernel

end FeedOutline
