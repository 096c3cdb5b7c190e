import FeedOutline.Proofs.Compile.Ignored
import Mathlib.Data.List.Nodup

/-!
Which rules a table holds twice. Entries are told apart by the list of their tags and rules by the set,
so a heading below two marked ones makes one rule twice if the upper one adds only tags that come again
further down.
-/
namespace FeedOutline

open Disk (FileTree)
open Outline (Node walkAll Leads)
open Text

def Rule.decoded : Rule → Classified
  | .keyword r => .filter ⟨r.field, r.value, []⟩
  | .subscription r => .subscription ⟨r.feedUrl, [], r.title⟩

namespace Selection

def decode? (s : Selection) (heading : String) : Option Classified :=
  (⟨heading, []⟩ : FlatEntry).classify? s.keywords

/-- No two headings of a forest decode to the same. -/
def Apart (s : Selection) (ns : List Node) : Prop :=
  (walkAll ns).Pairwise fun a b => ∀ c, s.decode? a.text = some c → s.decode? b.text ≠ some c

/-- Two marked headings on the trail hand the same tags down to its end, though not as the same list:
what is declared from the upper one on is declared again from the lower one on. -/
def Repeats (s : Selection) (trail : List Node) : Prop :=
  ∃ above r between r' path, trail = above ++ (r :: between ++ r' :: path) ∧ s.Marks r ∧ s.Marks r' ∧
    s.ignoreTag ∉ s.pathTags (r' :: path) ∧ s.pathTags (r :: between) ≠ [] ∧
    ∀ t ∈ s.pathTags (r :: between), t ∈ s.pathTags (r' :: path)

variable {s : Selection} {heading : String} {tags tags' : List String} {rule : Rule}

theorem apart_iff {ns : List Node} : s.Apart ns ↔ (walkAll ns).Pairwise fun a b =>
    s.decode? a.text = none ∨ s.decode? a.text ≠ s.decode? b.text := by
  have heach (a b : Node) : (∀ c, s.decode? a.text = some c → s.decode? b.text ≠ some c) ↔
      s.decode? a.text = none ∨ s.decode? a.text ≠ s.decode? b.text := by
    cases s.decode? a.text <;> simp [eq_comm]
  simp only [Apart, heach]

namespace Makes

theorem decode? (h : s.Makes heading tags rule) : s.decode? heading = some rule.decoded := by
  cases rule with
  | keyword r =>
    obtain ⟨-, hfield, hstarts, hvalue, -⟩ := h
    exact FlatEntry.classify?_eq_filter_iff.2 ⟨⟨hfield, hstarts⟩, hvalue, rfl⟩
  | subscription r =>
    obtain ⟨-, -, hkeyword, hnames, -, -, -⟩ := h
    exact FlatEntry.classify?_eq_subscription_iff.2 ⟨hkeyword, hnames, rfl⟩

theorem not_ignored (h : s.Makes heading tags rule) : s.ignoreTag ∉ tags := by
  cases rule with
  | keyword r => exact KeywordOf.not_ignored h
  | subscription r => exact SubscriptionOf.not_ignored h

theorem mem_iff {heading' : String} (h : s.Makes heading tags rule) (h' : s.Makes heading' tags' rule)
    (t : String) : t ∈ tags ↔ t ∈ tags' := by
  cases rule with
  | keyword r => rw [← KeywordOf.mem_tags h, ← KeywordOf.mem_tags h']
  | subscription r => rw [← SubscriptionOf.mem_tags h, ← SubscriptionOf.mem_tags h']

theorem congr (h : s.Makes heading tags rule) (hmem : ∀ t, t ∈ tags ↔ t ∈ tags') :
    s.Makes heading tags' rule := by
  cases rule with
  | keyword r =>
    obtain ⟨hignored, hfield, hstarts, hvalue, htags⟩ := h
    exact ⟨mt (hmem _).2 hignored, hfield, hstarts, hvalue, fun t => (htags t).trans (hmem t)⟩
  | subscription r =>
    obtain ⟨hignored, hrelevant, hkeyword, hnames, hurl, hblank, htags⟩ := h
    exact ⟨mt (hmem _).2 hignored, hrelevant, hkeyword, hnames, hurl, hblank,
      fun t => (htags t).trans (hmem t)⟩

end Makes

/-! Rules of different entries. -/

theorem keywordRule?_field {k : Keyword} {e : FlatEntry} {r : KeywordRule}
    (h : s.keywordRule? k e = some r) (hk : k ∈ s.keywords) : r.field = k :=
  (keywordRule?_eq_some_iff.1 ⟨h, hk⟩).1

theorem nodup_keywordRules_iff (hkeywords : s.keywords.Nodup) {entries : List FlatEntry}
    (hentries : entries.Nodup) :
    (s.tableOf entries).keywordRules.Nodup ↔ ∀ a ∈ entries, ∀ b ∈ entries, a ≠ b →
      ∀ r, KeywordOf s a.heading a.tags r → ¬ KeywordOf s b.heading b.tags r := by
  rw [keywordRules_tableOf, List.nodup_flatMap]
  constructor
  · rintro ⟨hnodup, -⟩ a ha b hb hab r hra hrb
    obtain ⟨hmakeA, hk⟩ := keywordRule?_eq_some_iff.2 ⟨rfl, hra⟩
    obtain ⟨hmakeB, -⟩ := keywordRule?_eq_some_iff.2 ⟨rfl, hrb⟩
    exact (nodup_filterMap_iff hentries).1 (hnodup _ hk) a ha b hb hab r hmakeA hmakeB
  · intro hall
    constructor
    · intro k hk
      refine (nodup_filterMap_iff hentries).2 fun a ha b hb hab r hra hrb => ?_
      exact hall a ha b hb hab r (keywordRule?_eq_some_iff.1 ⟨hra, hk⟩).2
        (keywordRule?_eq_some_iff.1 ⟨hrb, hk⟩).2
    · refine hkeywords.pairwise_of_forall_ne fun k hk l hl hkl r hrk hrl => hkl ?_
      obtain ⟨a, -, hra⟩ := List.mem_filterMap.1 hrk
      obtain ⟨b, -, hrb⟩ := List.mem_filterMap.1 hrl
      rw [← keywordRule?_field hra hk, ← keywordRule?_field hrb hl]

theorem nodup_subscriptionRules_iff {entries : List FlatEntry} (hentries : entries.Nodup) :
    (s.tableOf entries).subscriptionRules.Nodup ↔ ∀ a ∈ entries, ∀ b ∈ entries, a ≠ b →
      ∀ r, SubscriptionOf s a.heading a.tags r → ¬ SubscriptionOf s b.heading b.tags r := by
  rw [subscriptionRules_tableOf, nodup_filterMap_iff hentries]
  simp only [ne_eq, subscriptionRule?_eq_some_iff]

theorem nodup_rules_iff (hkeywords : s.keywords.Nodup) {entries : List FlatEntry}
    (hentries : entries.Nodup) :
    (s.tableOf entries).keywordRules.Nodup ∧ (s.tableOf entries).subscriptionRules.Nodup ↔
      ∀ a ∈ entries, ∀ b ∈ entries, a ≠ b → ∀ rule, s.Makes a.heading a.tags rule →
        ¬ s.Makes b.heading b.tags rule := by
  rw [nodup_keywordRules_iff hkeywords hentries, nodup_subscriptionRules_iff hentries]
  constructor
  · rintro ⟨hkeyword, hsubscription⟩ a ha b hb hab rule
    cases rule with
    | keyword r => exact hkeyword a ha b hb hab r
    | subscription r => exact hsubscription a ha b hb hab r
  · intro hall
    exact ⟨fun a ha b hb hab r => hall a ha b hb hab (.keyword r),
      fun a ha b hb hab r => hall a ha b hb hab (.subscription r)⟩

/-! Entries of one heading. -/

theorem nodup_entriesOf (s : Selection) (trees : List Node) : (s.entriesOf trees).Nodup :=
  nodup_eraseDups _

theorem pathTags_append (s : Selection) (ns ms : List Node) :
    s.pathTags (ns ++ ms) = s.pathTags ns ++ s.pathTags ms := by
  simp [pathTags]

theorem mem_entriesOf_trail {text : String} {e : FlatEntry} :
    e ∈ s.entriesOf ([text].flatMap s.treesOf) ↔ ∃ top ∈ Outline.parse text, ∃ above r path h,
      Leads top (above ++ r :: path) h ∧ s.Marks r ∧ e = ⟨h.text, s.pathTags (r :: path)⟩ := by
  rw [mem_entriesOf_texts_iff]
  simp only [selects_iff_trail, List.mem_singleton, exists_eq_left]
  constructor
  · rintro ⟨h, tags, ⟨top, htop, above, r, path, htrail, hmarked, rfl⟩, rfl⟩
    exact ⟨top, htop, above, r, path, h, htrail, hmarked, rfl⟩
  · rintro ⟨top, htop, above, r, path, h, htrail, hmarked, rfl⟩
    exact ⟨h, _, ⟨top, htop, above, r, path, htrail, hmarked, rfl⟩, rfl⟩

theorem repeats_of_makes {above between path : List Node} {r r' : Node}
    (hr : s.Marks r) (hr' : s.Marks r')
    (hne : s.pathTags (r :: between ++ r' :: path) ≠ s.pathTags (r' :: path))
    (hupper : s.Makes heading (s.pathTags (r :: between ++ r' :: path)) rule)
    (hlower : s.Makes heading (s.pathTags (r' :: path)) rule) :
    s.Repeats (above ++ (r :: between ++ r' :: path)) := by
  rw [pathTags_append] at hne hupper
  refine ⟨above, r, between, r', path, rfl, hr, hr', hlower.not_ignored, fun hnil => ?_, fun t ht => ?_⟩
  · exact hne (by rw [hnil, List.nil_append])
  · exact (hupper.mem_iff hlower t).1 (List.mem_append_left _ ht)

theorem repeats_of_append_eq {above above' path path' : List Node} {r r' : Node}
    (heq : above ++ r :: path = above' ++ r' :: path') (hr : s.Marks r) (hr' : s.Marks r')
    (hne : s.pathTags (r :: path) ≠ s.pathTags (r' :: path'))
    (hmakes : s.Makes heading (s.pathTags (r :: path)) rule)
    (hmakes' : s.Makes heading (s.pathTags (r' :: path')) rule) :
    s.Repeats (above ++ r :: path) := by
  rcases List.append_eq_append_iff.1 heq with ⟨between, rfl, hcut⟩ | ⟨between, rfl, hcut⟩
  · cases between with
    | nil => exact absurd (by rw [hcut, List.nil_append]) hne
    | cons n between =>
      obtain ⟨rfl, rfl⟩ := List.cons.inj hcut
      exact repeats_of_makes hr hr' hne hmakes hmakes'
  · cases between with
    | nil => exact absurd (by rw [hcut, List.nil_append]) hne.symm
    | cons n between =>
      obtain ⟨rfl, rfl⟩ := List.cons.inj hcut
      rw [List.append_assoc]
      exact repeats_of_makes hr' hr hne.symm hmakes' hmakes

variable {text : String}

theorem exists_twice_of_repeats {top h : Node} {trail : List Node} (htop : top ∈ Outline.parse text)
    (htrail : Leads top trail h) (hshape : ∃ rule, s.Makes h.text [] rule) (hrepeats : s.Repeats trail) :
    ∃ a ∈ s.entriesOf ([text].flatMap s.treesOf), ∃ b ∈ s.entriesOf ([text].flatMap s.treesOf), a ≠ b ∧
      ∃ rule, s.Makes a.heading a.tags rule ∧ s.Makes b.heading b.tags rule := by
  obtain ⟨above, r, between, r', path, rfl, hr, hr', hignored, hne, hsubset⟩ := hrepeats
  obtain ⟨rule, hlower⟩ := exists_makes_iff.2 ⟨hignored, hshape⟩
  have hupper : s.Makes h.text (s.pathTags (r :: between ++ r' :: path)) rule := by
    refine hlower.congr fun t => ?_
    rw [pathTags_append, List.mem_append]
    exact ⟨.inr, fun ht => ht.elim (hsubset t) id⟩
  have htrail' : Leads top (above ++ r :: between ++ r' :: path) h := by
    rwa [List.append_assoc]
  refine ⟨⟨h.text, s.pathTags (r :: between ++ r' :: path)⟩, ?_, ⟨h.text, s.pathTags (r' :: path)⟩, ?_, ?_,
    rule, hupper, hlower⟩
  · exact mem_entriesOf_trail.2 ⟨top, htop, above, r, _, h, htrail, hr, rfl⟩
  · exact mem_entriesOf_trail.2 ⟨top, htop, _, r', path, h, htrail', hr', rfl⟩
  · rw [pathTags_append]
    simpa using hne

/-- Two entries that make one rule come from one heading, below two marked ones on its trail. -/
theorem exists_repeats_of_twice (hapart : s.Apart (Outline.parse text)) {a b : FlatEntry}
    (ha : a ∈ s.entriesOf ([text].flatMap s.treesOf)) (hb : b ∈ s.entriesOf ([text].flatMap s.treesOf))
    (hab : a ≠ b) (hmakesA : s.Makes a.heading a.tags rule) (hmakesB : s.Makes b.heading b.tags rule) :
    ∃ top ∈ Outline.parse text, ∃ trail h, Leads top trail h ∧ (∃ rule, s.Makes h.text [] rule) ∧
      s.Repeats trail := by
  obtain ⟨top, htop, above, r, path, h, htrail, hr, rfl⟩ := mem_entriesOf_trail.1 ha
  obtain ⟨top', htop', above', r', path', h', htrail', hr', rfl⟩ := mem_entriesOf_trail.1 hb
  dsimp only at hmakesA hmakesB
  -- Both headings decode to what the rule says, so they are one heading with one trail.
  have hone : (walkAll (Outline.parse text)).Pairwise fun a b =>
      s.decode? a.text = some rule.decoded → ¬ s.decode? b.text = some rule.decoded :=
    hapart.imp fun h => h rule.decoded
  obtain ⟨heq, rfl⟩ := Leads.unique hone htop htop' htrail htrail' hmakesA.decode? hmakesB.decode?
  refine ⟨top, htop, _, h, htrail, (exists_makes_iff.1 ⟨rule, hmakesA⟩).2, ?_⟩
  refine repeats_of_append_eq heq hr hr' ?_ hmakesA hmakesB
  exact fun htags => hab (by rw [htags])

end Selection

namespace Compile

/-- If no two headings of a document decode to the same, its table holds a rule twice exactly if some
heading with the shape of a rule stands on a trail with two marked headings that give it the same tags in
different lists. -/
theorem nodup_rules_iff_not_repeats {env : Environment} {files : FileTree} {document text : String}
    (s : Selection) (hkeywords : s.keywords.Nodup) (hdocument : Holds env files document text)
    (hapart : s.Apart (Outline.parse text)) :
    ∃ t, table s env files [document] = .ok t ∧
      (t.keywordRules.Nodup ∧ t.subscriptionRules.Nodup ↔
        ∀ top ∈ Outline.parse text, ∀ trail h, Leads top trail h →
          (∃ rule, s.Makes h.text [] rule) → ¬ s.Repeats trail) := by
  refine ⟨_, table_eq s (.cons hdocument .nil), ?_⟩
  rw [Selection.compileTexts, Selection.nodup_rules_iff hkeywords (s.nodup_entriesOf _)]
  constructor
  · intro hnodup top htop trail h htrail hshape hrepeats
    obtain ⟨a, ha, b, hb, hab, rule, hmakesA, hmakesB⟩ :=
      Selection.exists_twice_of_repeats htop htrail hshape hrepeats
    exact hnodup a ha b hb hab rule hmakesA hmakesB
  · intro hnone a ha b hb hab rule hmakesA hmakesB
    obtain ⟨top, htop, trail, h, htrail, hshape, hrepeats⟩ :=
      Selection.exists_repeats_of_twice hapart ha hb hab hmakesA hmakesB
    exact hnone top htop trail h htrail hshape hrepeats

/-- Both marked headings above the feed declare one tag, and the feed is subscribed twice. -/
theorem repeated_feed_subscribed_twice :
    let text := "* A :elfeed:news:\n** B :elfeed:news:\n*** http://a.example\n"
    let files : FileTree := { entries := [(["a.org"], .file (encodeUtf8 text))] }
    Holds {} files "a.org" text ∧ ((walkAll (Outline.parse text)).map (·.text)).Nodup ∧
      Selection.Apart {} (Outline.parse text) ∧
      ∃ t, table {} {} files ["a.org"] = .ok t ∧ ¬ t.subscriptionRules.Nodup := by
  intro text files
  have hholds : Holds {} files "a.org" text := ⟨_, rfl, by decide +kernel⟩
  refine ⟨hholds, by decide +kernel, Selection.apart_iff.2 (by decide +kernel), _,
    table_eq {} (.cons hholds .nil), by decide +kernel⟩

theorem nodup_rules_iff_not_repeats_of_marked :
    let text := "* A :elfeed:\n** B :elfeed:news:\n*** http://a.example\n*** entry-title: Lean :x:\n"
    let files : FileTree := { entries := [(["a.org"], .file (encodeUtf8 text))] }
    let s : Selection := {}
    s.keywords.Nodup ∧ Holds {} files "a.org" text ∧ s.Apart (Outline.parse text) ∧
      ∃ t, table s {} files ["a.org"] = .ok t ∧
        (t.keywordRules.Nodup ∧ t.subscriptionRules.Nodup ↔
          ∀ top ∈ Outline.parse text, ∀ trail h, Leads top trail h →
            (∃ rule, s.Makes h.text [] rule) → ¬ s.Repeats trail) ∧
        t.subscriptionRules = [⟨"http://a.example", .ofList ["news"], none⟩] := by
  intro text files s
  have hkeywords : s.keywords.Nodup := by decide
  have hholds : Holds {} files "a.org" text := ⟨_, rfl, by decide +kernel⟩
  have hapart : s.Apart (Outline.parse text) := Selection.apart_iff.2 (by decide +kernel)
  obtain ⟨t, ht, hnodup⟩ := nodup_rules_iff_not_repeats s hkeywords hholds hapart
  refine ⟨hkeywords, hholds, hapart, t, ht, hnodup, ?_⟩
  rw [← Except.ok.inj ((table_eq s (.cons hholds .nil)).symm.trans ht)]
  decide +kernel

end Compile

end FeedOutline
