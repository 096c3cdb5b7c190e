import FeedOutline.Proofs.Compile.Sources

/-!
Which ignored headings make rules after all. What a heading inherits is gathered from each marked heading
above it on its own, so an ignored heading that stands above a marked one goes unnoticed from there.
-/
namespace FeedOutline

open Disk (FileTree)
open Outline (Node walkAll Leads)
open Text

def RuleTable.Has (t : RuleTable) : Rule → Prop
  | .keyword r => r ∈ t.keywordRules
  | .subscription r => r ∈ t.subscriptionRules

namespace Selection

/-- A heading with this text and these tags makes that rule. -/
def Makes (s : Selection) (heading : String) (tags : List String) : Rule → Prop
  | .keyword r => KeywordOf s heading tags r
  | .subscription r => SubscriptionOf s heading tags r

/-- From some marked heading on the trail, which ends at `h`, that rule is made of `h`. -/
def Contributes (s : Selection) (trail : List Node) (h : Node) (rule : Rule) : Prop :=
  ∃ above r path, trail = above ++ r :: path ∧ s.Marks r ∧ s.Makes h.text (s.pathTags (r :: path)) rule

variable {s : Selection} {texts : List String}

theorem has_iff_selects {rule : Rule} :
    (s.compileTexts texts).Has rule ↔
      ∃ h tags, s.Selects texts h tags ∧ s.Makes h.text tags rule := by
  cases rule with
  | keyword r => exact mem_keywordRules_iff
  | subscription r => exact mem_subscriptionRules_iff

/-- A heading is selected from each marked heading on the trail to it. -/
theorem selects_iff_trail {h : Node} {tags : List String} :
    s.Selects texts h tags ↔ ∃ text ∈ texts, ∃ top ∈ Outline.parse text, ∃ above r path,
      Leads top (above ++ r :: path) h ∧ s.Marks r ∧ tags = s.pathTags (r :: path) := by
  constructor
  · rintro ⟨text, htext, r, hr, hmarked, path, hpath, rfl⟩
    obtain ⟨top, htop, above, habove⟩ := Outline.mem_walkAll_iff.1 hr
    obtain ⟨below, rfl⟩ : ∃ below, path = r :: below := by
      cases path with
      | nil => exact absurd rfl hpath.ne_nil
      | cons n below => exact ⟨below, by rw [(Leads.cons_iff.1 hpath).1]⟩
    exact ⟨text, htext, top, htop, _, r, below, habove.trans hpath, hmarked, rfl⟩
  · rintro ⟨text, htext, top, htop, above, r, path, htrail, hmarked, rfl⟩
    obtain ⟨habove, hpath⟩ := htrail.of_append
    have hr : r ∈ walkAll (Outline.parse text) :=
      Outline.mem_walkAll_iff.2 ⟨top, htop, _, habove⟩
    exact ⟨text, htext, r, hr, hmarked, _, hpath, rfl⟩

/-- The rules of a table are those that the headings of the texts contribute. -/
theorem has_iff_contributes {rule : Rule} :
    (s.compileTexts texts).Has rule ↔
      ∃ text ∈ texts, ∃ top ∈ Outline.parse text, ∃ trail h, Leads top trail h ∧
        s.Contributes trail h rule := by
  rw [has_iff_selects]
  constructor
  · rintro ⟨h, tags, hselects, hmakes⟩
    obtain ⟨text, htext, top, htop, above, r, path, htrail, hmarked, rfl⟩ :=
      selects_iff_trail.1 hselects
    exact ⟨text, htext, top, htop, _, h, htrail, above, r, path, rfl, hmarked, hmakes⟩
  · rintro ⟨text, htext, top, htop, trail, h, htrail, above, r, path, rfl, hmarked, hmakes⟩
    exact ⟨h, _, selects_iff_trail.2 ⟨text, htext, top, htop, above, r, path, htrail, hmarked, rfl⟩, hmakes⟩

theorem exists_makes_iff {heading : String} {tags : List String} :
    (∃ rule, s.Makes heading tags rule) ↔
      s.ignoreTag ∉ tags ∧ ∃ rule, s.Makes heading [] rule := by
  constructor
  · rintro ⟨rule, hrule⟩
    cases rule with
    | keyword r =>
      obtain ⟨hignored, hfield, hstarts, hvalue, -⟩ := hrule
      exact ⟨hignored, .keyword { r with addTags := .empty }, by simp, hfield, hstarts, hvalue,
        by simp⟩
    | subscription r =>
      obtain ⟨hignored, hrelevant, hkeyword, hnames, hurl, hblank, -⟩ := hrule
      exact ⟨hignored, .subscription { r with addTags := .empty }, by simp, hrelevant, hkeyword,
        hnames, hurl, hblank, by simp⟩
  · rintro ⟨hignored, rule, hrule⟩
    cases rule with
    | keyword r =>
      obtain ⟨-, hfield, hstarts, hvalue, -⟩ := hrule
      exact ⟨.keyword { r with addTags := .ofList tags }, hignored, hfield, hstarts, hvalue, by simp⟩
    | subscription r =>
      obtain ⟨-, hrelevant, hkeyword, hnames, hurl, hblank, -⟩ := hrule
      exact ⟨.subscription { r with addTags := .ofList tags }, hignored, hrelevant, hkeyword, hnames,
        hurl, hblank, by simp⟩

theorem mem_pathTags_iff {path : List Node} {t : String} :
    t ∈ s.pathTags path ↔ (∃ n ∈ path, t ∈ n.tags) ∧ t ≠ s.marker := by
  simp [pathTags]

theorem ignoreTag_not_mem_pathTags (hne : s.ignoreTag ≠ s.marker) {path : List Node} :
    s.ignoreTag ∉ s.pathTags path ↔ ∀ n ∈ path, s.ignoreTag ∉ n.tags := by
  rw [mem_pathTags_iff, not_and_or, not_not, or_iff_left hne]
  simp

/-- A heading contributes a rule if it has the shape of one and is not ignored from some marked heading
on. -/
theorem exists_contributes_iff (hne : s.ignoreTag ≠ s.marker) {trail : List Node} {h : Node} :
    (∃ rule, s.Contributes trail h rule) ↔
      (∃ rule, s.Makes h.text [] rule) ∧ ∃ above r path, trail = above ++ r :: path ∧ s.Marks r ∧
        ∀ n ∈ r :: path, s.ignoreTag ∉ n.tags := by
  constructor
  · rintro ⟨rule, above, r, path, rfl, hmarked, hmakes⟩
    obtain ⟨hignored, hshape⟩ := exists_makes_iff.1 ⟨rule, hmakes⟩
    exact ⟨hshape, above, r, path, rfl, hmarked, (ignoreTag_not_mem_pathTags hne).1 hignored⟩
  · rintro ⟨hshape, above, r, path, rfl, hmarked, hignored⟩
    obtain ⟨rule, hrule⟩ :=
      exists_makes_iff.2 ⟨(ignoreTag_not_mem_pathTags hne).2 hignored, hshape⟩
    exact ⟨rule, above, r, path, rfl, hmarked, hrule⟩

theorem append_cons_iff_below {above below : List Node} {i : Node} (hi : s.ignoreTag ∈ i.tags)
    (hbelow : ∀ n ∈ below, s.ignoreTag ∉ n.tags) {p : Node → Prop} :
    (∃ before r path, above ++ i :: below = before ++ r :: path ∧ p r ∧
      ∀ n ∈ r :: path, s.ignoreTag ∉ n.tags) ↔ ∃ r ∈ below, p r := by
  constructor
  · rintro ⟨before, r, path, heq, hr, hpath⟩
    rcases List.append_eq_append_iff.1 heq with ⟨between, rfl, hcut⟩ | ⟨between, rfl, hcut⟩
    · cases between with
      | nil =>
        obtain ⟨rfl, -⟩ := List.cons.inj hcut
        exact absurd hi (hpath _ (List.mem_cons_self ..))
      | cons n between =>
        obtain ⟨-, rfl⟩ := List.cons.inj hcut
        exact ⟨r, by simp, hr⟩
    · exact absurd hi (hpath i (by simp [hcut]))
  · rintro ⟨r, hr, hp⟩
    obtain ⟨between, path, rfl⟩ := List.append_of_mem hr
    refine ⟨above ++ i :: between, r, path, by simp, hp, fun n hn => hbelow n ?_⟩
    exact List.mem_append_right _ hn

end Selection

namespace Compile

/-- An ignored heading makes rules exactly if it has the shape of one and a marked heading, itself
counted, stands below the last ignored heading on the way to it. -/
theorem ignored_contributes_iff {env : Environment} {files : FileTree}
    {documents texts : List String} (s : Selection) (hne : s.ignoreTag ≠ s.marker)
    (hdocuments : List.Forall₂ (Holds env files) documents texts) :
    ∃ t, table s env files documents = .ok t ∧
      (∀ rule, t.Has rule ↔ ∃ text ∈ texts, ∃ top ∈ Outline.parse text, ∃ trail h,
        Leads top trail h ∧ s.Contributes trail h rule) ∧
      ∀ text ∈ texts, ∀ top ∈ Outline.parse text, ∀ above i below h,
        Leads top (above ++ i :: below) h → s.ignoreTag ∈ i.tags →
        (∀ n ∈ below, s.ignoreTag ∉ n.tags) →
        ((∃ rule, s.Contributes (above ++ i :: below) h rule) ↔
          (∃ rule, s.Makes h.text [] rule) ∧ ∃ r ∈ below, s.Marks r) := by
  refine ⟨s.compileTexts texts, table_eq s hdocuments, fun _ => Selection.has_iff_contributes, ?_⟩
  intro text _ top _ above i below h _ hi hbelow
  rw [Selection.exists_contributes_iff hne, Selection.append_cons_iff_below hi hbelow]

/-- The feed below an ignored heading is subscribed, as a marked heading stands between the two. -/
theorem ignored_feed_subscribed :
    let text := "* Feeds :elfeed:\n** Dead :ignore:\n*** Sub :elfeed:\n**** http://dead.example/feed\n"
    let files : FileTree := { entries := [(["a.org"], .file (encodeUtf8 text))] }
    List.Forall₂ (Holds {} files) ["a.org"] [text] ∧
      ∃ t, table {} {} files ["a.org"] = .ok t ∧ ∃ top ∈ Outline.parse text, ∃ trail h,
        Leads top trail h ∧ (∃ n ∈ trail, "ignore" ∈ n.tags) ∧
        ∃ rule, t.Has rule ∧ Selection.Contributes {} trail h rule := by
  intro text files
  have hholds : List.Forall₂ (Holds {} files) ["a.org"] [text] :=
    .cons ⟨_, rfl, by decide +kernel⟩ .nil
  let rule : SubscriptionRule := ⟨"http://dead.example/feed", .empty, none⟩
  have hrule : (Selection.compileTexts {} [text]).Has (.subscription rule) :=
    show rule ∈ (Selection.compileTexts {} [text]).subscriptionRules by decide +kernel
  obtain ⟨_, htext, top, htop, trail, h, htrail, hcontributes⟩ :=
    Selection.has_iff_contributes.1 hrule
  rw [List.mem_singleton] at htext
  subst htext
  refine ⟨hholds, _, table_eq {} hholds, top, htop, trail, h, htrail, ?_, _, hrule, hcontributes⟩
  obtain ⟨above, r, path, -, -, hmakes⟩ := hcontributes
  have hrelevant : (⟨h.text, []⟩ : FlatEntry).isRelevant "ignore" Keyword.all = true :=
    FlatEntry.isRelevant_iff.2 ⟨by simp, hmakes.relevant⟩
  have hentry : (⟨h.text, trail.flatMap (·.tags)⟩ : FlatEntry) ∈ inheritAll [] (Outline.parse text) :=
    mem_inheritAll_iff.2 ⟨top, htop, trail, h, htrail, rfl⟩
  have hall : ∀ e ∈ inheritAll [] (Outline.parse text),
      (⟨e.heading, []⟩ : FlatEntry).isRelevant "ignore" Keyword.all = true → "ignore" ∈ e.tags := by
    decide +kernel
  exact List.mem_flatMap.1 (hall _ hentry hrelevant)

theorem ignored_contributes_iff_of_id :
    let text := "* Feeds :elfeed:\n** Dead :ignore:\n*** entry-title: Lean :a:\n:PROPERTIES:\n:ID: elfeed\n:END:\n"
    let files : FileTree := { entries := [(["a.org"], .file (encodeUtf8 text))] }
    let s : Selection := {}
    s.ignoreTag ≠ s.marker ∧ List.Forall₂ (Holds {} files) ["a.org"] [text] ∧
      ∃ t, table s {} files ["a.org"] = .ok t ∧
        (∀ rule, t.Has rule ↔ ∃ x ∈ [text], ∃ top ∈ Outline.parse x, ∃ trail h,
          Leads top trail h ∧ s.Contributes trail h rule) ∧
        (∀ x ∈ [text], ∀ top ∈ Outline.parse x, ∀ above i below h,
          Leads top (above ++ i :: below) h → s.ignoreTag ∈ i.tags →
          (∀ n ∈ below, s.ignoreTag ∉ n.tags) →
          ((∃ rule, s.Contributes (above ++ i :: below) h rule) ↔
            (∃ rule, s.Makes h.text [] rule) ∧ ∃ r ∈ below, s.Marks r)) ∧
        t = ⟨[⟨.entryTitle, "Lean", .ofList ["a"]⟩], []⟩ := by
  intro text files s
  have hne : s.ignoreTag ≠ s.marker := by decide
  have hholds : List.Forall₂ (Holds {} files) ["a.org"] [text] :=
    .cons ⟨_, rfl, by decide +kernel⟩ .nil
  obtain ⟨t, ht, hhas, hignored⟩ := ignored_contributes_iff s hne hholds
  refine ⟨hne, hholds, t, ht, hhas, hignored, ?_⟩
  have htexts : t = s.compileTexts [text] := Except.ok.inj (ht.symm.trans (table_eq s hholds))
  rw [htexts]
  decide +kernel

end Compile

end FeedOutline
