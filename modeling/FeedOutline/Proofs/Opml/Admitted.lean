import FeedOutline.Markup.Reference
import FeedOutline.Proofs.Classified.Named
import FeedOutline.Proofs.Opml.FeedText
import FeedOutline.Proofs.RuleTable

/-!
Subscriptions as documents give rise to them, and the headings that are written for them. A heading names
its feed again unless a bare address stands there that is not recognised by itself.
-/
namespace FeedOutline

open Markup (isLegal)
open Opml (FeedText)
open Text

theorem Markup.isLegal_of_isTagChar {c : Char} (h : isTagChar c = true) : isLegal c = true := by
  have hcodes : ∀ n ∈ List.range 32 ++ [0xFFFE, 0xFFFF], isTagChar (Char.ofNat n) = false := by
    decide +kernel
  by_contra hnot
  have hmem : c.toNat ∈ List.range 32 ++ [0xFFFE, 0xFFFF] := by
    by_contra hother
    simp only [List.mem_append, List.mem_range, List.mem_cons, List.not_mem_nil, or_false] at hother
    simp_all [isLegal]
  have hplain := hcodes _ hmem
  rw [Char.ofNat_toNat, h] at hplain
  cases hplain

namespace SubscriptionRule

/-- A rule as a heading of a document can make it. -/
structure Admitted (r : SubscriptionRule) : Prop where
  made : make r.feedUrl r.addTags r.title = .ok r
  bracket : ']' ∈ r.feedUrl.toList → "http".toList <+: r.feedUrl.toList ∧ r.title = none
  title : ∀ t ∈ r.title, t ≠ "" ∧ Trimmed isBlank t.toList ∧ ∀ c ∈ t.toList, isBreak c = false
  tag : ∀ t ∈ r.addTags, isTag t.toList = true

def Legal (r : SubscriptionRule) : Prop :=
  ∀ c ∈ r.feedUrl.toList ++ (r.title.getD "").toList, isLegal c = true

instance (r : SubscriptionRule) : Decidable r.Legal :=
  inferInstanceAs (Decidable (∀ c ∈ r.feedUrl.toList ++ (r.title.getD "").toList, isLegal c = true))

/-- The rule has no title, or its address or its title holds a word that makes a heading relevant. -/
def Mentioned (keywords : List Keyword) (r : SubscriptionRule) : Prop :=
  ∀ t ∈ r.title, Mentions keywords r.feedUrl.toList ∨ Mentions keywords t.toList

def written (r : SubscriptionRule) : String :=
  Link.heading r.feedUrl (r.title.filter (· != r.feedUrl))

/-- The address is recognised by itself, or it stands in a link. -/
def IsNamed (r : SubscriptionRule) : Prop :=
  "http".toList <+: r.feedUrl.toList ∨ r.title.getD r.feedUrl ≠ r.feedUrl

instance (r : SubscriptionRule) : Decidable r.IsNamed :=
  inferInstanceAs (Decidable (_ ∨ _))

namespace Admitted

variable {r : SubscriptionRule}

theorem url_ne (h : r.Admitted) : r.feedUrl ≠ "" :=
  (make_eq_ok_iff.1 h.made).2.1

theorem no_blank (h : r.Admitted) : ∀ c ∈ r.feedUrl.toList, isBlank c = false :=
  (make_eq_ok_iff.1 h.made).2.2

theorem written_cases (h : r.Admitted) (hnamed : r.IsNamed) :
    ("http".toList <+: r.feedUrl.toList ∧ r.written = r.feedUrl) ∨
      ∃ t, r.title = some t ∧ ']' ∉ r.feedUrl.toList ∧ r.written = Link.heading r.feedUrl (some t) := by
  cases hshown : r.title.filter (· != r.feedUrl) with
  | none =>
    refine .inl ⟨hnamed.resolve_right fun hne => ?_, by rw [written, hshown, Link.heading_none]⟩
    cases htitle : r.title with
    | none => simp [htitle] at hne
    | some t => simp_all [Option.filter_some]
  | some t =>
    obtain ⟨htitle, -⟩ := Option.filter_eq_some_iff.1 hshown
    refine .inr ⟨t, htitle, fun hmem => ?_, by rw [written, hshown]⟩
    simp [(h.bracket hmem).2] at htitle

theorem feedText_written (h : r.Admitted) (hnamed : r.IsNamed) :
    ∃ title, FeedText r.feedUrl.toList r.written.toList title := by
  rcases h.written_cases hnamed with ⟨hhttp, hwritten⟩ | ⟨t, htitle, hno, hwritten⟩
  · rw [hwritten]
    exact ⟨none, .address hhttp⟩
  · obtain ⟨hne, htrim, hbreak⟩ := h.title t htitle
    rw [hwritten]
    exact ⟨_, Opml.feedText_titled h.url_ne hno hne htrim hbreak⟩

theorem mentions_written (h : r.Admitted) (hnamed : r.IsNamed) {keywords : List Keyword}
    (hmentions : r.Mentioned keywords) : Mentions keywords r.written.toList := by
  rcases h.written_cases hnamed with ⟨hhttp, hwritten⟩ | ⟨t, htitle, -, hwritten⟩
  · rw [hwritten]
    exact .inl hhttp.isInfix
  · obtain ⟨hne, htrim, -⟩ := h.title t htitle
    rw [hwritten, Link.heading_titled _ hne htrim]
    rcases hmentions t htitle with hurl | ht
    · obtain ⟨word, -, hpart, hmention⟩ := hurl.exists_word
      refine hmention _ (hpart.trans
        ⟨"[[".toList, "][".toList ++ (Link.roundBrackets t.toList ++ "]]".toList), ?_⟩)
      rw [← List.append_assoc, ← List.append_assoc]
    · obtain ⟨word, hword, hinfix, hmention⟩ := ht.exists_word
      have hround : Link.roundBrackets word = word :=
        Link.roundBrackets_eq fun c hc => (hword.2 c hc).2
      have hmap : Link.roundBrackets word <:+: Link.roundBrackets t.toList := hinfix.map _
      rw [hround] at hmap
      exact hmention _ (hmap.trans ⟨"[[".toList ++ r.feedUrl.toList ++ "][".toList, "]]".toList, rfl⟩)

/-- An address that is not named is written bare. -/
theorem written_eq (hnot : ¬ r.IsNamed) : r.written = r.feedUrl := by
  have heq : r.title.getD r.feedUrl = r.feedUrl := by
    by_contra hne
    exact hnot (.inr hne)
  rw [written]
  cases htitle : r.title with
  | none => rfl
  | some t =>
    rw [htitle, Option.getD_some] at heq
    simp [Option.filter_some, heq, Link.heading_none]

theorem not_namesFeed (h : r.Admitted) (hnot : ¬ r.IsNamed) {text : List Char}
    (htext : text = r.feedUrl.toList ∨ text = []) (url : String) (title : Option String) :
    ¬ NamesFeed (trim text) url title := by
  have hhttp : ¬ "http".toList <+: r.feedUrl.toList := fun hprefix => hnot (.inl hprefix)
  have hno : ']' ∉ r.feedUrl.toList := fun hmem => hhttp (h.bracket hmem).1
  have htrim : trim r.feedUrl.toList = r.feedUrl.toList := (Trimmed.of_forall h.no_blank).trimmed_eq
  have hempty : trim [] = [] := rfl
  intro hnames
  have hbracket : "http".toList <+: trim text ∨ ']' ∈ trim text := by
    generalize trim text = text' at hnames
    cases hnames with
    | address hprefix => exact .inl hprefix
    | bare => exact .inr (by simp)
    | titled => exact .inr (by simp)
  rcases htext with rfl | rfl
  · rw [htrim] at hbracket
    exact hbracket.elim hhttp hno
  · rw [hempty] at hbracket
    simp at hbracket

end Admitted

end SubscriptionRule

end FeedOutline
