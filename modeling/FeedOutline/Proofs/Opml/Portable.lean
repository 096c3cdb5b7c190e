import FeedOutline.Opml.Import
import FeedOutline.Proofs.Opml.Admitted

/-!
Subscriptions that a list for other readers can carry over. Such a subscription is written as one heading
that names its feed and carries its tags.
-/
namespace FeedOutline

open Markup (isLegal)
open Opml
open Outline (lastWord tagGroup? tagSuffix)
open Text

/-- A tag that an outline and a list of categories both keep as it is. -/
@[mk_iff] structure KeptTag (tag : String) : Prop where
  isTag : isTag tag.toList = true
  lower : lower tag.toList = tag.toList
  trimmed : Trimmed (· == '_') tag.toList
  legal : ∀ c ∈ tag.toList, isLegal c = true

@[mk_iff] structure KeptTitle (title : String) : Prop where
  ne : title ≠ ""
  trimmed : Trimmed isBlank title.toList
  plain : ∀ c ∈ title.toList, c ≠ '[' ∧ c ≠ ']' ∧ isBreak c = false
  legal : ∀ c ∈ title.toList, isLegal c = true

/-- A rule that can be made, and whose parts all can be carried over. -/
@[mk_iff] structure SubscriptionRule.Portable (r : SubscriptionRule) : Prop where
  made : make r.feedUrl r.addTags r.title = .ok r
  starts : "http".toList <+: r.feedUrl.toList
  no_bracket : ']' ∉ r.feedUrl.toList
  legal : ∀ c ∈ r.feedUrl.toList, isLegal c = true
  title : ∀ t ∈ r.title, KeptTitle t ∧ t ≠ r.feedUrl
  tag : ∀ t ∈ r.addTags, KeptTag t

instance (tag : String) : Decidable (KeptTag tag) :=
  decidable_of_iff' _ (keptTag_iff tag)

instance (title : String) : Decidable (KeptTitle title) :=
  decidable_of_iff' _ (keptTitle_iff title)

instance (r : SubscriptionRule) : Decidable (SubscriptionRule.make r.feedUrl r.addTags r.title = .ok r) :=
  decidable_of_iff' _ SubscriptionRule.make_eq_ok_iff

instance (r : SubscriptionRule) : Decidable (∀ t ∈ r.addTags, KeptTag t) :=
  inferInstanceAs (Decidable (∀ t ∈ r.addTags.toList, KeptTag t))

instance (r : SubscriptionRule) : Decidable r.Portable :=
  decidable_of_iff' _ (SubscriptionRule.portable_iff r)

/-! Categories and annotations of kept tags. -/

theorem joinRuns_eq {s : List Char} (h : ∀ c ∈ s, isTagChar c = true) : joinRuns s = s := by
  induction s with
  | nil => rfl
  | cons c s ih =>
    rw [List.forall_mem_cons] at h
    rw [joinRuns, if_pos h.1, ih h.2]

theorem tagOfName?_eq_some {tag : String} (htag : isTag tag.toList = true) (hlower : lower tag.toList = tag.toList)
    (htrimmed : Trimmed (· == '_') tag.toList) : tagOfName? tag = some tag := by
  obtain ⟨hne, hchars⟩ := isTag_iff.1 htag
  have htrim : trim tag.toList = tag.toList :=
    (Trimmed.of_forall fun c hc => isBlank_of_isTagChar (hchars c hc)).trimmed_eq
  rw [tagOfName?, htrim, hlower, joinRuns_eq hchars, htrimmed.trimmed_eq]
  simp [hne]

theorem KeptTag.tagOfName? {tag : String} (h : KeptTag tag) : tagOfName? tag = some tag :=
  tagOfName?_eq_some h.isTag h.lower h.trimmed

theorem categoryTags_joined {tags : List String} (hne : tags ≠ [])
    (h : ∀ t ∈ tags, isTag t.toList = true) :
    categoryTags (joined "," tags) = tags.map Opml.tagOfName? := by
  have hsplit : ∀ t ∈ tags, ∀ c ∈ t.toList, (c == ',' || c == '/') = false := by
    intro t ht c hc
    have htag := (isTag_iff.1 (h t ht)).2 c hc
    simpa using ⟨ne_of_isTagChar htag (by decide), ne_of_isTagChar htag (by decide)⟩
  rw [categoryTags, splitWhere_joined (by rfl) (by decide) hne hsplit, List.map_map]
  refine List.map_congr_left fun t _ => ?_
  rw [Function.comp_apply, String.ofList_toList]

theorem categoryTags_empty : categoryTags "" = [none] := by
  decide +kernel

theorem tagSuffix_categoryTags {tags : List String} (h : ∀ t ∈ tags, isTag t.toList = true) :
    tagSuffix (categoryTags (joined "," tags)) = tagSuffix (tags.map Opml.tagOfName?) := by
  by_cases hne : tags = []
  · rw [hne, joined, categoryTags_empty]
    decide +kernel
  · rw [categoryTags_joined hne h]

/-! The heading of a portable subscription. -/

def SubscriptionRule.heading (r : SubscriptionRule) : String :=
  Link.heading r.feedUrl r.title

namespace SubscriptionRule.Portable

variable {r : SubscriptionRule}

theorem no_blank (h : r.Portable) : ∀ c ∈ r.feedUrl.toList, isBlank c = false :=
  (make_eq_ok_iff.1 h.made).2.2

theorem admitted (h : r.Portable) : r.Admitted where
  made := h.made
  bracket hmem := absurd hmem h.no_bracket
  title t ht :=
    have hkept := (h.title t ht).1
    ⟨hkept.ne, hkept.trimmed, fun c hc => (hkept.plain c hc).2.2⟩
  tag t ht := (h.tag t ht).isTag

theorem isLegal (h : r.Portable) : r.Legal := by
  rw [Legal, List.forall_mem_append]
  refine ⟨h.legal, ?_⟩
  cases htitle : r.title with
  | none => simp
  | some t => exact (h.title t htitle).1.legal

theorem written_eq (h : r.Portable) : r.written = r.heading := by
  have hkept : r.title.filter (· != r.feedUrl) = r.title := by
    cases htitle : r.title with
    | none => rfl
    | some t => simp [Option.filter_some, (h.title t htitle).2]
  rw [written, hkept, heading]

theorem map_tagOfName? (h : r.Portable) : r.addTags.toList.map Opml.tagOfName? = r.addTags.toList.map some :=
  List.map_congr_left fun t ht => (h.tag t ht).tagOfName?

theorem feedText (h : r.Portable) :
    FeedText r.feedUrl.toList r.heading.toList (r.title.map String.toList) := by
  cases htitle : r.title with
  | none =>
    rw [heading, htitle]
    exact feedText_address h.starts
  | some t =>
    obtain ⟨ht, -⟩ := h.title t htitle
    have hround : Link.roundBrackets t.toList = t.toList :=
      Link.roundBrackets_eq fun c hc => ⟨(ht.plain c hc).1, (ht.plain c hc).2.1⟩
    have hlink := feedText_titled h.admitted.url_ne h.no_bracket ht.ne ht.trimmed fun c hc => (ht.plain c hc).2.2
    rwa [hround, ← htitle] at hlink

theorem isHeadingText (h : r.Portable) : IsHeadingText r.heading.toList :=
  h.feedText.isHeadingText h.no_blank

theorem names (h : r.Portable) : NamesFeed r.heading.toList r.feedUrl r.title := by
  have hnames := h.feedText.names h.no_blank
  rwa [Option.map_map, String.ofList_toList, String.ofList_comp_toList, Option.map_id_fun, id] at hnames

theorem http_infix_heading (h : r.Portable) : "http".toList <:+: r.heading.toList :=
  h.starts.isInfix.trans h.names.url_infix

end SubscriptionRule.Portable

end FeedOutline
