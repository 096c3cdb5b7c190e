import FeedOutline.Classified
import FeedOutline.Proofs.Text.Search
import Mathlib.Data.List.TakeWhile

/-!
The shapes of headings: a keyword with a value, an address, or a link. What a heading is classified as
is determined by the shape of its text.
-/
namespace FeedOutline

open Text

def Keyword.start (k : Keyword) : List Char :=
  (k.name ++ ":").toList

/-- How a trimmed heading names a feed: it is an address, or as a whole a link with or without a title. -/
inductive NamesFeed : List Char → String → Option String → Prop
  | address {s} : "http".toList <+: s → NamesFeed s (String.ofList s) none
  | bare {u} : u ≠ [] → ']' ∉ u →
      NamesFeed ("[[".toList ++ u ++ "]]".toList) (String.ofList (trim u)) none
  | titled {u t} : u ≠ [] → ']' ∉ u → ']' ∉ t →
      NamesFeed ("[[".toList ++ u ++ "][".toList ++ t ++ "]]".toList) (String.ofList (trim u))
        (if trim t = [] then none else some (String.ofList (trim t)))

namespace Keyword

theorem start_eq (k : Keyword) : k.start = k.name.toList ++ [':'] := by
  simp [start]

theorem colon_not_mem_name (k : Keyword) : ':' ∉ k.name.toList := by
  cases k <;> decide

theorem name_injective {k l : Keyword} (h : k.name = l.name) : k = l := by
  cases k <;> cases l <;> first | rfl | exact absurd h (by decide)

theorem eq_of_start {k l : Keyword} {r s : List Char} (h : k.start ++ r = l.start ++ s) : k = l := by
  have hname (m : Keyword) (t : List Char) : (m.start ++ t).takeWhile (· != ':') = m.name.toList := by
    rw [start_eq, List.append_assoc]
    refine takeWhile_append_stop (fun c hc => ?_) (by simp)
    simpa using fun hcolon : c = ':' => m.colon_not_mem_name (hcolon ▸ hc)
  refine name_injective (String.toList_injective ?_)
  rw [← hname k r, h, hname]

end Keyword

namespace FlatEntry

variable {keywords : List Keyword} {e : FlatEntry}

theorem isRelevant_iff {ignoreTag : String} :
    e.isRelevant ignoreTag keywords = true ↔ ignoreTag ∉ e.tags ∧
      ("http".toList <:+: e.heading.toList ∨ ∃ k ∈ keywords, k.name.toList <:+: e.heading.toList) := by
  simp [isRelevant, containsString_iff]

theorem keywordValue?_eq_none_iff :
    e.keywordValue? keywords = none ↔ ∀ k ∈ keywords, ¬ k.start <+: e.heading.toList := by
  rw [keywordValue?, List.findSome?_eq_none_iff]
  refine forall₂_congr fun k _ => ?_
  rw [Option.map_eq_none_iff, Option.eq_none_iff_forall_ne_some]
  simp only [ne_eq, afterStart?_eq_some_iff]
  exact ⟨fun h ⟨r, hr⟩ => h r hr.symm, fun h r hr => h ⟨r, hr.symm⟩⟩

theorem keywordValue?_eq_some_iff {k : Keyword} {value : List Char} :
    e.keywordValue? keywords = some (k, value) ↔
      k ∈ keywords ∧ ∃ rest, e.heading.toList = k.start ++ rest ∧ value = trim rest := by
  constructor
  · intro h
    obtain ⟨l, hl, hvalue⟩ := List.exists_of_findSome?_eq_some h
    obtain ⟨rest, hrest, heq⟩ := Option.map_eq_some_iff.1 hvalue
    cases heq
    exact ⟨hl, rest, afterStart?_eq_some_iff.1 hrest, rfl⟩
  · rintro ⟨hk, rest, hrest, rfl⟩
    cases h : e.keywordValue? keywords with
    | none => exact absurd ⟨rest, hrest.symm⟩ (keywordValue?_eq_none_iff.1 h k hk)
    | some found =>
      obtain ⟨l, hl, hvalue⟩ := List.exists_of_findSome?_eq_some h
      obtain ⟨rest', hrest', rfl⟩ := Option.map_eq_some_iff.1 hvalue
      replace hrest' := afterStart?_eq_some_iff.1 hrest'
      have hkl : k = l := Keyword.eq_of_start (hrest.symm.trans hrest')
      subst hkl
      rw [List.append_cancel_left (hrest'.symm.trans hrest)]

end FlatEntry

theorem Link.trimmed?_eq (s : List Char) :
    trimmed? s = if trim s = [] then none else some (String.ofList (trim s)) := by
  simp [trimmed?]

theorem Link.not_bracket_of_mem {u : List Char} (hu : ']' ∉ u) : ∀ c ∈ u, notBracket c = true := by
  intro c hc
  simpa [notBracket] using fun hbracket : c = ']' => hu (hbracket ▸ hc)

theorem Link.bracket_not_mem_takeWhile (s : List Char) : ']' ∉ s.takeWhile notBracket := by
  intro h
  have hnot := List.mem_takeWhile_imp h
  simp [notBracket] at hnot

theorem Link.ofText?_bare {u : List Char} (hne : u ≠ []) (hu : ']' ∉ u) :
    ofText? ("[[".toList ++ u ++ "]]".toList) = some ⟨String.ofList (trim u), none⟩ := by
  have hstop : ∀ c ∈ "]]".toList.head?, notBracket c = false := by simp [notBracket]
  have htake := takeWhile_append_stop (not_bracket_of_mem hu) hstop
  have hdrop := dropWhile_append_stop (not_bracket_of_mem hu) hstop
  simp only [String.reduceToList] at htake hdrop ⊢
  simp [ofText?, htake, hdrop, hne]

theorem Link.ofText?_titled {u t : List Char} (hne : u ≠ []) (hu : ']' ∉ u) (ht : ']' ∉ t) :
    ofText? ("[[".toList ++ u ++ "][".toList ++ t ++ "]]".toList) =
      some ⟨String.ofList (trim u), trimmed? t⟩ := by
  have hstop (r : List Char) : ∀ c ∈ (']' :: r).head?, notBracket c = false := by simp [notBracket]
  have htake := takeWhile_append_stop (not_bracket_of_mem hu) (hstop ('[' :: (t ++ [']', ']'])))
  have hdrop := dropWhile_append_stop (not_bracket_of_mem hu) (hstop ('[' :: (t ++ [']', ']'])))
  have htake' := takeWhile_append_stop (not_bracket_of_mem ht) (hstop [']'])
  have hdrop' := dropWhile_append_stop (not_bracket_of_mem ht) (hstop [']'])
  simp only [String.reduceToList]
  simp [ofText?, htake, hdrop, htake', hdrop', hne]

theorem Link.namesFeed_of_ofText? {s : List Char} {l : Link} (h : ofText? s = some l) :
    NamesFeed s l.url l.title := by
  unfold ofText? at h
  split at h
  · next s =>
    have hs : s = s.takeWhile notBracket ++ s.dropWhile notBracket :=
      List.takeWhile_append_dropWhile.symm
    dsimp only at h
    split at h
    · cases h
    · next hne =>
      rw [List.isEmpty_iff] at hne
      split at h
      · next hrest =>
        cases Option.some.inj h
        rw [hrest] at hs
        have hlink := NamesFeed.bare hne (bracket_not_mem_takeWhile s)
        simpa [← hs] using hlink
      · next t hrest =>
        split at h
        · next ht =>
          cases Option.some.inj h
          have htitle : t = t.takeWhile notBracket ++ [']', ']'] := by
            rw [← eq_of_beq ht, List.takeWhile_append_dropWhile]
          have hlink := NamesFeed.titled hne (bracket_not_mem_takeWhile s)
            (bracket_not_mem_takeWhile t)
          rw [hrest, htitle] at hs
          rw [trimmed?_eq]
          simpa [← hs] using hlink
        · cases h
      · cases h
  · cases h

theorem FlatEntry.subscription?_eq_some_iff {e : FlatEntry} {s : Subscription} :
    e.subscription? = some s ↔ NamesFeed (trim e.heading.toList) s.url s.title ∧ s.tags = e.tags := by
  unfold subscription?
  dsimp only
  constructor
  · intro h
    split at h
    · next hhttp =>
      cases Option.some.inj h
      exact ⟨.address (List.isPrefixOf_iff_prefix.1 hhttp), rfl⟩
    · obtain ⟨l, hl, rfl⟩ := Option.map_eq_some_iff.1 h
      exact ⟨Link.namesFeed_of_ofText? hl, rfl⟩
  · obtain ⟨url, tags, title⟩ := s
    rintro ⟨hnames, rfl⟩
    dsimp only at hnames
    generalize trim e.heading.toList = text at hnames
    cases hnames with
    | address hhttp => rw [if_pos (List.isPrefixOf_iff_prefix.2 hhttp)]
    | bare hne hu =>
      rw [if_neg (by simp), Link.ofText?_bare hne hu]
      rfl
    | titled hne hu ht =>
      rw [if_neg (by simp), Link.ofText?_titled hne hu ht, ← Link.trimmed?_eq]
      rfl

theorem NamesFeed.unique {text : List Char} {url url' : String} {title title' : Option String}
    (h : NamesFeed (trim text) url title) (h' : NamesFeed (trim text) url' title') :
    url = url' ∧ title = title' := by
  let e : FlatEntry := ⟨String.ofList text, []⟩
  have hfirst : e.subscription? = some ⟨url, [], title⟩ :=
    FlatEntry.subscription?_eq_some_iff.2 ⟨by rwa [String.toList_ofList], rfl⟩
  have hsecond : e.subscription? = some ⟨url', [], title'⟩ :=
    FlatEntry.subscription?_eq_some_iff.2 ⟨by rwa [String.toList_ofList], rfl⟩
  cases Option.some.inj (hfirst.symm.trans hsecond)
  exact ⟨rfl, rfl⟩

namespace FlatEntry

variable {keywords : List Keyword} {e : FlatEntry}

theorem classify?_eq_filter_iff {f : KeywordFilter} :
    e.classify? keywords = some (.filter f) ↔
      (f.keyword ∈ keywords ∧ ∃ rest, e.heading.toList = f.keyword.start ++ rest ∧
        f.value.toList = trim rest) ∧ f.value ≠ "" ∧ f.tags = e.tags := by
  rw [← keywordValue?_eq_some_iff, classify?]
  obtain ⟨k, value, tags⟩ := f
  obtain ⟨value, rfl⟩ := String.exists_eq_ofList value
  rw [String.toList_ofList, ne_eq, String.ofList_eq_empty_iff]
  cases e.keywordValue? keywords with
  | none => simp
  | some found =>
    obtain ⟨l, rest⟩ := found
    by_cases hrest : rest = []
    · simp_all
    · simp only [List.isEmpty_iff, hrest, if_false, Option.some.injEq, Classified.filter.injEq,
        KeywordFilter.mk.injEq, String.ofList_inj, Prod.mk.injEq]
      constructor
      · rintro ⟨rfl, rfl, rfl⟩
        exact ⟨⟨rfl, rfl⟩, hrest, rfl⟩
      · rintro ⟨⟨rfl, rfl⟩, -, rfl⟩
        exact ⟨rfl, rfl, rfl⟩

theorem classify?_eq_subscription_iff {s : Subscription} :
    e.classify? keywords = some (.subscription s) ↔
      (∀ k ∈ keywords, ¬ k.start <+: e.heading.toList) ∧
        NamesFeed (trim e.heading.toList) s.url s.title ∧ s.tags = e.tags := by
  rw [← keywordValue?_eq_none_iff, ← subscription?_eq_some_iff, classify?]
  cases h : e.keywordValue? keywords with
  | none => simp
  | some found => split <;> simp_all

end FlatEntry

end FeedOutline
