import FeedOutline.Proofs.Classified.Shape
import FeedOutline.Proofs.Text.Trim

/-!
What a heading that names a feed leaves of itself. The words that make it relevant come again in the
address or in the title.
-/
namespace FeedOutline

open Text

/-- A text that the markup of a link cannot cut. -/
def Unbroken (word : List Char) : Prop :=
  word ≠ [] ∧ ∀ c ∈ word, isBlank c = false ∧ c ≠ '[' ∧ c ≠ ']'

theorem unbroken_http : Unbroken "http".toList := by
  rw [Unbroken]
  decide

theorem Keyword.unbroken_name (k : Keyword) : Unbroken k.name.toList := by
  rw [Unbroken]
  cases k <;> decide

namespace Unbroken

variable {word s : List Char}

theorem infix_trim (hword : Unbroken word) (h : word <:+: s) : word <:+: trim s :=
  infix_trimmed (fun c hc => (hword.2 c hc).1) h

theorem opening_not_mem (hword : Unbroken word) : '[' ∉ word :=
  fun hmem => (hword.2 _ hmem).2.1 rfl

theorem closing_not_mem (hword : Unbroken word) : ']' ∉ word :=
  fun hmem => (hword.2 _ hmem).2.2 rfl

theorem not_infix_nil (hword : Unbroken word) : ¬ word <:+: [] :=
  fun h => hword.1 (List.infix_nil.1 h)

theorem infix_brackets (hword : Unbroken word) {u : List Char}
    (h : word <:+: "[[".toList ++ u ++ "]]".toList) : word <:+: u := by
  have hlink : "[[".toList ++ u ++ "]]".toList =
      [] ++ '[' :: ([] ++ '[' :: (u ++ ']' :: ([] ++ ']' :: []))) := by
    simp
  rw [hlink] at h
  have hfirst := (infix_append_stop hword.opening_not_mem h).resolve_left hword.not_infix_nil
  have hinside := (infix_append_stop hword.opening_not_mem hfirst).resolve_left hword.not_infix_nil
  rcases infix_append_stop hword.closing_not_mem hinside with hu | hend
  · exact hu
  · exact absurd ((infix_append_stop hword.closing_not_mem hend).elim id id) hword.not_infix_nil

theorem infix_link (hword : Unbroken word) {u t : List Char}
    (h : word <:+: "[[".toList ++ u ++ "][".toList ++ t ++ "]]".toList) : word <:+: u ∨ word <:+: t := by
  have hlink : "[[".toList ++ u ++ "][".toList ++ t ++ "]]".toList =
      "[[".toList ++ (u ++ ']' :: ([] ++ '[' :: t)) ++ "]]".toList := by
    simp
  rw [hlink] at h
  rcases infix_append_stop hword.closing_not_mem (hword.infix_brackets h) with hu | hrest
  · exact .inl hu
  · exact .inr ((infix_append_stop hword.opening_not_mem hrest).resolve_left hword.not_infix_nil)

end Unbroken

def Mentions (keywords : List Keyword) (s : List Char) : Prop :=
  "http".toList <:+: s ∨ ∃ k ∈ keywords, k.name.toList <:+: s

instance (keywords : List Keyword) (s : List Char) : Decidable (Mentions keywords s) :=
  inferInstanceAs (Decidable (_ ∨ _))

theorem Mentions.mono {keywords : List Keyword} {s s' : List Char} (h : Mentions keywords s)
    (hs : s <:+: s') : Mentions keywords s' :=
  h.imp (·.trans hs) fun ⟨k, hk, hname⟩ => ⟨k, hk, hname.trans hs⟩

theorem Mentions.exists_word {keywords : List Keyword} {s : List Char} (h : Mentions keywords s) :
    ∃ word, Unbroken word ∧ word <:+: s ∧ ∀ s', word <:+: s' → Mentions keywords s' := by
  rcases h with hhttp | ⟨k, hk, hname⟩
  · exact ⟨_, unbroken_http, hhttp, fun _ => .inl⟩
  · exact ⟨_, k.unbroken_name, hname, fun _ hinfix => .inr ⟨k, hk, hinfix⟩⟩

theorem mentions_trim_iff {keywords : List Keyword} {s : List Char} :
    Mentions keywords (trim s) ↔ Mentions keywords s := by
  constructor
  · exact fun h => h.mono (trimmed_infix_self isBlank s)
  · intro h
    obtain ⟨word, hword, hinfix, hmention⟩ := h.exists_word
    exact hmention _ (hword.infix_trim hinfix)

namespace NamesFeed

variable {s : List Char} {url : String} {title : Option String}

theorem bracket (h : NamesFeed s url title) (hmem : ']' ∈ url.toList) :
    "http".toList <+: url.toList ∧ title = none := by
  cases h with
  | address hhttp => exact ⟨by simpa using hhttp, rfl⟩
  | bare _ hu =>
    rw [String.toList_ofList] at hmem
    exact absurd (mem_of_mem_trimmed hmem) hu
  | titled _ hu =>
    rw [String.toList_ofList] at hmem
    exact absurd (mem_of_mem_trimmed hmem) hu

theorem url_infix (h : NamesFeed s url title) : url.toList <:+: s := by
  cases h with
  | address => simp
  | @bare u hne hu =>
    have hlink : u <:+: "[[".toList ++ u ++ "]]".toList := ⟨"[[".toList, "]]".toList, rfl⟩
    simpa using (trim_infix_self u).trans hlink
  | @titled u t hne hu ht =>
    have hlink : u <:+: "[[".toList ++ u ++ "][".toList ++ t ++ "]]".toList :=
      ⟨"[[".toList, "][".toList ++ t ++ "]]".toList, by simp⟩
    simpa using (trim_infix_self u).trans hlink

theorem title_infix (h : NamesFeed s url title) : ∀ t ∈ title, t.toList <:+: s := by
  intro title' htitle'
  cases h with
  | address => cases htitle'
  | bare => cases htitle'
  | @titled u t hne hu ht =>
    split_ifs at htitle'
    · cases htitle'
    · have hlink : t <:+: "[[".toList ++ u ++ "][".toList ++ t ++ "]]".toList :=
        ⟨"[[".toList ++ u ++ "][".toList, "]]".toList, rfl⟩
      rw [← Option.some.inj htitle']
      simpa using (trim_infix_self t).trans hlink

theorem of_title (h : NamesFeed s url title) :
    ∀ t ∈ title, t ≠ "" ∧ Trimmed isBlank t.toList ∧ ']' ∉ t.toList := by
  intro title' htitle'
  cases h with
  | address => cases htitle'
  | bare => cases htitle'
  | @titled u t hne hu ht =>
    split_ifs at htitle' with htrim
    · cases htitle'
    · cases Option.some.inj htitle'
      simp only [String.toList_ofList]
      exact ⟨by simpa using htrim, trimmed_trimmed isBlank t, fun hmem => ht (mem_of_mem_trimmed hmem)⟩

theorem mentions_iff (h : NamesFeed s url title) {keywords : List Keyword} : Mentions keywords s ↔
    Mentions keywords url.toList ∨ ∃ t ∈ title, Mentions keywords t.toList := by
  constructor
  · intro hs
    obtain ⟨word, hword, hinfix, hmention⟩ := hs.exists_word
    cases h with
    | address => exact .inl (by simpa using hs)
    | bare => exact .inl (hmention _ (by simpa using hword.infix_trim (hword.infix_brackets hinfix)))
    | @titled u t hne hu ht =>
      rcases hword.infix_link hinfix with hurl | htitle
      · exact .inl (hmention _ (by simpa using hword.infix_trim hurl))
      · have htrim := hword.infix_trim htitle
        have hne : trim t ≠ [] := fun hnil => hword.not_infix_nil (hnil ▸ htrim)
        exact .inr ⟨_, if_neg hne, hmention _ (by simpa using htrim)⟩
  · rintro (hurl | ⟨t, ht, htitle⟩)
    · exact hurl.mono h.url_infix
    · exact htitle.mono (h.title_infix t ht)

end NamesFeed

end FeedOutline
