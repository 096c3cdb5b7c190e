import FeedOutline.Proofs.Compile.Feeds
import FeedOutline.Proofs.Compile.Parts

/-!
Feeds that are no web addresses. A heading is looked through for words that make it relevant, but where in
it they stand is not asked, and so a link to anything is subscribed to if its title holds one of them.
-/
namespace FeedOutline

open Compile (Holds Stores table)
open Disk (FileTree)
open Text

/-- The text is as a whole a link to something else than a web address, and a word that makes headings
relevant stands within this address or in the title. -/
structure Strays (keywords : List Keyword) (text : List Char) (url : String) : Prop where
  link : ∃ title, NamesFeed (trim text) url title ∧
    (Mentions keywords url.toList ∨ ∃ t ∈ title, Mentions keywords t.toList)
  no_http : ¬ "http".toList <+: url.toList
  url_ne : url ≠ ""
  no_blank : ∀ c ∈ url.toList, isBlank c = false

theorem Keyword.isBlank_start (k : Keyword) : ∀ c ∈ k.start.head?, isBlank c = false := by
  cases k <;> decide

theorem NamesFeed.head?_eq {s : List Char} {url : String} {title : Option String}
    (h : NamesFeed s url title) (hhttp : ¬ "http".toList <+: url.toList) : s.head? = some '[' := by
  cases h with
  | address hs => exact absurd (by simpa using hs) hhttp
  | bare => simp
  | titled => simp

/-- A text that begins with a keyword is no link, blanks or not. -/
theorem NamesFeed.no_keyword {text : List Char} {url : String} {title : Option String}
    (h : NamesFeed (trim text) url title) (hhttp : ¬ "http".toList <+: url.toList) (k : Keyword) :
    ¬ k.start <+: text := by
  rintro ⟨rest, rfl⟩
  have hne : k.start ≠ [] := by simp [Keyword.start_eq]
  have hhead : (k.start ++ rest).head? = k.start.head? := List.head?_append_of_ne_nil _ hne
  have htrim : trim (k.start ++ rest) <+: k.start ++ rest := by
    rw [trim, trimmed, dropWhile_of_head (hhead ▸ k.isBlank_start)]
    exact List.rdropWhile_prefix _ _
  have hbracket := h.head?_eq hhttp
  obtain ⟨after, hafter⟩ := htrim
  rw [← hafter, List.head?_append, hbracket] at hhead
  exact k.head?_start.2 hhead.symm

namespace Selection

variable {s : Selection} {texts : List String} {url : String}

theorem strays_iff {heading : String} {tags : List String} (hignored : s.ignoreTag ∉ tags) :
    Strays s.keywords heading.toList url ↔
      ∃ rule, SubscriptionOf s heading tags rule ∧ rule.feedUrl = url ∧ ¬ "http".toList <+: url.toList := by
  constructor
  · rintro ⟨⟨title, hnames, hmentions⟩, hhttp, hne, hblank⟩
    have hrelevant := mentions_trim_iff.1 (hnames.mentions_iff.2 hmentions)
    refine ⟨⟨url, .ofList tags, title⟩, ?_, rfl, hhttp⟩
    exact ⟨hignored, hrelevant, fun k _ => hnames.no_keyword hhttp k, hnames, hne, hblank,
      fun t => TagSet.mem_ofList⟩
  · rintro ⟨rule, hrule, rfl, hhttp⟩
    have hmentions := hrule.names.mentions_iff.1 (mentions_trim_iff.2 hrule.relevant)
    exact ⟨⟨rule.title, hrule.names, hmentions⟩, hhttp, hrule.url_ne, hrule.no_blank⟩

theorem mem_feedUrls_compileTexts_iff : url ∈ (s.compileTexts texts).feedUrls ↔
    ∃ h tags, s.Selects texts h tags ∧ ∃ rule, SubscriptionOf s h.text tags rule ∧ rule.feedUrl = url := by
  rw [RuleTable.feedUrls_eq, mem_urlsOf]
  constructor
  · rintro ⟨rule, hrule, hurl⟩
    obtain ⟨h, tags, hselects, hsubscription⟩ := mem_subscriptionRules_iff.1 hrule
    exact ⟨h, tags, hselects, rule, hsubscription, hurl⟩
  · rintro ⟨h, tags, hselects, rule, hsubscription, hurl⟩
    exact ⟨rule, mem_subscriptionRules_iff.2 ⟨h, tags, hselects, hsubscription⟩, hurl⟩

end Selection

/-- The feeds of a table that are no web addresses are those of the links that stray. -/
theorem Compile.mem_feedUrls_strays_iff {env : Environment} {files : FileTree}
    {documents texts : List String} (s : Selection)
    (h : List.Forall₂ (Holds env files) documents texts) :
    ∃ t, table s env files documents = .ok t ∧
      ∀ url, url ∈ t.feedUrls ∧ ¬ "http".toList <+: url.toList ↔
        ∃ h tags, s.Selects texts h tags ∧ s.ignoreTag ∉ tags ∧ Strays s.keywords h.text.toList url := by
  refine ⟨_, table_eq s h, fun url => ?_⟩
  rw [Selection.mem_feedUrls_compileTexts_iff]
  constructor
  · rintro ⟨⟨h, tags, hselects, rule, hrule, hurl⟩, hhttp⟩
    exact ⟨h, tags, hselects, hrule.not_ignored,
      (Selection.strays_iff hrule.not_ignored).2 ⟨rule, hrule, hurl, hhttp⟩⟩
  · rintro ⟨h, tags, hselects, hignored, hstrays⟩
    obtain ⟨rule, hrule, hurl, hhttp⟩ := (Selection.strays_iff hignored).1 hstrays
    exact ⟨⟨h, tags, hselects, rule, hrule, hurl⟩, hhttp⟩

theorem Compile.mem_feedUrls_strays_of_titled :
    let text := "* Feeds :elfeed:\n** https://a.example :a:\n** [[feed:https://b.example]]\n" ++
      "** [[id:7][On feed-title]] :old:\n** [[id:8][http]] :ignore:\n** [[id:9][http ]] more\n"
    let files : FileTree := { entries := [(["a.org"], .file (encodeUtf8 text))] }
    let s : Selection := {}
    List.Forall₂ (Holds {} files) ["a.org"] [text] ∧
      ∃ t, table s {} files ["a.org"] = .ok t ∧
        t.feedUrls = ["https://a.example", "feed:https://b.example", "id:7"] ∧
        ∀ url ∈ ["feed:https://b.example", "id:7"], ∃ h tags, s.Selects [text] h tags ∧
          s.ignoreTag ∉ tags ∧ Strays s.keywords h.text.toList url := by
  intro text files s
  have hholds : List.Forall₂ (Holds {} files) ["a.org"] [text] :=
    .cons ⟨_, rfl, by decide +kernel⟩ .nil
  obtain ⟨t, ht, hstrays⟩ := mem_feedUrls_strays_iff s hholds
  have hfeeds : t.feedUrls = ["https://a.example", "feed:https://b.example", "id:7"] := by
    rw [eq_compileTexts hholds ht]
    decide +kernel
  have hno : ∀ url ∈ ["feed:https://b.example", "id:7"], ¬ "http".toList <+: url.toList := by decide
  refine ⟨hholds, t, ht, hfeeds, fun url hurl => (hstrays url).1 ⟨?_, hno url hurl⟩⟩
  rw [hfeeds]
  exact List.mem_cons_of_mem _ hurl

/-- A link to a file is subscribed to because of a word in its title. -/
theorem Compile.local_file_subscribed :
    let text := "* Feeds :elfeed:\n** [[file:notes.org][my http notes]]\n"
    let files : FileTree := { entries := [(["a.org"], .file (encodeUtf8 text))] }
    Stores {} files "a.org" text ∧ ∃ t, table {} {} files ["a.org"] = .ok t ∧
      ∃ url ∈ t.feedUrls, ¬ "http".toList <+: url.toList := by
  intro text files
  have hstores : Stores {} files "a.org" text := ⟨_, rfl, by decide +kernel⟩
  have hfeeds : (Selection.compileTexts {} [text]).feedUrls = ["file:notes.org"] := by decide +kernel
  refine ⟨hstores, _, table_eq_of_stores {} (.cons hstores .nil), "file:notes.org", ?_, by decide⟩
  rw [hfeeds]
  exact List.mem_singleton_self _

end FeedOutline
