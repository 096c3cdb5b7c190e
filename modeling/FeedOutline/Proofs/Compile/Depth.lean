import FeedOutline.Proofs.Compile.Union
import FeedOutline.Proofs.Outline.Depth

/-!
Documents whose headings get other numbers of stars. Only which heading is deeper than which has a meaning,
so outlines can be moved up and down as a whole.
-/
namespace FeedOutline

open Compile (Holds table)
open Disk (FileTree)
open Outline (Node Nested relevelAll newLevel restar)
open Text

/-- The second text has the lines of the first, the headings among them with other stars, more where there
were more. -/
def Refiled (text text' : String) : Prop :=
  ∃ f : ℕ+ → ℕ+, StrictMono f ∧ lines text'.toList = (lines text.toList).map (restar f)

variable {g : Nat → Nat}

theorem inheritAll_relevelAll (above : List String) (ns : List Node) :
    inheritAll above (relevelAll g ns) = inheritAll above ns := by
  induction ns using Outline.forest_induction generalizing above with
  | nil => rw [relevelAll]
  | cons n ns ihc ihs =>
    rw [relevelAll, inheritAll, ihs, Node.inherit_eq, Node.relevel_eq]
    dsimp only
    rw [ihc, inheritAll, Node.inherit_eq]

theorem Outline.Node.inherit_relevel (n : Node) (above : List String) :
    (n.relevel g).inherit above = n.inherit above := by
  have h := inheritAll_relevelAll (g := g) above [n]
  simpa [relevelAll, inheritAll] using h

namespace Selection

variable {text text' : String}

theorem treesOf_restar (s : Selection) {f : ℕ+ → ℕ+} (hf : StrictMono f)
    (h : lines text'.toList = (lines text.toList).map (restar f)) :
    s.treesOf text' = (s.treesOf text).map (·.relevel (newLevel f)) := by
  rw [treesOf, Outline.parse_restar hf h, Outline.marked_relevelAll, treesOf]

theorem flatEntries_eq_of_refiled (s : Selection) (h : Refiled text text') :
    s.flatEntries text' = s.flatEntries text := by
  obtain ⟨f, hf, hlines⟩ := h
  have htrees := s.treesOf_restar hf hlines
  have hflatten : ∀ n ∈ s.treesOf text, flatten (n.relevel (newLevel f)) = flatten n := by
    intro n hn
    have hn' : n.relevel (newLevel f) ∈ s.treesOf text' := htrees ▸ List.mem_map_of_mem hn
    rw [flatten_eq_inherit (nested_of_mem_treesOf hn'), Node.inherit_relevel,
      flatten_eq_inherit (nested_of_mem_treesOf hn)]
  rw [flatEntries, htrees, List.flatMap_map, List.flatMap_congr hflatten, flatEntries]

theorem compileTexts_eq_of_refiled (s : Selection) {texts texts' : List String}
    (h : List.Forall₂ Refiled texts texts') : s.compileTexts texts' = s.compileTexts texts := by
  have hentries : texts'.flatMap s.flatEntries = texts.flatMap s.flatEntries := by
    induction h with
    | nil => rfl
    | cons hrefiled _ ih =>
      rw [List.flatMap_cons, List.flatMap_cons, s.flatEntries_eq_of_refiled hrefiled, ih]
  rw [compileTexts, compileTexts, entriesOf_treesOf, hentries, ← entriesOf_treesOf]

end Selection

namespace Compile

variable {env env' : Environment} {files files' : FileTree}

/-- Documents whose headings get other numbers of stars, each document in its own way, have the table that
they had. -/
theorem table_refiled (s : Selection) {documents documents' texts texts' : List String}
    (h : List.Forall₂ (Holds env files) documents texts)
    (h' : List.Forall₂ (Holds env' files') documents' texts')
    (hrefiled : List.Forall₂ Refiled texts texts') :
    ∃ t, table s env files documents = .ok t ∧ table s env' files' documents' = .ok t := by
  refine ⟨_, table_eq s h, ?_⟩
  rw [table_eq s h', s.compileTexts_eq_of_refiled hrefiled]

theorem table_refiled_of_jumps :
    let a := "*** Old :elfeed:a:\n***** http://x.example :x:\n*old* text\n*\n**** http://y.example\n"
    let a' := "****** Old :elfeed:a:\n********** http://x.example :x:\n*old* text\n**\n" ++
      "******** http://y.example\n"
    let b := "** Saved :b:\n:PROPERTIES:\n:ID: elfeed\n:END:\n**** http://x.example\n*** feed-title: Lean\n"
    let b' := "***** Saved :b:\n:PROPERTIES:\n:ID: elfeed\n:END:\n******* http://x.example\n" ++
      "****** feed-title: Lean\n"
    let files : FileTree := { entries := [(["a.org"], .file (encodeUtf8 a)), (["b.org"], .file (encodeUtf8 b))] }
    let files' : FileTree := { entries := [(["a.org"], .file (encodeUtf8 a')), (["b.org"], .file (encodeUtf8 b'))] }
    let s : Selection := {}
    List.Forall₂ (Holds {} files) ["a.org", "b.org"] [a, b] ∧
      List.Forall₂ (Holds {} files') ["a.org", "b.org"] [a', b'] ∧
      List.Forall₂ Refiled [a, b] [a', b'] ∧
      ∃ t, table s {} files ["a.org", "b.org"] = .ok t ∧ table s {} files' ["a.org", "b.org"] = .ok t ∧
        t = ⟨[⟨.feedTitle, "Lean", .ofList ["b"]⟩],
          [⟨"http://x.example", .ofList ["a", "x"], none⟩, ⟨"http://x.example", .ofList ["b"], none⟩]⟩ := by
  intro a a' b b' files files' s
  have hholds : List.Forall₂ (Holds {} files) ["a.org", "b.org"] [a, b] :=
    .cons ⟨_, rfl, by decide +kernel⟩ (.cons ⟨_, rfl, by decide +kernel⟩ .nil)
  have hholds' : List.Forall₂ (Holds {} files') ["a.org", "b.org"] [a', b'] :=
    .cons ⟨_, rfl, by decide +kernel⟩ (.cons ⟨_, rfl, by decide +kernel⟩ .nil)
  have ha : Refiled a a' := ⟨fun n => n + n, fun m n h => add_lt_add h h, by decide +kernel⟩
  have hb : Refiled b b' := ⟨fun n => n + 3, fun m n h => add_lt_add_left h 3, by decide +kernel⟩
  obtain ⟨t, ht, ht'⟩ := table_refiled s hholds hholds' (.cons ha (.cons hb .nil))
  refine ⟨hholds, hholds', .cons ha (.cons hb .nil), t, ht, ht', ?_⟩
  rw [eq_compileTexts hholds ht]
  decide +kernel

end Compile

end FeedOutline
