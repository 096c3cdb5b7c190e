import FeedOutline.Proofs.Compile.Documents
import FeedOutline.Proofs.Outline.Seam

/-!
A document that is split in two. Nothing is inherited across a heading with a single star, so the parts
before and from it on can stand in files of their own.
-/
namespace FeedOutline

open Disk (FileTree)
open Outline (StartsAtTop)
open Text

namespace Selection

variable {a b : String}

theorem treesOf_unifyReturns (s : Selection) (text : String) :
    s.treesOf (String.ofList (unifyReturns text.toList)) = s.treesOf text := by
  rw [treesOf, treesOf, Outline.parse_unifyReturns]

theorem treesOf_append (s : Selection) (ha : ∀ c ∈ a.toList.getLast?, isBreak c = true)
    (hb : StartsAtTop b.toList) : s.treesOf (a ++ b) = s.treesOf a ++ s.treesOf b := by
  rw [treesOf, Outline.parse_append ha hb, Outline.marked, Outline.walkAll_append, List.filter_append]
  rfl

theorem compileTexts_parts (s : Selection) (ha : ∀ c ∈ a.toList.getLast?, isBreak c = true)
    (hb : StartsAtTop b.toList) : s.compileTexts [a ++ b] = s.compileTexts [a, b] := by
  simp only [compileTexts, List.flatMap_cons, List.flatMap_nil, List.append_nil, s.treesOf_append ha hb]

end Selection

namespace Compile

variable {env env' : Environment} {files files' : FileTree}

theorem table_eq_of_stores (s : Selection) {documents texts : List String}
    (h : List.Forall₂ (Stores env files) documents texts) :
    table s env files documents = .ok (s.compileTexts texts) := by
  have hholds : List.Forall₂ (Holds env files) documents
      (texts.map fun text => String.ofList (unifyReturns text.toList)) :=
    List.forall₂_map_right_iff.2 (h.imp fun _ _ => Stores.holds_unified)
  rw [table_eq s hholds, Selection.compileTexts, List.flatMap_map]
  simp only [Selection.treesOf_unifyReturns]
  rfl

/-- A document may be split before any heading with a single star: the two parts, in order, give the
table of the whole. -/
theorem table_parts (s : Selection) {whole first second a b : String}
    (ha : ∀ c ∈ a.toList.getLast?, isBreak c = true) (hb : StartsAtTop b.toList)
    (hwhole : Stores env files whole (a ++ b)) (hfirst : Stores env' files' first a)
    (hsecond : Stores env' files' second b) :
    ∃ t, table s env files [whole] = .ok t ∧ table s env' files' [first, second] = .ok t := by
  refine ⟨_, table_eq_of_stores s (.cons hwhole .nil), ?_⟩
  rw [table_eq_of_stores s (.cons hfirst (.cons hsecond .nil)), s.compileTexts_parts ha hb]

theorem table_parts_of_open_drawer :
    let a := "* Feeds :elfeed:a:\n*** http://x.example :x:\r\n:PROPERTIES:\n:ID: elfeed\n"
    let b := "* Saved :elfeed:\n:ID: a\n** http://x.example :x:\n** http://y.example\n"
    let files : FileTree := { entries := [(["all.org"], .file (encodeUtf8 (a ++ b)))] }
    let files' : FileTree := { entries := [(["a.org"], .file (encodeUtf8 a)), (["b.org"], .file (encodeUtf8 b))] }
    let s : Selection := { ignoreTag := "old" }
    (∀ c ∈ a.toList.getLast?, isBreak c = true) ∧ StartsAtTop b.toList ∧
      Stores {} files "all.org" (a ++ b) ∧ Stores {} files' "a.org" a ∧ Stores {} files' "b.org" b ∧
      ∃ t, table s {} files ["all.org"] = .ok t ∧ table s {} files' ["a.org", "b.org"] = .ok t ∧
        t.subscriptionRules = [⟨"http://x.example", .ofList ["a", "x"], none⟩,
          ⟨"http://x.example", .ofList ["x"], none⟩, ⟨"http://y.example", .empty, none⟩] := by
  intro a b files files' s
  have ha : ∀ c ∈ a.toList.getLast?, isBreak c = true := by decide +kernel
  have hb : StartsAtTop b.toList := by decide +kernel
  have hwhole : Stores {} files "all.org" (a ++ b) := ⟨_, rfl, by decide +kernel⟩
  have hfirst : Stores {} files' "a.org" a := ⟨_, rfl, by decide +kernel⟩
  have hsecond : Stores {} files' "b.org" b := ⟨_, rfl, by decide +kernel⟩
  obtain ⟨t, ht, ht'⟩ := table_parts s ha hb hwhole hfirst hsecond
  refine ⟨ha, hb, hwhole, hfirst, hsecond, t, ht, ht', ?_⟩
  rw [Except.ok.inj (ht.symm.trans (table_eq_of_stores s (.cons hwhole .nil)))]
  decide +kernel

end Compile

end FeedOutline
