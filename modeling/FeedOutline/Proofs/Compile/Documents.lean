import FeedOutline.Compile
import FeedOutline.Proofs.Disk.FileTree
import FeedOutline.Proofs.Text.Lines
import FeedOutline.Proofs.Text.Utf8
import Mathlib.Data.List.Forall2

/-!
Documents that can be read. If every document is there and its bytes are a text, a compilation gives the
table of these texts.
-/
namespace FeedOutline.Compile

open Disk (Pathname FileTree)
open Text (encodeUtf8)

def Holds (env : Environment) (files : FileTree) (document text : String) : Prop :=
  ∃ p, (Pathname.ofText document).expand env = .ok p ∧ files.readText p.text = .ok text

/-- The document is a file with the bytes of the text. -/
def Stores (env : Environment) (files : FileTree) (document text : String) : Prop :=
  ∃ p, (Pathname.ofText document).expand env = .ok p ∧ files.read p.text = .ok (encodeUtf8 text)

variable {env : Environment} {files : FileTree}

theorem Stores.holds_unified {document text : String} (h : Stores env files document text) :
    Holds env files document (String.ofList (Text.unifyReturns text.toList)) := by
  obtain ⟨p, hp, hread⟩ := h
  refine ⟨p, hp, ?_⟩
  rw [FileTree.readText, hread]
  simp only [Text.decodeUtf8_encodeUtf8]

theorem Stores.holds {document text : String} (h : Stores env files document text)
    (hreturn : '\r' ∉ text.toList) : Holds env files document text := by
  have hholds := h.holds_unified
  rwa [Text.unifyReturns_eq hreturn, String.ofList_toList] at hholds

theorem checkThere_eq_ok_iff {p : Pathname} : checkThere files p = .ok () ↔ files.has p.text = true := by
  unfold checkThere
  rcases files.isThere_eq p.text with ⟨hhas, h⟩ | ⟨hhas, -, h⟩ | ⟨hhas, -, h⟩ <;> simp [h, hhas]

theorem checkThere_of_readText {p : Pathname} {text : String} (h : files.readText p.text = .ok text) :
    checkThere files p = .ok () := by
  cases hread : files.read p.text with
  | error f => simp [FileTree.readText, hread] at h
  | ok bytes => exact checkThere_eq_ok_iff.2 (FileTree.has_of_read hread)

theorem readDocument_of_readText {p : Pathname} {text : String}
    (h : files.readText p.text = .ok text) : readDocument files p = .ok text := by
  simp [readDocument, h]

theorem forM_checkThere {paths : List Pathname} {texts : List String}
    (h : List.Forall₂ (fun p text => files.readText p.text = .ok text) paths texts) :
    paths.forM (checkThere files) = .ok () := by
  have hall := h.imp fun p text hp => And.intro (checkThere_of_readText (p := p) hp) hp
  exact forM_eq_ok_iff.2 ((List.forall₂_and_left _ _).1 hall).1

theorem exists_paths {documents texts : List String}
    (h : List.Forall₂ (Holds env files) documents texts) :
    ∃ paths, expandAll env documents = .ok paths ∧
      List.Forall₂ (fun p text => files.readText p.text = .ok text) paths texts := by
  induction h with
  | nil => exact ⟨[], rfl, .nil⟩
  | cons hd _ ih =>
    obtain ⟨p, hp, htext⟩ := hd
    obtain ⟨paths, hpaths, htexts⟩ := ih
    refine ⟨p :: paths, ?_, .cons htext htexts⟩
    rw [expandAll] at hpaths ⊢
    rw [List.mapM_cons, hp, hpaths]
    rfl

theorem table_eq (s : Selection) {documents texts : List String}
    (h : List.Forall₂ (Holds env files) documents texts) :
    table s env files documents = .ok (s.compileTexts texts) := by
  obtain ⟨paths, hpaths, htexts⟩ := exists_paths h
  have hread : paths.mapM (readDocument files) = .ok texts :=
    mapM_eq_ok_iff.2 (htexts.imp fun _ _ => readDocument_of_readText)
  rw [table, readDocuments, hpaths]
  simp only [bind, Except.bind, forM_checkThere htexts, hread, pure, Except.pure]

theorem eq_compileTexts {s : Selection} {documents texts : List String} {t : RuleTable}
    (h : List.Forall₂ (Holds env files) documents texts) (ht : table s env files documents = .ok t) :
    t = s.compileTexts texts :=
  Except.ok.inj (ht.symm.trans (table_eq s h))

end FeedOutline.Compile
