import FeedOutline.Compile.Records
import FeedOutline.Proofs.Compile.Documents

/-!
What a compilation comes to, whatever the files are. It fails with the first document that is not there,
else with the first that is no text, and else it gives the table of all texts.
-/
namespace FeedOutline.Compile

open Disk (Pathname FileTree ReadError)
open Text (Bytes decodeUtf8 encodeUtf8 unifyReturns)

def IsText (files : FileTree) (p : Pathname) (text : String) : Prop :=
  files.read p.text = .ok (encodeUtf8 text)

/-- Why a document that is there is no text. -/
inductive NoText (files : FileTree) (p : Pathname) : ReadError → Prop
  | directory : files.isDirectory p.text = true → NoText files p (.file .isDirectory p.text)
  | bytes {content : Bytes} {e : Text.DecodeError} : files.read p.text = .ok content →
      decodeUtf8 content = .error e → NoText files p (.bytes e)

inductive Outcome (s : Selection) (files : FileTree) (paths : List Pathname) :
    Except CompileError RuleTable → Prop
  | notFound {p : Pathname} : IsFirst (fun q => files.has q.text = false) paths p →
      ¬ files.IsTooLong p.text → Outcome s files paths (.error (.notFound p))
  /-- A path that cannot be looked up is not named. -/
  | unreachable {p : Pathname} : IsFirst (fun q => files.has q.text = false) paths p →
      files.IsTooLong p.text → Outcome s files paths (.error (.unreachable .nameTooLong))
  | unreadable {p : Pathname} {cause : ReadError} : (∀ q ∈ paths, files.has q.text = true) →
      IsFirst (fun q => ∀ text, ¬ IsText files q text) paths p → NoText files p cause →
      Outcome s files paths (.error (.unreadable p cause))
  | compiled {texts : List String} : List.Forall₂ (IsText files) paths texts →
      Outcome s files paths
        (.ok (s.compileTexts (texts.map fun text => String.ofList (unifyReturns text.toList))))

variable {env : Environment} {files : FileTree} {documents : List String} {paths : List Pathname}
  {p : Pathname}

/-! One document. -/

theorem checkThere_of_not_isTooLong (hthere : files.has p.text = false) (h : ¬ files.IsTooLong p.text) :
    checkThere files p = .error (.notFound p) := by
  unfold checkThere
  rcases files.isThere_eq p.text with ⟨hhas, -⟩ | ⟨-, hlong, -⟩ | ⟨-, -, heq⟩
  · simp [hthere] at hhas
  · exact absurd hlong h
  · rw [heq]

theorem checkThere_of_isTooLong (h : files.IsTooLong p.text) :
    checkThere files p = .error (.unreachable .nameTooLong) := by
  unfold checkThere
  rcases files.isThere_eq p.text with ⟨hhas, -⟩ | ⟨-, -, heq⟩ | ⟨-, hshort, -⟩
  · simp [h.has_eq_false] at hhas
  · rw [heq]
  · exact absurd h hshort

theorem readDocument_eq_ok_iff {text : String} : readDocument files p = .ok text ↔
    ∃ content, IsText files p content ∧ text = String.ofList (unifyReturns content.toList) := by
  unfold readDocument FileTree.readText IsText
  cases hread : files.read p.text with
  | error f => simp
  | ok bytes =>
    simp only [Except.ok.injEq, ← Text.decodeUtf8_eq_ok_iff]
    cases decodeUtf8 bytes <;> simp [eq_comm]

theorem readDocument_eq_error_iff {e : CompileError} (hthere : files.has p.text = true) :
    readDocument files p = .error e ↔ ∃ cause, NoText files p cause ∧ e = .unreadable p cause := by
  unfold readDocument FileTree.readText
  constructor
  · intro h
    rcases FileTree.read_of_has hthere with hdirectory | ⟨bytes, hread⟩
    · rw [FileTree.isDirectory_iff.1 hdirectory] at h
      exact ⟨_, .directory hdirectory, (Except.error.inj h).symm⟩
    · rw [hread] at h
      cases hdecode : decodeUtf8 bytes with
      | ok text => simp [hdecode] at h
      | error cause =>
        simp only [hdecode] at h
        exact ⟨_, .bytes hread hdecode, (Except.error.inj h).symm⟩
  · rintro ⟨cause, hcause, rfl⟩
    cases hcause with
    | directory hdirectory => rw [FileTree.isDirectory_iff.1 hdirectory]
    | bytes hread hdecode => simp only [hread, hdecode]

/-! All documents. -/

theorem forM_checkThere_eq_ok_iff :
    paths.forM (checkThere files) = .ok () ↔ ∀ p ∈ paths, files.has p.text = true := by
  simp only [forM_eq_ok_iff, checkThere_eq_ok_iff]

theorem forM_checkThere_eq_error_iff {e : CompileError} : paths.forM (checkThere files) = .error e ↔
    ∃ p, IsFirst (fun q => files.has q.text = false) paths p ∧ checkThere files p = .error e := by
  simp only [forM_eq_error_iff, ne_eq, checkThere_eq_ok_iff, Bool.not_eq_true]

theorem mapM_readDocument_eq_error_iff {e : CompileError} : paths.mapM (readDocument files) = .error e ↔
    ∃ p, IsFirst (fun q => ∀ text, ¬ IsText files q text) paths p ∧ readDocument files p = .error e := by
  have hread (q : Pathname) :
      (∀ text, readDocument files q ≠ .ok text) ↔ ∀ text, ¬ IsText files q text := by
    simp only [ne_eq, readDocument_eq_ok_iff, not_exists, not_and]
    exact ⟨fun h text htext => h _ text htext rfl, fun h _ text htext => absurd htext (h text)⟩
  simp only [mapM_eq_error_iff, hread]

theorem mapM_readDocument_eq_ok_iff {shown : List String} : paths.mapM (readDocument files) = .ok shown ↔
    ∃ texts, List.Forall₂ (IsText files) paths texts ∧
      shown = texts.map fun text => String.ofList (unifyReturns text.toList) := by
  simp only [mapM_eq_ok_iff, readDocument_eq_ok_iff]
  constructor
  · intro h
    induction h with
    | nil => exact ⟨[], .nil, rfl⟩
    | cons hp _ ih =>
      obtain ⟨text, htext, rfl⟩ := hp
      obtain ⟨texts, htexts, rfl⟩ := ih
      exact ⟨text :: texts, .cons htext htexts, rfl⟩
  · rintro ⟨texts, htexts, rfl⟩
    exact List.forall₂_map_right_iff.2 (htexts.imp fun _ text h => ⟨text, h, rfl⟩)

theorem has_of_forall₂_isText {texts : List String} (h : List.Forall₂ (IsText files) paths texts) :
    ∀ p ∈ paths, files.has p.text = true := by
  have hall := h.imp fun p text hp => And.intro (FileTree.has_of_read hp) hp
  exact ((List.forall₂_and_left _ _).1 hall).1

theorem table_eq_bind (s : Selection) (h : expandAll env documents = .ok paths) :
    table s env files documents = (paths.forM (checkThere files) >>= fun _ =>
      paths.mapM (readDocument files)) >>= fun texts => .ok (s.compileTexts texts) := by
  rw [table, readDocuments, h]
  rfl

theorem outcome_table (s : Selection) (h : expandAll env documents = .ok paths) :
    Outcome s files paths (table s env files documents) := by
  rw [table_eq_bind s h]
  cases hcheck : paths.forM (checkThere files) with
  | error e =>
    obtain ⟨p, hfirst, hp⟩ := forM_checkThere_eq_error_iff.1 hcheck
    by_cases hlong : files.IsTooLong p.text
    · cases (checkThere_of_isTooLong hlong).symm.trans hp
      exact .unreachable hfirst hlong
    · cases (checkThere_of_not_isTooLong hfirst.holds hlong).symm.trans hp
      exact .notFound hfirst hlong
  | ok u =>
    have hthere := forM_checkThere_eq_ok_iff.1 hcheck
    cases hread : paths.mapM (readDocument files) with
    | error e =>
      obtain ⟨p, hfirst, hp⟩ := mapM_readDocument_eq_error_iff.1 hread
      obtain ⟨cause, hcause, rfl⟩ := (readDocument_eq_error_iff (hthere p hfirst.mem)).1 hp
      exact .unreadable hthere hfirst hcause
    | ok shown =>
      obtain ⟨texts, htexts, rfl⟩ := mapM_readDocument_eq_ok_iff.1 hread
      exact .compiled htexts

theorem Outcome.table_eq {s : Selection} {r : Except CompileError RuleTable} (hr : Outcome s files paths r)
    (h : expandAll env documents = .ok paths) : table s env files documents = r := by
  rw [table_eq_bind s h]
  cases hr with
  | notFound hfirst hshort =>
    rw [forM_checkThere_eq_error_iff.2
      ⟨_, hfirst, checkThere_of_not_isTooLong hfirst.holds hshort⟩]
    rfl
  | unreachable hfirst hlong =>
    rw [forM_checkThere_eq_error_iff.2 ⟨_, hfirst, checkThere_of_isTooLong hlong⟩]
    rfl
  | unreadable hthere hfirst hcause =>
    rw [forM_checkThere_eq_ok_iff.2 hthere, mapM_readDocument_eq_error_iff.2
      ⟨_, hfirst, (readDocument_eq_error_iff (hthere _ hfirst.mem)).2 ⟨_, hcause, rfl⟩⟩]
    rfl
  | compiled htexts =>
    rw [forM_checkThere_eq_ok_iff.2 (has_of_forall₂_isText htexts),
      mapM_readDocument_eq_ok_iff.2 ⟨_, htexts, rfl⟩]
    rfl

/-- If a document is not there, all that counts is which documents are. -/
theorem logged_of_missing (s : Selection) (h : expandAll env documents = .ok paths)
    (hmissing : ∃ p ∈ paths, files.has p.text = false) {files' : FileTree}
    (hsame : ∀ p ∈ paths, files'.isThere p.text = files.isThere p.text) :
    logged s env files' documents = logged s env files documents ∧ records s env files documents = [] := by
  obtain ⟨e, he⟩ : ∃ e, paths.forM (checkThere files) = .error e := by
    cases hcheck : paths.forM (checkThere files) with
    | error e => exact ⟨e, rfl⟩
    | ok u =>
      obtain ⟨p, hp, hfalse⟩ := hmissing
      simp [forM_checkThere_eq_ok_iff.1 hcheck p hp] at hfalse
  have hfails (t : FileTree) (ht : paths.forM (checkThere t) = .error e) :
      records s env t documents = [] ∧ table s env t documents = .error e := by
    refine ⟨?_, ?_⟩
    · rw [records, h]
      simp only [ht]
    · rw [table_eq_bind s h, ht]
      rfl
  have hcongr : paths.forM (checkThere files') = paths.forM (checkThere files) := by
    refine forM_congr fun p hp => ?_
    rw [checkThere, checkThere, hsame p hp]
  obtain ⟨hrecords, htable⟩ := hfails files he
  obtain ⟨hrecords', htable'⟩ := hfails files' (hcongr.trans he)
  exact ⟨by rw [logged, logged, hrecords, htable, hrecords', htable'], hrecords⟩

/-- Of all documents, or of none, comes a table. Only a path that is too long to be looked up makes it fail
without a name. -/
theorem table_all_or_nothing (s : Selection) (h : expandAll env documents = .ok paths) :
    (∀ r, table s env files documents = r ↔ Outcome s files paths r) ∧
    ((∃ p ∈ paths, files.has p.text = false) →
      ∀ files' : FileTree, (∀ p ∈ paths, files'.isThere p.text = files.isThere p.text) →
        logged s env files' documents = logged s env files documents ∧
        records s env files documents = []) ∧
    ((∀ p ∈ paths, FileTree.IsShort p.text) → ∀ f, table s env files documents ≠ .error (.unreachable f)) := by
  refine ⟨fun r => ⟨?_, fun hr => hr.table_eq h⟩, fun hmissing files' => logged_of_missing s h hmissing, ?_⟩
  · rintro rfl
    exact outcome_table s h
  · intro hshort f htable
    have houtcome : Outcome s files paths (.error (.unreachable f)) := htable ▸ outcome_table s h
    cases houtcome with
    | unreachable hfirst hlong => exact hlong.not_isShort (hshort _ hfirst.mem)

def twoFiles : FileTree :=
  ⟨["srv"], [(["srv"], .directory), (["srv", "a.org"], .file [0xFF]), (["home"], .directory),
    (["home", "ann"], .directory), (["home", "ann", "b.org"], .file (encodeUtf8 "* A :elfeed:\r\n** http://b"))]⟩

def twoHomes : Environment :=
  { vars := [("HOME", "/home/ann/")], users := [("eve", "/home")] }

/-- It is not the first document that is named, but the one that is not there; else the first that is no text. What
is there and a text is compiled, whichever way it is named. -/
theorem table_of_unreadable_before_missing :
    (table {} twoHomes twoFiles ["~/b.org", "a.org", "~eve/c.org", "/d.org"] =
      .error (.notFound ⟨"/", ["home", "c.org"]⟩) ∧
      records {} twoHomes twoFiles ["~/b.org", "a.org", "~eve/c.org", "/d.org"] = []) ∧
    table {} twoHomes twoFiles ["~/b.org", "~eve", "a.org"] =
      .error (.unreadable ⟨"/", ["home"]⟩ (.file .isDirectory "/home")) ∧
    table {} twoHomes twoFiles ["~/b.org"] =
      .ok (Selection.compileTexts {} ["* A :elfeed:\n** http://b"]) := by
  have hb : IsText twoFiles ⟨"/", ["home", "ann", "b.org"]⟩ "* A :elfeed:\r\n** http://b" :=
    (by decide +kernel : twoFiles.read "/home/ann/b.org" = .ok (encodeUtf8 "* A :elfeed:\r\n** http://b"))
  refine ⟨?_, ?_, ?_⟩
  · have hpaths : expandAll twoHomes ["~/b.org", "a.org", "~eve/c.org", "/d.org"] = .ok
        [⟨"/", ["home", "ann", "b.org"]⟩, ⟨"", ["a.org"]⟩, ⟨"/", ["home", "c.org"]⟩, ⟨"/", ["d.org"]⟩] := by
      decide +kernel
    have hfirst : IsFirst (fun q : Pathname => twoFiles.has q.text = false)
        [⟨"/", ["home", "ann", "b.org"]⟩, ⟨"", ["a.org"]⟩, ⟨"/", ["home", "c.org"]⟩, ⟨"/", ["d.org"]⟩]
        ⟨"/", ["home", "c.org"]⟩ :=
      ⟨[⟨"/", ["home", "ann", "b.org"]⟩, ⟨"", ["a.org"]⟩], [⟨"/", ["d.org"]⟩], rfl, by decide +kernel,
        by decide +kernel⟩
    have hshort : ¬ twoFiles.IsTooLong (Pathname.mk "/" ["home", "c.org"]).text :=
      fun hlong => absurd hlong.find_eq (by decide +kernel)
    exact ⟨((table_all_or_nothing {} hpaths).1 _).2 (.notFound hfirst hshort),
      ((table_all_or_nothing {} hpaths).2.1 ⟨_, hfirst.mem, hfirst.holds⟩ twoFiles fun _ _ => rfl).2⟩
  · have hpaths : expandAll twoHomes ["~/b.org", "~eve", "a.org"] = .ok
        [⟨"/", ["home", "ann", "b.org"]⟩, ⟨"/", ["home"]⟩, ⟨"", ["a.org"]⟩] := by decide +kernel
    have hthere : ∀ q ∈ [⟨"/", ["home", "ann", "b.org"]⟩, ⟨"/", ["home"]⟩, Pathname.mk "" ["a.org"]],
        twoFiles.has q.text = true := by decide +kernel
    have hdirectory : twoFiles.isDirectory (Pathname.mk "/" ["home"]).text = true := by decide +kernel
    have hnone : ∀ text, ¬ IsText twoFiles ⟨"/", ["home"]⟩ text := by
      intro text htext
      cases (FileTree.isDirectory_iff.1 hdirectory).symm.trans htext
    have hfirst : IsFirst (fun q : Pathname => ∀ text, ¬ IsText twoFiles q text)
        [⟨"/", ["home", "ann", "b.org"]⟩, ⟨"/", ["home"]⟩, ⟨"", ["a.org"]⟩] ⟨"/", ["home"]⟩ :=
      isFirst_cons_iff.2 (.inr ⟨fun h => h _ hb, isFirst_cons_iff.2 (.inl ⟨hnone, rfl⟩)⟩)
    exact ((table_all_or_nothing {} hpaths).1 _).2 (.unreadable hthere hfirst (.directory hdirectory))
  · have hpaths : expandAll twoHomes ["~/b.org"] = .ok [⟨"/", ["home", "ann", "b.org"]⟩] := by decide +kernel
    have hunified : String.ofList (unifyReturns "* A :elfeed:\r\n** http://b".toList) =
        "* A :elfeed:\n** http://b" := by decide +kernel
    have htable := ((table_all_or_nothing {} hpaths).1 _).2 (.compiled (.cons hb .nil))
    rwa [List.map_singleton, hunified] at htable

theorem table_of_long_name (s : Selection) (env : Environment) (files : FileTree) {name : String}
    (hsize : 255 < name.utf8ByteSize) (hslash : '/' ∉ name.toList) (hzero : '\x00' ∉ name.toList)
    (htilde : name.toList.head? ≠ some '~') :
    expandAll env [name] = .ok [⟨"", [name]⟩] ∧ files.has name = false ∧
      table s env files [name] = .error (.unreachable .nameTooLong) := by
  have hne (short : String) (hshort : short.utf8ByteSize ≤ 255) : name ≠ short := by
    rintro rfl
    exact Nat.not_lt.2 hshort hsize
  have hempty := hne "" (by decide)
  have htext := Pathname.text_single hempty
  have hname : Pathname.ofText name = ⟨"", [name]⟩ := by
    have hplain := Pathname.plain_single hempty (hne "." (by decide)) hslash
    simpa only [htext] using hplain.ofText_text (by simp)
  have hpaths : expandAll env [name] = .ok [⟨"", [name]⟩] := by
    rw [expandAll, List.mapM_cons, hname]
    have hstart : Text.startsWith "~" name = false := by
      rw [Bool.eq_false_iff, Text.startsWith, Ne, List.isPrefixOf_iff_prefix]
      rintro ⟨rest, hrest⟩
      exact htilde (by rw [← hrest]; rfl)
    simp only [Pathname.expand, hstart]
    rfl
  have hlong : files.IsTooLong name := .of_name hsize hslash hzero
  have hmissing : files.has name = false := hlong.has_eq_false
  have hfirst : IsFirst (fun q : Pathname => files.has q.text = false) [⟨"", [name]⟩] ⟨"", [name]⟩ := by
    rw [isFirst_cons_iff, htext]
    exact .inl ⟨hmissing, rfl⟩
  exact ⟨hpaths, hmissing, Outcome.table_eq (.unreachable hfirst (htext.symm ▸ hlong)) hpaths⟩

def nameOfSize (n : Nat) : String :=
  String.ofList (List.replicate n 'a')

theorem utf8ByteSize_nameOfSize (n : Nat) : (nameOfSize n).utf8ByteSize = n := by
  induction n with
  | zero => rfl
  | succ n ih =>
    have happend : nameOfSize (n + 1) = "a" ++ nameOfSize n :=
      String.toList_injective (by simp [nameOfSize, List.replicate_succ])
    have hone : "a".utf8ByteSize = 1 := rfl
    rw [happend, String.utf8ByteSize_append, ih, hone, Nat.add_comm]

theorem long_name_unreported :
    expandAll {} [nameOfSize 256] = .ok [⟨"", [nameOfSize 256]⟩] ∧
      FileTree.has {} (nameOfSize 256) = false ∧
      table {} {} {} [nameOfSize 256] = .error (.unreachable .nameTooLong) := by
  have hchars : ∀ c ∈ (nameOfSize 256).toList, c = 'a' := by
    intro c hc
    rw [nameOfSize, String.toList_ofList] at hc
    exact List.eq_of_mem_replicate hc
  have hsize : 255 < (nameOfSize 256).utf8ByteSize := by
    rw [utf8ByteSize_nameOfSize]
    decide
  refine table_of_long_name {} {} {} hsize ?_ ?_ fun h => ?_
  · exact fun h => absurd (hchars _ h) (by decide)
  · exact fun h => absurd (hchars _ h) (by decide)
  · exact absurd (hchars _ (List.mem_of_mem_head? h)) (by decide)

end FeedOutline.Compile
