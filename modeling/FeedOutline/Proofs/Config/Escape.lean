import FeedOutline.Proofs.Config.Schema
import FeedOutline.Proofs.Disk.FileTree
import FeedOutline.Proofs.Yaml.Load

/-!
Errors of a configuration that are not reported as such. All but one depend on the file alone: overriding by the
environment can only put another level in the place of one with a lone surrogate, or bring one there.
-/
namespace FeedOutline.Config

open Data (Value Mapping Document)
open Disk (Pathname FileTree ReadError)
open Text (Bytes Torn)

/-- What a document is when it is checked. -/
def entriesUnder (vars : Variables) (d : Document) : Mapping :=
  let d := applyOverrides vars d
  ((d.expand 4 d.value).map?).getD []

/-- The errors of the file at a path that are not reported as errors of the configuration. -/
inductive Escapes (files : FileTree) (vars : Variables) (path : String) : LoadError → Prop
  | unreachable : files.IsTooLong path → Escapes files vars path (.unreachable .nameTooLong)
  | directory : files.isDirectory path = true →
      Escapes files vars path (.unreadable (.file .isDirectory path))
  | malformed {bytes : Bytes} {f : Yaml.Fault} : files.read path = .ok bytes →
      Yaml.load bytes = .error f → f.isReported = false → Escapes files vars path (.malformed path f)
  | keyNotText {bytes : Bytes} {d : Document} : files.read path = .ok bytes →
      documentOfBytes path bytes = .ok d → ¬ d.entries.TextKeys → Escapes files vars path .keyNotText
  | unprintable {bytes : Bytes} {d : Document} {level : Torn} : files.read path = .ok bytes →
      documentOfBytes path bytes = .ok d → d.entries.TextKeys → TornLevel (entriesUnder vars d) level →
      Escapes files vars path (.unprintable level)

variable {files : FileTree} {vars : Variables} {path name : String} {d : Document} {m : Mapping}
  {o : Override} {e : LoadError}

/-! The environment. -/

theorem proper_of_mem_overridesOf (h : o ∈ overridesOf vars) (bound : Nat) : o.value.Proper bound := by
  obtain ⟨x, -, hx⟩ := List.mem_filterMap.1 h
  obtain ⟨read, hread, hread_ok⟩ := Option.bind_eq_some_iff.1 hx
  obtain ⟨rest, -, rfl⟩ := Option.map_eq_some_iff.1 hread
  dsimp only at hread_ok
  split at hread_ok
  · cases hread_ok
  · split at hread_ok
    · cases hread_ok
    · cases hread_ok
      dsimp only
      unfold overrideValue
      split <;> trivial

theorem sound_apply (hd : d.Sound) (ho : ∀ bound, o.value.Proper bound) : (Override.apply d o).Sound := by
  unfold Override.apply
  split
  · exact Document.sound_change hd fun m hm => Value.proper_set hm (ho _) _
  · exact Document.sound_set hd (Value.proper_singleton (ho _)) _

theorem sound_applyOverrides (hd : d.Sound) (vars : Variables) : (applyOverrides vars d).Sound := by
  have hall : ∀ o ∈ overridesOf vars, ∀ bound, o.value.Proper bound := fun o => proper_of_mem_overridesOf
  unfold applyOverrides
  generalize overridesOf vars = os at hall
  induction os generalizing d with
  | nil => exact hd
  | cons o os ih =>
    rw [List.forall_mem_cons] at hall
    exact ih (sound_apply hd hall.1) hall.2

theorem textKeys_apply (d : Document) (o : Override) :
    (Override.apply d o).entries.TextKeys ↔ d.entries.TextKeys := by
  unfold Override.apply
  split
  · exact Document.textKeys_change (fun m => Mapping.textKeys_put m _ _) _ d
  · exact Document.textKeys_change (fun m => Mapping.textKeys_put m _ _) _ d

theorem textKeys_applyOverrides (vars : Variables) (d : Document) :
    (applyOverrides vars d).entries.TextKeys ↔ d.entries.TextKeys := by
  unfold applyOverrides
  induction overridesOf vars generalizing d with
  | nil => rfl
  | cons o os ih => exact (ih _).trans (textKeys_apply d o)

/-! Checking. -/

theorem ofMapping_escapes_iff : (ofMapping m = .error e ∧ e.isReported = false) ↔
    e = .keyNotText ∧ ¬ m.TextKeys ∨ m.TextKeys ∧ ∃ level, e = .unprintable level ∧ TornLevel m level := by
  by_cases hkeys : m.TextKeys
  · rw [ofMapping_of_textKeys hkeys]
    simp only [hkeys, not_true, and_false, false_or, true_and, ← check_eq_unprintable_iff]
    rcases check m with (issues | level) | c
    · simp only [Except.mapError, Refusal.toError, Except.error.injEq, reduceCtorEq, and_false, exists_false,
        iff_false, not_and]
      rintro rfl
      exact Bool.noConfusion
    · simp only [Except.mapError, Refusal.toError, Except.error.injEq, Refusal.unprintable.injEq]
      constructor
      · rintro ⟨rfl, -⟩
        exact ⟨level, rfl, rfl⟩
      · rintro ⟨_, rfl, rfl⟩
        exact ⟨rfl, rfl⟩
    · simp [Except.mapError]
  · simp only [hkeys, not_false_eq_true, and_true, false_and, or_false]
    rw [ofMapping_of_not_textKeys hkeys]
    constructor
    · rintro ⟨heq, -⟩
      exact (Except.error.inj heq).symm
    · rintro rfl
      exact ⟨rfl, rfl⟩

theorem ofDocument_escapes_iff (hd : d.Sound) (vars : Variables) :
    (ofDocument (applyOverrides vars d) = .error e ∧ e.isReported = false) ↔
      e = .keyNotText ∧ ¬ d.entries.TextKeys ∨
        d.entries.TextKeys ∧ ∃ level, e = .unprintable level ∧ TornLevel (entriesUnder vars d) level := by
  have hkeys : (entriesUnder vars d).TextKeys ↔ d.entries.TextKeys :=
    (Document.textKeys_expand (sound_applyOverrides hd vars) 2).trans (textKeys_applyOverrides vars d)
  rw [← hkeys]
  exact ofMapping_escapes_iff

/-! The file. -/

theorem sound_documentOfBytes {bytes : Bytes} (h : documentOfBytes path bytes = .ok d) : d.Sound := by
  unfold documentOfBytes at h
  split at h
  · cases h
  · next hload =>
    split at h
    · cases h
      exact Document.sound_empty
    · cases h
      exact Yaml.sound_of_load hload
    · cases h

theorem documentOfBytes_escapes_iff {bytes : Bytes} :
    (documentOfBytes path bytes = .error e ∧ e.isReported = false) ↔
      ∃ f, Yaml.load bytes = .error f ∧ f.isReported = false ∧ e = .malformed path f := by
  unfold documentOfBytes
  cases hload : Yaml.load bytes with
  | error f =>
    constructor
    · rintro ⟨heq, hreported⟩
      cases heq
      exact ⟨f, rfl, hreported, rfl⟩
    · rintro ⟨f', hf, hreported, rfl⟩
      cases hf
      exact ⟨rfl, hreported⟩
  | ok d =>
    refine iff_of_false ?_ fun ⟨f, hf, _⟩ => nomatch hf
    rintro ⟨heq, hreported⟩
    dsimp only at heq
    split at heq
    · cases heq
    · cases heq
    · cases heq
      cases hreported

theorem readDocument_of_read {bytes : Bytes} (h : files.read path = .ok bytes) :
    readDocument files path = documentOfBytes path bytes := by
  simp [readDocument, FileTree.has_of_read h, h]

theorem readDocument_of_directory (h : files.isDirectory path = true) :
    readDocument files path = .error (.unreadable (.file .isDirectory path)) := by
  simp [readDocument, FileTree.has_of_isDirectory h, FileTree.isDirectory_iff.1 h]

theorem Escapes.has_of_not_isTooLong (h : Escapes files vars path e) (hshort : ¬ files.IsTooLong path) :
    files.has path = true := by
  cases h with
  | unreachable hlong => exact absurd hlong hshort
  | directory hdirectory => exact FileTree.has_of_isDirectory hdirectory
  | malformed hread => exact FileTree.has_of_read hread
  | keyNotText hread => exact FileTree.has_of_read hread
  | unprintable hread => exact FileTree.has_of_read hread

theorem read_escapes_iff (hhas : files.has path = true) (vars : Variables) :
    ((readDocument files path >>= fun d => ofDocument (applyOverrides vars d)) = .error e ∧
      e.isReported = false) ↔ Escapes files vars path e := by
  rcases FileTree.read_of_has hhas with hdirectory | ⟨bytes, hread⟩
  · rw [readDocument_of_directory hdirectory]
    constructor
    · rintro ⟨heq, -⟩
      cases heq
      exact .directory hdirectory
    · intro h
      have hnone := FileTree.isDirectory_iff.1 hdirectory
      cases h with
      | unreachable hlong => exact absurd hhas (by simp [hlong.has_eq_false])
      | directory _ => exact ⟨rfl, rfl⟩
      | malformed hread => cases hnone.symm.trans hread
      | keyNotText hread => cases hnone.symm.trans hread
      | unprintable hread => cases hnone.symm.trans hread
  · rw [readDocument_of_read hread, bind_eq_error, or_and_right, documentOfBytes_escapes_iff]
    constructor
    · rintro (⟨f, hload, hreported, rfl⟩ | ⟨⟨d, hd, heq⟩, hreported⟩)
      · exact .malformed hread hload hreported
      · rcases (ofDocument_escapes_iff (sound_documentOfBytes hd) vars).1 ⟨heq, hreported⟩ with
          ⟨rfl, hkeys⟩ | ⟨hkeys, level, rfl, hlevel⟩
        · exact .keyNotText hread hd hkeys
        · exact .unprintable hread hd hkeys hlevel
    · intro h
      cases h with
      | unreachable hlong => exact absurd hhas (by simp [hlong.has_eq_false])
      | directory hdirectory => cases hread.symm.trans (FileTree.isDirectory_iff.1 hdirectory)
      | malformed hread' hload hreported =>
        cases hread.symm.trans hread'
        exact .inl ⟨_, hload, hreported, rfl⟩
      | keyNotText hread' hd hkeys =>
        cases hread.symm.trans hread'
        have hchecked := (ofDocument_escapes_iff (sound_documentOfBytes hd) vars).2 (.inl ⟨rfl, hkeys⟩)
        exact .inr ⟨⟨_, hd, hchecked.1⟩, hchecked.2⟩
      | unprintable hread' hd hkeys hlevel =>
        cases hread.symm.trans hread'
        have hchecked := (ofDocument_escapes_iff (sound_documentOfBytes hd) vars).2
          (.inr ⟨hkeys, _, rfl, hlevel⟩)
        exact .inr ⟨⟨_, hd, hchecked.1⟩, hchecked.2⟩

/-- Loading a configuration fails with an error that is not reported exactly if the path cannot be looked
up, leads to a directory, or the bytes of its file are no text, no value that can be read, a mapping with a
key that is no text, or one whose level has a lone surrogate. The environment counts for the level only. -/
theorem load_escapes_iff (files : FileTree) (env : Environment) (name : String) (e : LoadError) :
    (load files env name = .error e ∧ e.isReported = false) ↔
      Escapes files env.vars (Pathname.ofText name).text e := by
  unfold load
  dsimp only
  generalize (Pathname.ofText name).text = path
  rcases files.isThere_eq path with ⟨hhas, hthere⟩ | ⟨hhas, hlong, hthere⟩ | ⟨hhas, hshort, hthere⟩
  · rw [hthere]
    exact read_escapes_iff hhas env.vars
  · rw [hthere]
    constructor
    · rintro ⟨heq, -⟩
      cases heq
      exact .unreachable hlong
    · intro h
      cases h with
      | unreachable _ => exact ⟨rfl, rfl⟩
      | directory hdirectory => simp [FileTree.has_of_isDirectory hdirectory] at hhas
      | malformed hread => simp [FileTree.has_of_read hread] at hhas
      | keyNotText hread => simp [FileTree.has_of_read hread] at hhas
      | unprintable hread => simp [FileTree.has_of_read hread] at hhas
  · rw [hthere]
    refine iff_of_false ?_ fun h => ?_
    · rintro ⟨heq, hreported⟩
      cases heq
      cases hreported
    · simp [h.has_of_not_isTooLong hshort] at hhas

def undecodableFile : FileTree :=
  { entries := [(["c.yaml"], .file [0xFF])] }

theorem undecodable_escapes :
    load undecodableFile {} "c.yaml" = .error (.malformed "c.yaml" (.undecodable ⟨.start, 0, [0xFF]⟩)) ∧
      (LoadError.malformed "c.yaml" (.undecodable ⟨.start, 0, [0xFF]⟩)).isReported = false :=
  ⟨rfl, rfl⟩

end FeedOutline.Config
