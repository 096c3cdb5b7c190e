import FeedOutline.Proofs.Disk.Pathname
import FeedOutline.Proofs.Environment
import FeedOutline.Proofs.Except
import FeedOutline.Settings
import Mathlib.Data.List.Induction

/-!
What settings go through. They are loaded, asked and reset in any order while files and variables change; the
configuration is at every moment the one that was loaded first since it was last forgotten.
-/
namespace FeedOutline.Settings

open Disk (FileTree)
open Environment (Kept)
open Text (AnyText)

/-- What can happen. An edit leaves behind any files at all, and so it is with variables. -/
inductive Event where
  | load (source : Source)
  | reset
  | ask (q : Query)
  | edit (files : FileTree)
  | setEnvironment (env : Environment)
  deriving DecidableEq

structure Host where
  files : FileTree
  settings : Settings

namespace Host

def step (h : Host) : Event → Host
  | .load source => { h with settings := (h.settings.load h.files source).1 }
  | .reset => { h with settings := h.settings.reset }
  | .ask q => { h with settings := (h.settings.ask h.files q).1 }
  | .edit files => { h with files }
  | .setEnvironment env => { h with settings := { h.settings with env } }

def run (h : Host) (events : List Event) : Host :=
  events.foldl step h

end Host

def Event.source? : Event → Option Source
  | .load source => some source
  | .ask _ => some usualSource
  | .reset | .edit _ | .setEnvironment _ => none

def Host.Loads (h : Host) (e : Event) (c : Config) : Prop :=
  h.settings.config = none ∧ ∃ source ∈ e.source?, ∃ env,
    h.settings.load h.files source = (⟨some c, env⟩, .ok ())

/-- Every question is answered from this configuration. Of the documents only those that begin with a tilde are
named otherwise, and only they can have no answer. -/
structure Answers (s : Settings) (files : FileTree) (c : Config) : Prop where
  outlineFiles : s.ask files .outlineFiles =
    (s, (c.outline.files.mapM (Disk.expandAnyHome s.env)).mapError .home)
  plainFiles : (∀ path ∈ c.outline.files, path.marks.head? ≠ some (.char '~')) →
    s.ask files .outlineFiles = (s, .ok c.outline.files)
  treeId : s.ask files .treeId = (s, .ok c.outline.treeId)
  ignoreTag : s.ask files .ignoreTag = (s, .ok c.outline.ignoreTag)
  logLevel : s.ask files .logLevel = (s, .ok c.logging.level)
  logFormat : s.ask files .logFormat = (s, .ok c.logging.format)
  logFile : s.ask files .logFile = (s, .ok c.logging.file)

/-- One of the events has loaded this configuration, and none after it has forgotten it. -/
def LoadedBy (h : Host) (events : List Event) (c : Config) : Prop :=
  ∃ before e after, events = before ++ e :: after ∧ (h.run before).Loads e c ∧ .reset ∉ after

theorem loadedBy_append_singleton {h : Host} {events : List Event} {e : Event} {c : Config} :
    LoadedBy h (events ++ [e]) c ↔ (h.run events).Loads e c ∨ LoadedBy h events c ∧ e ≠ .reset := by
  constructor
  · rintro ⟨before, e', after, heq, hloads, hafter⟩
    cases after using List.reverseRecOn with
    | nil =>
      obtain ⟨rfl, rfl⟩ := List.append_singleton_inj.1 heq
      exact .inl hloads
    | append_singleton after last _ =>
      rw [← List.cons_append, ← List.append_assoc] at heq
      obtain ⟨rfl, rfl⟩ := List.append_singleton_inj.1 heq
      simp only [List.mem_append, List.mem_singleton, not_or] at hafter
      exact .inr ⟨⟨before, e', after, rfl, hloads, hafter.1⟩, Ne.symm hafter.2⟩
  · rintro (hloads | ⟨⟨before, e', after, rfl, hloads, hafter⟩, he⟩)
    · exact ⟨events, e, [], rfl, hloads, by simp⟩
    · exact ⟨before, e', after ++ [e], by simp, hloads, by simp [hafter, Ne.symm he]⟩

/-! One load. -/

section Load

variable {s : Settings} {files : FileTree} {source : Source}

theorem kept_extended (files : FileTree) (env : Environment) (path : String) :
    Kept env (extended files env path).1 := by
  unfold extended
  split
  · exact .refl env
  · exact Environment.kept_extendFrom env _

theorem load_of_isSome (h : s.config.isSome) : s.load files source = (s, .ok ()) := by
  rw [load, if_pos h]

theorem load_cases (h : s.config = none) (files : FileTree) (source : Source) :
    ∃ env, Kept s.env env ∧ ((∃ c, s.load files source = (⟨some c, env⟩, .ok ())) ∨
      ∃ err, s.load files source = (⟨none, env⟩, .error err)) := by
  have hkept := kept_extended files s.env source.envPath
  unfold load
  rw [if_neg (by simp [h])]
  split
  · next env err hextended =>
    rw [hextended] at hkept
    exact ⟨env, hkept, .inr ⟨err, rfl⟩⟩
  · next env _ hextended =>
    rw [hextended] at hkept
    split
    · next c _ => exact ⟨env, hkept, .inl ⟨c, rfl⟩⟩
    · next err _ => exact ⟨env, hkept, .inr ⟨_, rfl⟩⟩

theorem kept_load (s : Settings) (files : FileTree) (source : Source) :
    Kept s.env (s.load files source).1.env := by
  cases h : s.config with
  | some c =>
    rw [load_of_isSome (by simp [h])]
    exact .refl s.env
  | none =>
    obtain ⟨env, hkept, ⟨c, hload⟩ | ⟨err, hload⟩⟩ := load_cases h files source
    all_goals rwa [hload]

theorem config_of_load_error {err : LoadError} (h : (s.load files source).2 = .error err) :
    (s.load files source).1.config = none := by
  cases hconfig : s.config with
  | some c =>
    rw [load_of_isSome (by simp [hconfig])] at h
    cases h
  | none =>
    obtain ⟨env, -, ⟨c, hload⟩ | ⟨err', hload⟩⟩ := load_cases hconfig files source
    · rw [hload] at h
      cases h
    · rw [hload]

theorem current_of_config {c : Config} (h : s.config = some c) : s.current files = (s, .ok c) := by
  rw [current, load_of_isSome (by simp [h])]
  simp [h]

theorem answers_of_config {c : Config} (h : s.config = some c) (files : FileTree) : Answers s files c := by
  have hask (q : Query) : s.ask files q = (s, q.answer s.env c) := by
    rw [ask, current_of_config h]
  refine ⟨hask _, fun hplain => (hask _).trans ?_, hask _, hask _, hask _, hask _, hask _⟩
  have hfiles : c.outline.files.mapM (Disk.expandAnyHome s.env) = .ok c.outline.files :=
    mapM_eq_ok_iff.2 (List.forall₂_same.2 fun path hpath => Disk.expandAnyHome_of_head (hplain path hpath))
  rw [Query.answer, outlineFiles, hfiles]
  rfl

theorem ask_fst (s : Settings) (files : FileTree) (q : Query) :
    (s.ask files q).1 = (s.load files usualSource).1 := by
  have hcurrent : (s.current files).1 = (s.load files usualSource).1 := by
    unfold current
    dsimp only
    split <;> rfl
  rw [← hcurrent]
  unfold ask
  split <;> next heq => rw [heq]

end Load

namespace Host

variable (h : Host)

/-! One step. -/

theorem settings_step_of_source {e : Event} {source : Source} (he : e.source? = some source) :
    (h.step e).settings = (h.settings.load h.files source).1 := by
  cases e with
  | load => cases he; rfl
  | ask q => cases he; exact ask_fst h.settings h.files q
  | reset | edit | setEnvironment => cases he

theorem config_step_of_no_source {e : Event} (he : e.source? = none) (hreset : e ≠ .reset) :
    (h.step e).settings.config = h.settings.config := by
  cases e with
  | reset => exact absurd rfl hreset
  | edit | setEnvironment => rfl
  | load | ask => cases he

theorem config_step_iff {e : Event} {c : Config} : (h.step e).settings.config = some c ↔
    h.Loads e c ∨ h.settings.config = some c ∧ e ≠ .reset := by
  cases he : e.source? with
  | none =>
    have hloads : ¬ h.Loads e c := by
      rintro ⟨-, source, hsource, -⟩
      rw [he] at hsource
      cases hsource
    by_cases hreset : e = .reset
    · subst hreset
      simp [hloads, step, reset]
    · simp [hloads, hreset, h.config_step_of_no_source he hreset]
  | some source =>
    have hreset : e ≠ .reset := by
      rintro rfl
      cases he
    rw [h.settings_step_of_source he]
    cases hconfig : h.settings.config with
    | some c' =>
      rw [load_of_isSome (by simp [hconfig])]
      simp [Loads, hconfig, hreset]
    | none =>
      obtain ⟨env, -, ⟨c', hload⟩ | ⟨err, hload⟩⟩ := load_cases hconfig h.files source
      all_goals simp [Loads, hconfig, he, hload]

/-! A run. -/

theorem run_append (events later : List Event) : h.run (events ++ later) = (h.run events).run later :=
  List.foldl_append

theorem run_append_singleton (events : List Event) (e : Event) :
    h.run (events ++ [e]) = (h.run events).step e := by
  rw [run_append]
  rfl

theorem config_run_iff (hnone : h.settings.config = none) {events : List Event} {c : Config} :
    (h.run events).settings.config = some c ↔ LoadedBy h events c := by
  induction events using List.reverseRecOn with
  | nil =>
    have hloaded : ¬ LoadedBy h [] c := by
      rintro ⟨before, e, after, heq, -⟩
      simp at heq
    simp [run, hnone, hloaded]
  | append_singleton events e ih =>
    rw [run_append_singleton, config_step_iff, ih, loadedBy_append_singleton]

theorem config_run_of_config {c : Config} (hconfig : h.settings.config = some c) {later : List Event}
    (hlater : .reset ∉ later) : (h.run later).settings.config = some c := by
  induction later generalizing h with
  | nil => exact hconfig
  | cons e later ih =>
    rw [List.mem_cons, not_or] at hlater
    exact ih (h.step e) (h.config_step_iff.2 (.inr ⟨hconfig, Ne.symm hlater.1⟩)) hlater.2

end Host

/-- At every moment of a run the configuration is the one that was loaded when there was none, if no reset came
after that. A load changes nothing where there is one, leaves none if it fails, and changes no variable that is
set. Until the next reset every question is answered from it, whatever becomes of files and variables. -/
theorem run_answers (files : FileTree) (env : Environment) (events : List Event) :
    let host := Host.run ⟨files, { env }⟩ events
    (∀ c, host.settings.config = some c ↔ LoadedBy ⟨files, { env }⟩ events c) ∧
      (∀ source, host.settings.config.isSome →
        host.settings.load host.files source = (host.settings, .ok ())) ∧
      (∀ source err, (host.settings.load host.files source).2 = .error err →
        (host.settings.load host.files source).1.config = none) ∧
      (∀ source, Kept host.settings.env (host.settings.load host.files source).1.env) ∧
      ∀ c, host.settings.config = some c → ∀ later, .reset ∉ later →
        let now := host.run later
        Answers now.settings now.files c := by
  intro host
  refine ⟨fun c => Host.config_run_iff _ rfl, fun source h => load_of_isSome h,
    fun source err h => config_of_load_error h, fun source => kept_load _ _ source, ?_⟩
  intro c hconfig later hlater
  exact answers_of_config (host.config_run_of_config hconfig hlater) _

/-- The first load fails, but what it has read from the file of assignments stays, except for the home that was
set before. The first question loads a configuration, and others are answered from it after the variables are gone
that it came from; only where the home is now is told by the new ones. -/
theorem run_answers_of_failure :
    let files : FileTree := { entries := [([".env"], .file (Text.encodeUtf8
      "HOME=/x\nORGFEED_OUTLINE_TREE_ID=feeds\nORGFEED_OUTLINE_FILES=~/a.org,b.org\n"))] }
    let env : Environment := { vars := [("HOME", "home")] }
    let source : Source := ⟨"c.yaml", ".env", false⟩
    let events : List Event := [.load source, .edit {}, .ask .logLevel]
    let host := Host.run ⟨files, { env }⟩ events
    let c : Config := { outline := { files := ["~/a.org", "b.org"], treeId := "feeds" } }
    let now := host.run [.setEnvironment { vars := [("HOME", "/h")] }, .load source]
    (load files source { env }).2 = .error (.config (.notFound "c.yaml")) ∧
      (load files source { env }).1.config = none ∧
      (load files source { env }).1.env.get? "HOME" = some "home" ∧
      host.settings.config = some c ∧ LoadedBy ⟨files, { env }⟩ events c ∧
      host.settings.load host.files source = (host.settings, .ok ()) ∧
      now.settings.ask now.files .treeId = (now.settings, .ok ("feeds" : AnyText)) ∧
      now.settings.ask now.files .outlineFiles = (now.settings, .ok (["/h/a.org", "b.org"] : List AnyText)) := by
  intro files env source events host c now
  have hfails : (load files source { env }).2 = .error (.config (.notFound "c.yaml")) := by
    decide +kernel
  have hconfig : host.settings.config = some c := by decide +kernel
  obtain ⟨-, -, hnone, hkept, -⟩ := run_answers files env []
  obtain ⟨hloaded, hagain, -, -, hanswers⟩ := run_answers files env events
  have hnow := hanswers c hconfig [.setEnvironment { vars := [("HOME", "/h")] }, .load source] (by simp)
  have hfiles : c.outline.files.mapM (Disk.expandAnyHome now.settings.env) =
      .ok (["/h/a.org", "b.org"] : List AnyText) := by decide +kernel
  refine ⟨hfails, hnone source _ hfails, hkept source _ _ rfl, hconfig, (hloaded c).1 hconfig,
    hagain source (Option.isSome_iff_exists.2 ⟨c, hconfig⟩), hnow.treeId, hnow.outlineFiles.trans ?_⟩
  rw [hfiles]
  rfl

end FeedOutline.Settings
