import FeedOutline.Engine
import FeedOutline.Proofs.Compile.Documents
import FeedOutline.Proofs.Entry
import Mathlib.Data.List.Infix

/-!
What an engine goes through. Its files change, it starts and reloads, entries come in, and titles are set,
in any order; the table in force and the tags of every entry follow from what has happened.
-/
namespace FeedOutline.Engine

open Disk (FileTree)
open Text (encodeUtf8)

/-- What can happen. An edit leaves behind any files at all. -/
inductive Event where
  | edit (files : FileTree)
  | start
  | reload
  | notify (i : Nat)
  | exportTitles
  | setTitle (url : String) (title : Option String)
  deriving DecidableEq

structure Host where
  files : FileTree
  engine : Engine

variable {ε : Type} (compile : FileTree → Except ε RuleTable)

namespace Host

def recompile (h : Host) : Host × Option ε :=
  match h.engine.reload (compile h.files) with
  | .ok engine => ({ h with engine }, none)
  | .error err => (h, some err)

def step (h : Host) : Event → Host × Option ε
  | .edit files => ({ h with files }, none)
  | .start | .reload => h.recompile compile
  | .notify i => ({ h with engine := (h.engine.notify i).1 }, none)
  | .exportTitles => ({ h with engine := h.engine.exportTitles }, none)
  | .setTitle url title => ({ h with engine := h.engine.setTitle url title }, none)

def run (h : Host) (events : List Event) : Host :=
  events.foldl (fun h e => (h.step compile e).1) h

end Host

/-! What a history comes to, told without the engine. -/

def Event.leaves (files : FileTree) : Event → FileTree
  | .edit files' => files'
  | .start | .reload | .notify _ | .exportTitles | .setTitle .. => files

def Event.table? (files : FileTree) : Event → Option RuleTable
  | .start | .reload => (compile files).toOption
  | .edit _ | .notify _ | .exportTitles | .setTitle .. => none

def filesAfter (files : FileTree) (events : List Event) : FileTree :=
  events.foldl Event.leaves files

def tablesOf (files : FileTree) : List Event → List RuleTable
  | [] => []
  | e :: events => (e.table? compile files).toList ++ tablesOf (e.leaves files) events

def inForce (files : FileTree) (events : List Event) : RuleTable :=
  (tablesOf compile files events).getLast?.getD .empty

/-- The tags that entry `i` gets in the course of the events: each time it comes in, those of the rules that
apply to it in the table then in force. -/
def Gained (files : FileTree) (events : List Event) (i : Nat) (entry : Entry) (tag : String) : Prop :=
  ∃ before, before ++ [.notify i] <+: events ∧ entry.Gains (inForce compile files before) tag

theorem tablesOf_append (files : FileTree) (events events' : List Event) :
    tablesOf compile files (events ++ events') =
      tablesOf compile files events ++ tablesOf compile (filesAfter files events) events' := by
  induction events generalizing files with
  | nil => rfl
  | cons e events ih =>
    simp only [List.cons_append, tablesOf, ih, List.append_assoc, filesAfter, List.foldl_cons]

theorem inForce_append_singleton (files : FileTree) (events : List Event) (e : Event) :
    inForce compile files (events ++ [e]) =
      (e.table? compile (filesAfter files events)).getD (inForce compile files events) := by
  simp only [inForce, tablesOf_append, tablesOf, List.append_nil]
  cases e.table? compile (filesAfter files events) <;> simp

theorem gained_append_singleton {files : FileTree} {events : List Event} {e : Event} {i : Nat}
    {entry : Entry} {tag : String} :
    Gained compile files (events ++ [e]) i entry tag ↔
      Gained compile files events i entry tag ∨
        e = .notify i ∧ entry.Gains (inForce compile files events) tag := by
  simp only [Gained, List.prefix_concat_iff, List.append_singleton_inj, or_and_right, exists_or,
    and_assoc, exists_eq_left, eq_comm (a := e)]
  exact or_comm

/-! One step. -/

theorem table_notify (e : Engine) (i : Nat) : (e.notify i).1.table = e.table := by
  unfold notify
  split <;> rfl

theorem entries_notify (e : Engine) (i : Nat) :
    (e.notify i).1.entries = e.entries.modify i fun entry => (entry.apply e.table).entry := by
  unfold notify
  split
  · next h => rw [List.modify_eq_set_getElem?, h]; rfl
  · next entry h => rw [List.modify_eq_set_getElem?, h]; rfl

namespace Host

variable (h : Host)

theorem recompile_of_error {err : ε} (hfail : compile h.files = .error err) :
    h.recompile compile = (h, some err) := by
  simp [recompile, Engine.reload, hfail, bind, Except.bind]

theorem recompile_of_ok {t : RuleTable} (hok : compile h.files = .ok t) : h.recompile compile =
    ({ h with engine := ⟨t, h.engine.store.exportTitles t, h.engine.entries⟩ }, none) := by
  simp [recompile, Engine.reload, hok, bind, Except.bind, pure, Except.pure]

theorem files_step (e : Event) : (h.step compile e).1.files = e.leaves h.files := by
  cases e with
  | start | reload =>
    cases hc : compile h.files with
    | ok t => rw [step, recompile_of_ok compile h hc, Event.leaves]
    | error err => rw [step, recompile_of_error compile h hc, Event.leaves]
  | edit | notify | exportTitles | setTitle => rfl

theorem table_step (e : Event) :
    (h.step compile e).1.engine.table = (e.table? compile h.files).getD h.engine.table := by
  cases e with
  | start | reload =>
    cases hc : compile h.files with
    | ok t => simp [step, recompile_of_ok compile h hc, Event.table?, hc, Except.toOption]
    | error err => simp [step, recompile_of_error compile h hc, Event.table?, hc, Except.toOption]
  | notify i => exact h.engine.table_notify i
  | edit | exportTitles | setTitle => rfl

theorem entries_step (e : Event) (i : Nat) :
    (h.step compile e).1.engine.entries[i]? = h.engine.entries[i]?.map fun entry =>
      if e = .notify i then (entry.apply h.engine.table).entry else entry := by
  cases e with
  | start | reload =>
    cases hc : compile h.files with
    | ok t => simp [step, recompile_of_ok compile h hc]
    | error err => simp [step, recompile_of_error compile h hc]
  | notify j => simp [step, entries_notify, List.getElem?_modify]
  | edit | exportTitles | setTitle => simp [step, Engine.exportTitles, Engine.setTitle]

/-! A run. -/

theorem run_append_singleton (events : List Event) (e : Event) :
    h.run compile (events ++ [e]) = ((h.run compile events).step compile e).1 := by
  rw [run, List.foldl_append]
  rfl

theorem files_run (events : List Event) :
    (h.run compile events).files = filesAfter h.files events := by
  induction events using List.reverseRecOn with
  | nil => rfl
  | append_singleton events e ih =>
    rw [run_append_singleton, files_step, ih, filesAfter, filesAfter, List.foldl_append]
    rfl

theorem table_run (hempty : h.engine.table = .empty) (events : List Event) :
    (h.run compile events).engine.table = inForce compile h.files events := by
  induction events using List.reverseRecOn with
  | nil => exact hempty
  | append_singleton events e ih =>
    rw [run_append_singleton, table_step, ih, files_run, inForce_append_singleton]

theorem entries_run (hempty : h.engine.table = .empty) (events : List Event) {i : Nat} {entry : Entry}
    (hentry : h.engine.entries[i]? = some entry) :
    ∃ now, (h.run compile events).engine.entries[i]? = some now ∧
      now.TaggedFrom entry (Gained compile h.files events i entry) := by
  induction events using List.reverseRecOn with
  | nil => exact ⟨entry, hentry, (Entry.TaggedFrom.refl entry).congr fun tag => by simp [Gained]⟩
  | append_singleton events e ih =>
    -- The rules that match are those of the entry at the start, as tagging leaves all else alone.
    obtain ⟨now, hnow, htagged⟩ := ih
    rw [run_append_singleton, entries_step, hnow, table_run compile h hempty]
    refine ⟨_, rfl, ?_⟩
    split
    · next hnotify =>
      exact (htagged.apply _).congr fun tag => by simp [gained_append_singleton, hnotify]
    · next hother => exact htagged.congr fun tag => by simp [gained_append_singleton, hother]

end Host

/-- At every moment the table in force is that of the last compilation that succeeded, a start or reload
that fails gives its error and changes nothing, and an entry has the tags it began with and those it has
gained since. -/
theorem run_keeps (files : FileTree) (store : Store) (entries : List Entry) (events : List Event) :
    let host := Host.run compile ⟨files, { store, entries }⟩ events
    host.files = filesAfter files events ∧
      host.engine.table = inForce compile files events ∧
      (∀ err, compile host.files = .error err →
        ∀ e ∈ [Event.start, .reload], host.step compile e = (host, some err)) ∧
      ∀ i entry, entries[i]? = some entry → ∃ tags : TagSet,
        host.engine.entries[i]? = some { entry with tags } ∧
        ∀ tag, tag ∈ tags ↔ tag ∈ entry.tags ∨ Gained compile files events i entry tag := by
  refine ⟨Host.files_run _ _ _, Host.table_run _ _ rfl _, ?_, ?_⟩
  · intro err hfail e he
    rcases List.mem_pair.1 he with rfl | rfl
    all_goals exact Host.recompile_of_error compile _ hfail
  · intro i entry hentry
    obtain ⟨now, hnow, ⟨tags, rfl⟩, htags⟩ :=
      Host.entries_run compile ⟨files, { store, entries }⟩ rfl events hentry
    exact ⟨tags, hnow, htags⟩

theorem run_keeps_of_deletion :
    let text := "* Feeds :elfeed:\n** entry-title: Lean :lean:\n** http://a.example :a:\n"
    let compile (files : FileTree) := Compile.table {} {} files ["a.org"]
    let entry : Entry := { feedUrl := "http://a.example", title := some "Lean 4", tags := .ofList ["x"] }
    let events : List Event := [.start, .notify 0, .edit { entries := [(["a.org"], .file (encodeUtf8 text))] },
      .reload, .notify 0, .edit {}, .reload, .notify 0]
    let host := Host.run compile ⟨{}, { store := {}, entries := [entry] }⟩ events
    (compile host.files = .error (.notFound (.ofText "a.org")) ∧
      host.step compile .reload = (host, some (.notFound (.ofText "a.org")))) ∧
      host.engine.table =
        ⟨[⟨.entryTitle, "Lean", .ofList ["lean"]⟩], [⟨"http://a.example", .ofList ["a"], none⟩]⟩ ∧
      [entry][0]? = some entry ∧
      ∃ tags : TagSet, host.engine.entries[0]? = some { entry with tags } ∧
        (∀ tag, tag ∈ tags ↔ tag ∈ entry.tags ∨ Gained compile {} events 0 entry tag) ∧
        tags = .ofList ["a", "lean", "x"] := by
  intro text compile entry events host
  obtain ⟨hfiles, htable, hfails, htags⟩ := run_keeps compile {} {} [entry] events
  have hfail : compile host.files = .error (.notFound (.ofText "a.org")) := by
    rw [hfiles]
    decide +kernel
  obtain ⟨tags, hnow, hmem⟩ := htags 0 entry rfl
  refine ⟨⟨hfail, hfails _ hfail _ (by simp)⟩, ?_, rfl, tags, hnow, hmem, ?_⟩
  · rw [htable]
    decide +kernel
  · have hrun : host.engine.entries[0]? = some { entry with tags := .ofList ["a", "lean", "x"] } := by
      decide +kernel
    rw [hnow] at hrun
    exact congrArg Entry.tags (Option.some.inj hrun)

end FeedOutline.Engine
