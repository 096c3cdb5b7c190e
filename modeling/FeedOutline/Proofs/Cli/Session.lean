import FeedOutline.Cli.Run
import FeedOutline.Proofs.Log.Files

/-!
Parts of a run one after the other, and what the preparation of a command leaves alone.
-/
namespace FeedOutline.Cli

open Disk (Pathname FileTree)
open Disk.FileTree (Alike)

def Gives {α : Type} (x : Run α) (s : Session) (a : α) (s' : Session) : Prop :=
  x.run.run s = (.ok a, s')

namespace Gives

open Run (say print write fail crash change setFiles)

variable {α β : Type} {a : α} {b : β} {s s' : Session}

theorem bind_iff {x : Run α} {f : α → Run β} :
    Gives (x >>= f) s b s' ↔ ∃ a m, Gives x s a m ∧ Gives (f a) m b s' := by
  have hbind : (x >>= f).run.run s =
      match x.run.run s with
      | (.ok a, m) => (f a).run.run m
      | (.error e, m) => (.error e, m) := by
    simp only [ExceptT.run_bind, StateT.run_bind]
    rcases x.run.run s with ⟨_ | a, m⟩ <;> rfl
  unfold Gives
  rw [hbind]
  rcases x.run.run s with ⟨e | a, m⟩
  · constructor
    · intro h
      cases (h : (Except.error e, m) = (Except.ok b, s'))
    · rintro ⟨a, m', h, -⟩
      cases (h : (Except.error e, m) = (Except.ok a, m'))
  · constructor
    · exact fun h => ⟨a, m, rfl, h⟩
    · rintro ⟨a', m', h, h'⟩
      cases (h : (Except.ok a, m) = (Except.ok a', m'))
      exact h'

theorem of_result {x : Run α} (h : (x.run.run s).1 = .ok a) : Gives x s a (x.run.run s).2 :=
  Prod.ext h rfl

theorem result {x : Run α} (h : Gives x s a s') : (x.run.run s).1 = .ok a :=
  congrArg Prod.fst h

theorem pure_iff {a' : α} : Gives (pure a) s a' s' ↔ a' = a ∧ s' = s := by
  constructor
  · intro h
    cases (h : (Except.ok a, s) = (Except.ok a', s'))
    exact ⟨rfl, rfl⟩
  · rintro ⟨rfl, rfl⟩
    rfl

theorem modify_iff {f : Session → Session} {u : Unit} : Gives (modify f : Run Unit) s u s' ↔ s' = f s := by
  constructor
  · intro h
    cases (h : (Except.ok (), f s) = (Except.ok u, s'))
    rfl
  · rintro rfl
    rfl

theorem get_bind_iff {f : Session → Run β} : Gives (get >>= f) s b s' ↔ Gives (f s) s b s' := Iff.rfl

theorem files_bind_iff {f : FileTree → Run β} :
    Gives (Run.files >>= f) s b s' ↔ Gives (f s.outputs.files) s b s' := Iff.rfl

theorem modify_bind_iff {f : Session → Session} {next : Unit → Run β} :
    Gives (modify f >>= next) s b s' ↔ Gives (next ()) (f s) b s' := Iff.rfl

theorem not_crash {c : Crash} : ¬ Gives (crash c : Run α) s a s' := by
  intro h
  cases (h : (Except.error (Stop.crash c), s) = (Except.ok a, s'))

theorem not_fail {code : Nat} {message : String} : ¬ Gives (fail code message : Run α) s a s' := by
  intro h
  unfold fail at h
  obtain ⟨_, m, -, h⟩ := bind_iff.1 h
  cases (h : (Except.error (Stop.exit code), m) = (Except.ok a, s'))

theorem change_iff {path : String} {result : Except Disk.Fault FileTree} {u : Unit} :
    Gives (change path result) s u s' ↔
      ∃ t, result = .ok t ∧ s' = { s with outputs := { s.outputs with files := t } } := by
  cases result with
  | error f => exact ⟨fun h => absurd h not_crash, by rintro ⟨_, h, -⟩; cases h⟩
  | ok t => simpa [change, setFiles] using modify_iff

/-! The preparation of a command. -/

theorem loadSettings {r : Request} {c : Config} (h : Gives (loadSettings r) s c s')
    (hlog : s.logger.handlers = []) (names : List String) : Alike names s.outputs.files s'.outputs.files := by
  have hspares : s.logger.Spares names := by simp [Log.Logger.Spares, Log.Logger.files, hlog]
  unfold Cli.loadSettings say at h
  rw [get_bind_iff] at h
  dsimp only at h
  rw [modify_bind_iff, modify_bind_iff] at h
  split at h
  · rw [(pure_iff.1 h).2]
    exact hspares.alike_deliverAll _ _ _
  · split at h
    · exact absurd h not_fail
    · exact absurd h not_crash
  · exact absurd h not_crash

theorem setUpLog {r : Request} {c : Config} {u : Unit} (h : Gives (setUpLog r c) s u s')
    {names : List String} (hlog : s'.logger.Spares names) : Alike names s.outputs.files s'.outputs.files := by
  unfold Cli.setUpLog say setFiles at h
  rw [get_bind_iff] at h
  dsimp only at h
  rw [modify_bind_iff, modify_bind_iff] at h
  split at h
  · rw [modify_iff.1 h] at hlog ⊢
    refine .trans ?_ (Log.Logger.Spares.alike_deliverAll hlog _ _ _)
    exact Log.alike_setup _ _ _ names
  · exact absurd h not_crash

theorem prepare {r : Request} {c : Config} (h : Gives (prepare r) s c s')
    (hlog : s.logger.handlers = []) {names : List String} (hspares : s'.logger.Spares names) :
    Alike names s.outputs.files s'.outputs.files := by
  unfold Cli.prepare at h
  obtain ⟨_, m, hload, h⟩ := bind_iff.1 h
  obtain ⟨_, m', hsetup, h⟩ := bind_iff.1 h
  obtain ⟨rfl, rfl⟩ := pure_iff.1 h
  exact (hload.loadSettings hlog names).trans (hsetup.setUpLog hspares)

end Gives

end FeedOutline.Cli
