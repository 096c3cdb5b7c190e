import FeedOutline.Log.Setup
import FeedOutline.Proofs.Disk.FileTree

/-!
Which files a logger writes to. Setting it up makes files and directories but changes no file that is
there; its records go to the log file, and a rotation moves that file and the older ones.
-/
namespace FeedOutline.Log

open Data (Value)
open Disk (Pathname FileTree Entry)
open Disk.FileTree (Alike)
open Text

def Destination.file? : Destination → Option (List String)
  | .console _ => none
  | .file names _ _ => some names

def Logger.files (l : Logger) : List (List String) :=
  l.handlers.filterMap (·.destination.file?)

/-- The file under these names is neither the log file nor an older one. -/
def Apart (names log : List String) : Prop :=
  names ≠ log ∧ ∀ i, 0 < i → names ≠ olderNames log i

def Logger.Spares (l : Logger) (names : List String) : Prop :=
  ∀ log ∈ l.files, Apart names log

variable {names : List String} {t t' : FileTree}

/-! Records. -/

theorem alike_moveFile {source target : List String} (hsource : names ≠ source)
    (htarget : names ≠ target) (t : FileTree) : Alike names t (moveFile t source target) := by
  unfold moveFile
  split
  · exact ((Alike.erase_of_ne hsource).trans (.erase_of_ne htarget)).trans (.set_of_ne htarget)
  · exact .refl names t

theorem Apart.alike_rotated {log : List String} (h : Apart names log) (kept : Nat) (t : FileTree) :
    Alike names t (rotated log kept t) := by
  obtain ⟨hlog, holder⟩ := h
  unfold rotated
  split
  · exact .refl names t
  · refine .trans ?_ ((alike_moveFile hlog (holder 1 Nat.one_pos) _).trans (.set_of_ne hlog))
    generalize (List.range (kept - 1)).reverse = numbers
    induction numbers generalizing t with
    | nil => exact .refl names t
    | cons i numbers ih =>
      rw [List.foldl_cons]
      exact (alike_moveFile (holder _ (Nat.succ_pos _)) (holder _ (Nat.succ_pos _)) t).trans (ih _)

theorem Apart.alike_addToFile {log : List String} (h : Apart names log) (maxBytes backupCount : Value)
    (line : String) (t : FileTree) : Alike names t (addToFile log maxBytes backupCount line t) := by
  unfold addToFile
  dsimp only
  split
  · exact (h.alike_rotated _ t).trans (.set_of_ne h.1)
  · exact .set_of_ne h.1

theorem Handler.alike_handle {h : Handler} (hapart : ∀ log ∈ h.destination.file?, Apart names log)
    (e : Event) (o : Outputs) : Alike names o.files (h.handle e o).files := by
  obtain ⟨destination, level, format⟩ := h
  unfold handle
  split
  · exact .refl names _
  · split
    · cases destination with
      | console stream => cases stream <;> exact .refl names _
      | file log maxBytes backupCount => exact (hapart log rfl).alike_addToFile _ _ _ _
    · exact .refl names _

theorem Logger.files_writeBare (e : Event) (o : Outputs) : (writeBare e o).files = o.files := by
  unfold writeBare
  split <;> rfl

theorem Logger.Spares.alike_deliver {l : Logger} (hspares : l.Spares names) (e : Event)
    (o : Outputs) : Alike names o.files (l.deliver e o).files := by
  unfold deliver emit
  split_ifs
  · exact .refl names _
  · rw [files_writeBare]
    exact .refl names _
  · have hhandlers : ∀ h ∈ l.handlers, ∀ log ∈ h.destination.file?, Apart names log :=
      fun h hh log hlog => hspares log (List.mem_filterMap.2 ⟨h, hh, hlog⟩)
    generalize l.handlers = handlers at hhandlers
    induction handlers generalizing o with
    | nil => exact .refl names _
    | cons h handlers ih =>
      rw [List.forall_mem_cons] at hhandlers
      rw [List.foldl_cons]
      exact (Handler.alike_handle hhandlers.1 e o).trans (ih _ hhandlers.2)
  · rw [files_writeBare]
    exact .refl names _

theorem Logger.Spares.alike_deliverAll {l : Logger} (hspares : l.Spares names)
    (time : Data.Decimal) (records : List Record) (o : Outputs) :
    Alike names o.files (l.deliverAll time records o).files := by
  unfold deliverAll
  induction records generalizing o with
  | nil => exact .refl names _
  | cons record records ih =>
    rw [List.foldl_cons]
    exact (hspares.alike_deliver _ o).trans (ih _)

/-! The setup. -/

theorem plain_of_askable {p q : Pathname} (hp : p.Plain) (h : askable p = .ok q) : q.Plain := by
  unfold askable at h
  split at h
  · cases h
  · cases h
    exact hp

theorem FilePlan.plain_of_directory {plan : FilePlan} {p : Pathname} (h : plan.directory = .ok p) :
    p.Plain := by
  have hparent := (Pathname.plain_ofText plan.path.shown).parent
  unfold directory at h
  dsimp only at h
  split at h
  · exact plain_of_askable hparent h
  · split at h
    · exact plain_of_askable hparent h
    · cases h

theorem alike_openFile (plan : FilePlan) (t : FileTree) (names : List String) :
    Alike names t (openFile plan t).1 := by
  unfold openFile
  split
  · exact .refl names t
  · next directory hdirectory =>
    have hmade := Alike.of_makeDirectories (FilePlan.plain_of_directory hdirectory) t names
    split
    · next heq => rwa [heq] at hmade
    · next heq =>
      rw [heq] at hmade
      split
      · exact hmade
      · split
        · exact hmade
        · dsimp only
          split
          · next happend => exact hmade.trans (.of_append_nil happend names)
          · exact hmade

theorem alike_fileHandler (plan : FilePlan) (t : FileTree) (names : List String) :
    Alike names t (fileHandler plan t).1 := by
  have hopen := alike_openFile plan t names
  unfold fileHandler
  split <;> next heq => rwa [heq] at hopen

theorem alike_configure (settings : Data.Mapping) (t : FileTree) (old : Logger) (names : List String) :
    Alike names t (configure settings t old).files := by
  unfold configure
  split
  · exact .refl names t
  · split
    · exact .refl names t
    · split
      · exact .refl names t
      · exact .refl names t
      · next plan _ =>
        have hfile := alike_fileHandler plan t names
        split <;> next heq => rwa [heq] at hfile

theorem alike_setup (source : SetupSource) (t : FileTree) (old : Logger) (names : List String) :
    Alike names t (setup source t old).files := by
  unfold setup
  split
  · exact .refl names t
  · dsimp only
    split
    · exact alike_configure _ t old names
    · exact alike_configure _ t old names

end FeedOutline.Log
