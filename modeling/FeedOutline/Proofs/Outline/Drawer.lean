import FeedOutline.Outline.Drawer
import FeedOutline.Proofs.Text.Search
import FeedOutline.Proofs.Text.Tag
import Mathlib.Data.List.TakeWhile
import Mathlib.Tactic.Tauto

/-!
The drawer of a section as a whole. Going through the lines one by one comes to the same id as looking for the
drawer first and then for its last line with an id.
-/
namespace FeedOutline.Outline

open Text

variable {line name v : List Char} {id : Option String}

/-- The line is `:ID:`, in either case, with nothing or with a value behind it. -/
def SetsId (line : List Char) (id : Option String) : Prop :=
  ∃ name value, line = ':' :: (name ++ ':' :: value) ∧ upper name = "ID".toList ∧
    (∀ c ∈ value.head?, isGap c = true) ∧
    id = if trim value = [] then none else some (String.ofList (trim value))

/-- The last id that is set before the drawer is closed. -/
def drawerId (ls : List (List Char)) : Option String :=
  ((ls.takeWhile (!closesDrawer ·)).filterMap idProperty?).getLast?.join

/-- The id that the lines of a section give to its heading. -/
def sectionId (ls : List (List Char)) : Option String :=
  match (ls.map trim).dropWhile isPlanning with
  | [] => none
  | first :: rest => if opensDrawer first then drawerId rest else none

/-! The form of the lines. -/

theorem inName_iff (c : Char) : (c != ':' && !isBlank c) = true ↔ c ≠ ':' ∧ isBlank c = false := by
  simp

theorem setApart_iff {value : List Char} :
    (value.isEmpty || value.head?.any isGap) = true ↔ ∀ c ∈ value.head?, isGap c = true := by
  cases value <;> simp

theorem exists_of_property? (h : property? line = some (name, v)) :
    ∃ value, line = ':' :: (name ++ ':' :: value) ∧ name ≠ [] ∧
      (∀ c ∈ name, c ≠ ':' ∧ isBlank c = false) ∧ (∀ c ∈ value.head?, isGap c = true) ∧ v = trim value := by
  unfold property? at h
  split at h
  · next rest =>
    have hrest : rest.takeWhile (fun c => c != ':' && !isBlank c) ++
        rest.dropWhile (fun c => c != ':' && !isBlank c) = rest := List.takeWhile_append_dropWhile
    dsimp only at h
    split at h
    · next value hvalue =>
      split at h
      · next hcond =>
        obtain ⟨rfl, rfl⟩ := Prod.mk.inj (Option.some.inj h)
        rw [hvalue] at hrest
        rw [Bool.and_eq_true, Bool.not_eq_true', List.isEmpty_eq_false_iff, setApart_iff] at hcond
        refine ⟨value, congrArg _ hrest.symm, hcond.1, ?_, hcond.2, rfl⟩
        intro c hc
        have hin := List.mem_takeWhile_imp hc
        exact (inName_iff c).1 hin
      · cases h
    · cases h
  · cases h

theorem property?_eq {value : List Char} (hne : name ≠ [])
    (hname : ∀ c ∈ name, c ≠ ':' ∧ isBlank c = false) (hgap : ∀ c ∈ value.head?, isGap c = true) :
    property? (':' :: (name ++ ':' :: value)) = some (name, trim value) := by
  have hall : ∀ c ∈ name, (c != ':' && !isBlank c) = true := fun c hc => (inName_iff c).2 (hname c hc)
  have hstop : ∀ c ∈ (':' :: value).head?, (c != ':' && !isBlank c) = false := by simp
  have htake := takeWhile_append_stop hall hstop
  have hdrop := dropWhile_append_stop hall hstop
  have hvalue := setApart_iff.2 hgap
  simp [property?, htake, hdrop, hvalue, hne]

theorem not_colon_or_blank_of_upper (h : upper name = "ID".toList) :
    ∀ c ∈ name, c ≠ ':' ∧ isBlank c = false := by
  intro c hc
  have hletters : ∀ d ∈ upperChar c, d ∈ "ID".toList := by
    intro d hd
    rw [← h]
    exact List.mem_flatMap.2 ⟨c, hc, hd⟩
  constructor
  · rintro rfl
    revert hletters
    decide
  · rw [← Bool.not_eq_true]
    intro hblank
    have hnone : ∀ n ∈ blankCodes, ¬ ∀ d ∈ upperChar (Char.ofNat n), d ∈ "ID".toList := by decide +kernel
    have hnot := hnone _ (mem_blankCodes hblank)
    rw [Char.ofNat_toNat] at hnot
    exact hnot hletters

theorem idProperty?_eq_some_iff : idProperty? line = some id ↔ SetsId line id := by
  unfold idProperty?
  constructor
  · intro h
    split at h
    · next name v hproperty =>
      obtain ⟨value, hline, -, -, hgap, rfl⟩ := exists_of_property? hproperty
      split at h
      · next hname =>
        refine ⟨name, value, hline, eq_of_beq hname, hgap, ?_⟩
        simpa using (Option.some.inj h).symm
      · cases h
    · cases h
  · rintro ⟨name, value, rfl, hname, hgap, rfl⟩
    have hne : name ≠ [] := by
      rintro rfl
      cases hname
    rw [property?_eq hne (not_colon_or_blank_of_upper hname) hgap]
    simp [hname]

theorem opensDrawer_of_isPlanning (h : isPlanning line = true) : opensDrawer line = false := by
  rw [← Bool.not_eq_true, opensDrawer, beq_iff_eq]
  intro hopen
  cases line with
  | nil => cases hopen
  | cons c line =>
    have hfirst : upperChar c = ['S'] ∨ upperChar c = ['D'] ∨ upperChar c = ['C'] := by
      simp [isPlanning, startsWithCapitals, sameLetter] at h
      tauto
    rw [upper, List.flatMap_cons] at hopen
    rcases hfirst with hc | hc | hc <;> simp [hc] at hopen

/-! The reader's steps. -/

namespace Drawer

def lastId : Drawer → Option String → List (List Char) → Option String
  | _, id, [] => id
  | d, id, line :: ls => (d.step line).1.lastId ((d.step line).2.getD id) ls

theorem lastId_over (id : Option String) (ls : List (List Char)) : over.lastId id ls = id := by
  induction ls with
  | nil => rfl
  | cons line ls ih => exact ih

theorem lastId_inside (id : Option String) (ls : List (List Char)) : inside.lastId id ls =
    ((ls.takeWhile (!closesDrawer ·)).filterMap idProperty?).getLast?.getD id := by
  induction ls generalizing id with
  | nil => rfl
  | cons line ls ih =>
    rw [lastId, step]
    cases hclose : closesDrawer line with
    | true => simp [hclose, lastId_over]
    | false =>
      cases hline : idProperty? line with
      | none => simp [hclose, hline, ih]
      | some id' => simp [hclose, hline, ih, List.getLast?_cons]

theorem lastId_awaited (ls : List (List Char)) : awaited.lastId none (ls.map trim) = sectionId ls := by
  unfold sectionId
  induction ls.map trim with
  | nil => rfl
  | cons line ls ih =>
    rw [lastId, step]
    cases hopen : opensDrawer line with
    | true =>
      have hplan : isPlanning line = false := by
        rw [← Bool.not_eq_true]
        intro hplan
        rw [opensDrawer_of_isPlanning hplan] at hopen
        cases hopen
      simp only [hplan, hopen, lastId_inside, drawerId, if_true, Option.getD_none,
        List.dropWhile_cons_of_neg, Bool.false_eq_true, not_false_eq_true]
      cases ((ls.takeWhile (!closesDrawer ·)).filterMap idProperty?).getLast? <;> rfl
    | false =>
      cases hplan : isPlanning line with
      | true => simp [hplan, ih]
      | false => simp [hplan, hopen, lastId_over]

end Drawer

end FeedOutline.Outline
