import FeedOutline.Config.Schema
import FeedOutline.Proofs.Except
import FeedOutline.Proofs.Text.Tag
import Mathlib.Tactic.SplitIfs

/-!
The tags that a configuration accepts: any text without white space and colons that is not empty.
-/
namespace FeedOutline.Config

open Data (Value Mapping)
open Text

structure Accepted (tag : AnyText) : Prop where
  ne_empty : tag ≠ ""
  not_blank : ∀ c ∈ tag.chars, isBlank c = false
  not_colon : ':' ∉ tag.chars

variable {α β : Type} {m : Mapping} {v : Value} {tag : AnyText}

theorem Checked.both_eq_ok_iff {x : Checked α} {y : Checked β} {a : α} {b : β} :
    Checked.both x y = .ok (a, b) ↔ x = .ok a ∧ y = .ok b := by
  unfold both
  split <;> simp

theorem field_eq_ok {key : String} {default : α} {check : Value → Checked α} {a : α}
    (h : field m key default check = .ok a) : a = default ∨ ∃ v, check v = .ok a := by
  unfold field at h
  split at h
  · exact .inl (Except.ok.inj h).symm
  · next v _ =>
    cases hcheck : check v with
    | error issues =>
      rw [hcheck] at h
      cases h
    | ok b =>
      rw [hcheck] at h
      exact .inr ⟨v, by rw [hcheck]; exact h⟩

theorem Accepted.not_isBlankText (h : Accepted tag) : ¬ isBlankText tag = true := by
  cases tag with
  | torn t => exact Bool.false_ne_true
  | whole s =>
    intro hblank
    cases hchars : s.toList with
    | nil => exact h.ne_empty (congrArg AnyText.whole (String.toList_eq_nil_iff.1 hchars))
    | cons c cs =>
      have hc : c ∈ s.toList := hchars ▸ List.mem_cons_self
      exact Bool.noConfusion ((List.all_eq_true.1 hblank c hc).symm.trans (h.not_blank c hc))

theorem accepted_of_isTag {tag : String} (h : isTag tag.toList = true) : Accepted tag := by
  obtain ⟨hne, hchars⟩ := isTag_iff.1 h
  refine ⟨?_, fun c hc => isBlank_of_isTagChar (hchars c hc), fun hcolon => ?_⟩
  · intro hempty
    cases hempty
    exact hne rfl
  · exact ne_of_isTagChar (hchars ':' hcolon) (by decide) rfl

theorem accepted_of_checkTag (h : checkTag v = .ok tag) : Accepted tag := by
  unfold checkTag at h
  obtain ⟨s, -, h⟩ := bind_eq_ok.1 h
  split_ifs at h with hblank hbad
  · cases h
  · cases h
  · cases h
    simp only [List.any_eq_true, Bool.or_eq_true, beq_iff_eq, not_exists, not_and, not_or,
      Bool.not_eq_true] at hbad
    refine ⟨?_, fun c hc => (hbad c hc).1, fun hcolon => (hbad ':' hcolon).2 rfl⟩
    rintro rfl
    exact hblank rfl

theorem Accepted.shown (h : Accepted tag) : Accepted tag.shown := by
  have hescape : ∀ c ∈ "\\u0123456789abcdef".toList, isBlank c = false ∧ c ≠ ':' := by decide
  have hplain : ∀ c ∈ tag.shown.toList, isBlank c = false ∧ c ≠ ':' := fun c hc =>
    (mem_of_mem_shown hc).elim
      (fun hc => ⟨h.not_blank c hc, fun heq => h.not_colon (heq ▸ hc)⟩) (hescape c)
  refine ⟨fun hempty => ?_, fun c hc => (hplain c hc).1, fun hcolon => (hplain ':' hcolon).2 rfl⟩
  cases tag with
  | whole s => exact h.ne_empty hempty
  | torn t =>
    have hmem := t.backslash_mem_shown
    rw [show t.shown = "" from AnyText.whole.inj hempty] at hmem
    cases hmem

theorem accepted_default : Accepted "elfeed" ∧ Accepted "ignore" :=
  ⟨⟨by decide, by decide, by decide⟩, ⟨by decide, by decide, by decide⟩⟩

theorem accepted_of_checkOutline {o : OutlineSection} (h : checkOutline v = .ok o) :
    Accepted o.treeId ∧ Accepted o.ignoreTag := by
  unfold checkOutline at h
  split at h
  · obtain ⟨⟨files, treeId, ignoreTag⟩, hfields, rfl⟩ := map_eq_ok.1 h
    obtain ⟨-, htags⟩ := Checked.both_eq_ok_iff.1 hfields
    obtain ⟨htree, hignore⟩ := Checked.both_eq_ok_iff.1 htags
    constructor
    · rcases field_eq_ok htree with rfl | ⟨_, hcheck⟩
      · exact accepted_default.1
      · exact accepted_of_checkTag hcheck
    · rcases field_eq_ok hignore with rfl | ⟨_, hcheck⟩
      · exact accepted_default.2
      · exact accepted_of_checkTag hcheck
  · cases h

theorem check_eq_ok_iff {c : Config} : check m = .ok c ↔
    hasTornKey m = false ∧ checkSections m = .ok c ∧ checkKeys m = .ok () := by
  unfold check
  split
  · next hsections => simp [hsections]
  · cases htorn : hasTornKey m
    · simp only [Bool.false_eq_true, if_false, true_and, map_eq_ok, Prod.exists, Checked.both_eq_ok_iff]
      constructor
      · rintro ⟨_, _, h, rfl⟩
        exact h
      · exact fun h => ⟨c, (), h, rfl⟩
    · simp [refuse]

theorem accepted_of_check {c : Config} (h : check m = .ok c) :
    Accepted c.outline.treeId ∧ Accepted c.outline.ignoreTag := by
  obtain ⟨-, hsections, -⟩ := check_eq_ok_iff.1 h
  obtain ⟨⟨o, l⟩, hfields, rfl⟩ := map_eq_ok.1 hsections
  obtain ⟨houtline, -⟩ := Checked.both_eq_ok_iff.1 hfields
  rcases field_eq_ok houtline with rfl | ⟨_, hcheck⟩
  · exact accepted_default
  · exact accepted_of_checkOutline hcheck

end FeedOutline.Config
