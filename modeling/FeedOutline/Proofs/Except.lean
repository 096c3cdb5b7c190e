import Mathlib.Data.List.Forall2

/-!
Steps that can fail. What comes out of several of them has come out of each, or else the first that fails
says why.
-/
namespace FeedOutline

variable {α β ε : Type} {x : Except ε α} {b : β}

theorem bind_eq_ok {f : α → Except ε β} : x >>= f = .ok b ↔ ∃ a, x = .ok a ∧ f a = .ok b := by
  cases x <;> simp [bind, Except.bind]

theorem bind_eq_error {f : α → Except ε β} {e : ε} :
    x >>= f = .error e ↔ x = .error e ∨ ∃ a, x = .ok a ∧ f a = .error e := by
  cases x <;> simp [bind, Except.bind]

theorem map_eq_ok {f : α → β} : x.map f = .ok b ↔ ∃ a, x = .ok a ∧ f a = b := by
  cases x <;> simp [Except.map]

theorem mapError_eq_ok {ε' : Type} {f : ε → ε'} {a : α} : x.mapError f = .ok a ↔ x = .ok a := by
  cases x <;> simp [Except.mapError]

theorem exists_ok_of_any {p : α → Bool} (h : x.toOption.any p) : ∃ a, x = .ok a ∧ p a := by
  cases x with
  | error e => cases h
  | ok a => exact ⟨a, rfl, h⟩

/-! Many steps. -/

/-- The first member of a list that has a property. -/
def IsFirst (P : α → Prop) (xs : List α) (x : α) : Prop :=
  ∃ before after, xs = before ++ x :: after ∧ P x ∧ ∀ y ∈ before, ¬ P y

section

variable {P : α → Prop} {xs : List α} {x y : α}

theorem IsFirst.mem (h : IsFirst P xs x) : x ∈ xs := by
  obtain ⟨before, after, rfl, -⟩ := h
  simp

theorem IsFirst.holds (h : IsFirst P xs x) : P x := by
  obtain ⟨_, _, _, hx, _⟩ := h
  exact hx

theorem not_isFirst_nil : ¬ IsFirst P [] x := by
  rintro ⟨before, after, h, -⟩
  simp at h

theorem isFirst_cons_iff : IsFirst P (y :: xs) x ↔ P y ∧ x = y ∨ ¬ P y ∧ IsFirst P xs x := by
  constructor
  · rintro ⟨before, after, h, hx, hbefore⟩
    cases before with
    | nil =>
      cases h
      exact .inl ⟨hx, rfl⟩
    | cons z before =>
      cases h
      rw [List.forall_mem_cons] at hbefore
      exact .inr ⟨hbefore.1, before, after, rfl, hx, hbefore.2⟩
  · rintro (⟨hy, rfl⟩ | ⟨hy, before, after, rfl, hx, hbefore⟩)
    · exact ⟨[], xs, rfl, hy, by simp⟩
    · exact ⟨y :: before, after, rfl, hx, List.forall_mem_cons.2 ⟨hy, hbefore⟩⟩

end

variable {xs : List α} {e : ε}

theorem forM_eq_ok_iff {f : α → Except ε Unit} : xs.forM f = .ok () ↔ ∀ x ∈ xs, f x = .ok () := by
  rw [List.forM_eq_forM]
  induction xs with
  | nil => simp [pure, Except.pure]
  | cons x xs ih =>
    rw [List.forM_cons, bind_eq_ok, List.forall_mem_cons]
    constructor
    · rintro ⟨_, hx, hxs⟩
      exact ⟨hx, ih.1 hxs⟩
    · rintro ⟨hx, hxs⟩
      exact ⟨(), hx, ih.2 hxs⟩

theorem forM_eq_error_iff {f : α → Except ε Unit} :
    xs.forM f = .error e ↔ ∃ x, IsFirst (fun x => f x ≠ .ok ()) xs x ∧ f x = .error e := by
  rw [List.forM_eq_forM]
  induction xs with
  | nil => simp [not_isFirst_nil, pure, Except.pure]
  | cons x xs ih =>
    rw [List.forM_cons, bind_eq_error]
    cases hx : f x with
    | error e' => simp [isFirst_cons_iff, hx]
    | ok u => simp [isFirst_cons_iff, hx, ih]

theorem forM_congr {f g : α → Except ε Unit} (h : ∀ x ∈ xs, f x = g x) : xs.forM f = xs.forM g := by
  rw [List.forM_eq_forM]
  induction xs with
  | nil => rfl
  | cons x xs ih =>
    rw [List.forall_mem_cons] at h
    rw [List.forM_cons, List.forM_cons, h.1, ih h.2]

theorem mapM_eq_ok_iff {f : α → Except ε β} {ys : List β} :
    xs.mapM f = .ok ys ↔ List.Forall₂ (fun x y => f x = .ok y) xs ys := by
  induction xs generalizing ys with
  | nil => simp [pure, Except.pure, eq_comm]
  | cons x xs ih =>
    rw [List.mapM_cons, bind_eq_ok, List.forall₂_cons_left_iff]
    constructor
    · rintro ⟨y, hy, h⟩
      obtain ⟨ys', hys, h⟩ := bind_eq_ok.1 h
      exact ⟨y, ys', hy, ih.1 hys, (Except.ok.inj h).symm⟩
    · rintro ⟨y, ys', hy, hys, rfl⟩
      exact ⟨y, hy, bind_eq_ok.2 ⟨ys', ih.2 hys, rfl⟩⟩

theorem mapM_eq_error_iff {f : α → Except ε β} :
    xs.mapM f = .error e ↔ ∃ x, IsFirst (fun x => ∀ y, f x ≠ .ok y) xs x ∧ f x = .error e := by
  induction xs with
  | nil => simp [not_isFirst_nil, pure, Except.pure]
  | cons x xs ih =>
    rw [List.mapM_cons, bind_eq_error]
    cases hx : f x with
    | error e' => simp [isFirst_cons_iff, hx]
    | ok y => simp [isFirst_cons_iff, hx, bind_eq_error, ih, pure, Except.pure]

end FeedOutline
