import FeedOutline.Text.Split

/-!
Where a run of characters of a class ends, and what searching a text for another one and taking a start off it
amount to. A run that is followed by nothing or by a character outside of the class is what `takeWhile` takes and
what `dropWhile` drops.
-/
namespace FeedOutline.Text

instance (priority := 2000) decidableForallChar (p : Char → Prop) [DecidablePred p] (s : List Char) :
    Decidable (∀ c ∈ s, p c) :=
  List.decidableBAll p s

instance (priority := 2000) decidableForallChar? (p : Char → Prop) [DecidablePred p] :
    ∀ c? : Option Char, Decidable (∀ c ∈ c?, p c)
  | none => isTrue nofun
  | some c => decidable_of_iff (p c) ⟨fun h _ hd => Option.some.inj hd ▸ h, fun h => h c rfl⟩

theorem takeWhile_append_stop {p : α → Bool} {s rest : List α} (hs : ∀ c ∈ s, p c = true)
    (hrest : ∀ c ∈ rest.head?, p c = false) : (s ++ rest).takeWhile p = s := by
  rw [List.takeWhile_append_of_pos hs]
  cases rest with
  | nil => simp
  | cons c rest => simp [hrest c rfl]

theorem dropWhile_append_stop {p : α → Bool} {s rest : List α} (hs : ∀ c ∈ s, p c = true)
    (hrest : ∀ c ∈ rest.head?, p c = false) : (s ++ rest).dropWhile p = rest := by
  rw [List.dropWhile_append_of_pos hs]
  cases rest with
  | nil => rfl
  | cons c rest => simp [hrest c rfl]

theorem head?_dropWhile {p : α → Bool} {s : List α} : ∀ c ∈ (s.dropWhile p).head?, p c = false := by
  intro c hc
  have := List.head?_dropWhile_not p s
  simpa [Option.mem_def.1 hc] using this

/-! Texts within others. -/

theorem contains_iff {part s : List Char} : contains part s = true ↔ part <:+: s := by
  induction s with
  | nil => simp [contains]
  | cons c s ih => rw [contains, Bool.or_eq_true, ih, List.isPrefixOf_iff_prefix, List.infix_cons_iff]

theorem containsString_iff {part s : String} :
    containsString part s = true ↔ part.toList <:+: s.toList :=
  contains_iff

theorem afterStart?_eq_some_iff {start s rest : List Char} :
    afterStart? start s = some rest ↔ s = start ++ rest := by
  induction start generalizing s with
  | nil => simp [afterStart?]
  | cons a start ih =>
    cases s with
    | nil => simp [afterStart?]
    | cons c s =>
      rw [afterStart?]
      split
      · next h => simp [ih, eq_of_beq h]
      · next h => simp [ne_of_beq_false (Bool.eq_false_iff.2 h) |>.symm]

theorem infix_append_stop {part a b : List Char} {stop : Char} (hstop : stop ∉ part)
    (h : part <:+: a ++ stop :: b) : part <:+: a ∨ part <:+: b := by
  have hstart {start : List Char} (hmem : ∀ c ∈ start, c ∈ part) (hbegins : start <+: stop :: b) :
      start = [] := by
    rcases List.prefix_cons_iff.1 hbegins with hnil | ⟨rest, rfl, -⟩
    · exact hnil
    · exact absurd (hmem stop (List.mem_cons_self ..)) hstop
  rcases List.infix_append_iff.1 h with ha | hb | ⟨front, back, rfl, hfront, hback⟩
  · exact .inl ha
  · rcases List.infix_cons_iff.1 hb with hbegins | hb
    · rw [hstart (fun _ hc => hc) hbegins]
      exact .inl List.nil_infix
    · exact .inr hb
  · rw [hstart (fun _ hc => List.mem_append_right _ hc) hback, List.append_nil]
    exact .inl hfront.isInfix

end FeedOutline.Text
