import FeedOutline.Markup.Value
import FeedOutline.Markup.Writer

/-!
Escaped characters. A character that has a meaning of its own in markup is written as a reference, and
reading the reference gives the character back.
-/
namespace FeedOutline.Markup

/-- From this state on the text is the rest of a reference, up to its semicolon. -/
def RefScan.Reads : RefScan → List Char → Prop
  | r, [] => r.step ';' = .done ()
  | r, c :: s => ∃ r', r.step c = .more r' ∧ r'.Reads s

structure Refers (name : List Char) (c : Char) : Prop where
  reads : RefScan.start.Reads name
  ofText : Reference.ofText name = .char (some c)

inductive Written (c : Char) : List Char → Prop
  | plain : c ≠ '&' → c ≠ '<' → Written c [c]
  | reference {name} : Refers name c → Written c ('&' :: (name ++ [';']))

theorem refers_amp : Refers "amp".toList '&' :=
  ⟨⟨_, rfl, _, rfl, _, rfl, rfl⟩, by decide⟩

theorem refers_lt : Refers "lt".toList '<' :=
  ⟨⟨_, rfl, _, rfl, rfl⟩, by decide⟩

theorem refers_gt : Refers "gt".toList '>' :=
  ⟨⟨_, rfl, _, rfl, rfl⟩, by decide⟩

theorem refers_quot : Refers "quot".toList '"' :=
  ⟨⟨_, rfl, _, rfl, _, rfl, _, rfl, rfl⟩, by decide⟩

theorem refers_return : Refers "#13".toList '\r' :=
  ⟨⟨_, rfl, _, rfl, _, rfl, rfl⟩, by decide⟩

theorem refers_newline : Refers "#10".toList '\n' :=
  ⟨⟨_, rfl, _, rfl, _, rfl, rfl⟩, by decide⟩

theorem refers_tab : Refers "#09".toList '\t' :=
  ⟨⟨_, rfl, _, rfl, _, rfl, rfl⟩, by decide⟩

theorem written_escapeText (c : Char) :
    Written c (escapeText c) ∧ (escapeText c = [c] → c ≠ '>') := by
  unfold escapeText
  by_cases hamp : c = '&'
  · subst hamp
    exact ⟨.reference refers_amp, by decide⟩
  by_cases hlt : c = '<'
  · subst hlt
    exact ⟨.reference refers_lt, by decide⟩
  by_cases hgt : c = '>'
  · subst hgt
    exact ⟨.reference refers_gt, by decide⟩
  simp only [beq_iff_eq, hamp, hlt, hgt, if_false]
  exact ⟨.plain hamp hlt, fun _ => hgt⟩

theorem written_escapeValue (c : Char) :
    Written c (escapeValue c) ∧
      (escapeValue c = [c] → c ≠ '"' ∧ (isSpace c = true → c = ' ')) := by
  unfold escapeValue
  by_cases hquot : c = '"'
  · subst hquot
    exact ⟨.reference refers_quot, by decide⟩
  by_cases hreturn : c = '\r'
  · subst hreturn
    exact ⟨.reference refers_return, by decide⟩
  by_cases hnewline : c = '\n'
  · subst hnewline
    exact ⟨.reference refers_newline, by decide⟩
  by_cases htab : c = '\t'
  · subst htab
    exact ⟨.reference refers_tab, by decide⟩
  simp only [beq_iff_eq, hquot, hreturn, hnewline, htab, if_false]
  exact ⟨(written_escapeText c).1, fun _ => ⟨hquot, by simp [isSpace, hreturn, hnewline, htab]⟩⟩

variable {entity : List Char → Nat → Except (Reason × Option Nat) (List Char)}

theorem valueParts_reference {r : RefScan} {name read rest : List Char} (h : r.Reads name)
    (start offset : Nat) :
    valueParts (some (r, read)) start offset (name ++ ';' :: rest) =
      (.reference (Reference.ofText (read.reverse ++ name)), start) ::
        valueParts none start (offset + name.length + 1) rest := by
  induction name generalizing r read offset with
  | nil =>
    rw [RefScan.Reads] at h
    simp [valueParts, h]
  | cons c name ih =>
    obtain ⟨r', hr, h⟩ := h
    rw [List.cons_append, valueParts]
    simp only [hr, ih h]
    simp [Nat.add_assoc, Nat.add_comm 1]

theorem partsText_cons {p : ValuePart × Nat} {ps : List (ValuePart × Nat)} {t ts : List Char}
    (hp : partText entity p = .ok t) (hps : partsText entity ps = .ok ts) :
    partsText entity (p :: ps) = .ok (t ++ ts) := by
  rw [partsText, hp, hps]
  rfl

theorem partsText_escapeValue (s : List Char) (start offset : Nat) :
    partsText entity (valueParts none start offset (s.flatMap escapeValue)) = .ok s := by
  induction s generalizing start offset with
  | nil => rfl
  | cons c s ih =>
    obtain ⟨hwritten, hplain⟩ := written_escapeValue c
    rw [List.flatMap_cons]
    generalize escapeValue c = w at hwritten hplain
    cases hwritten with
    | plain hamp hlt =>
      have hspace := (hplain rfl).2
      have hreturn : c ≠ '\r' := fun h => by subst h; simp [isSpace] at hspace
      have hshown : (if isSpace c = true then ' ' else c) = c := by
        split
        · next h => exact (hspace h).symm
        · rfl
      have hparts : valueParts none start offset (c :: s.flatMap escapeValue) =
          (.char c, offset) :: valueParts none start (offset + 1) (s.flatMap escapeValue) := by
        simp [valueParts, hamp, hlt, hreturn, hshown]
      rw [List.singleton_append, hparts]
      have hchar : partText entity (.char c, offset) = .ok [c] := rfl
      exact partsText_cons hchar (ih _ _)
    | reference href =>
      rw [List.cons_append, List.append_assoc, List.singleton_append, valueParts]
      simp only [beq_self_eq_true, if_true, valueParts_reference href.reads, List.reverse_nil,
        List.nil_append, href.ofText]
      have hchar : partText entity (.reference (.char (some c)), offset) = .ok [c] := rfl
      exact partsText_cons hchar (ih _ _)

theorem attributeValue_escapeValue (d : Declarations) (start offset : Nat) (s : List Char) :
    attributeValue d false start offset (s.flatMap escapeValue) = .ok s := by
  rw [attributeValue, partsText_escapeValue]
  rfl

end FeedOutline.Markup
