import FeedOutline.Markup.Reader
import FeedOutline.Proofs.Markup.Escape

/-!
Reading a document piece by piece. A piece takes the reader from one standing to another, whatever comes
behind it, so what is known of pieces adds up to what is known of a document.
-/
namespace FeedOutline.Markup

def Reader.resume (r : Reader) (l : Lexer) (offset : Nat) (s : List Char) : Except Fault Reader :=
  (l.run offset s).foldlM (Reader.step 0) r

/-- What is known of a reader between two characters. -/
abbrev Standing := Lexer → Reader → Prop

/-- Reading the piece takes a reader from one standing to another. -/
def Takes (P : Standing) (s : List Char) (Q : Standing) : Prop :=
  ∀ l r, P l r → ∀ offset rest, ∃ l' r', Q l' r' ∧
    r.resume l offset (s ++ rest) = r'.resume l' (offset + s.length) rest

namespace Takes

variable {P Q R : Standing} {s s' : List Char} {c : Char}

theorem nil : Takes P [] P :=
  fun l r h _ _ => ⟨l, r, h, rfl⟩

theorem append (h : Takes P s Q) (h' : Takes Q s' R) : Takes P (s ++ s') R := by
  intro l r hP offset rest
  obtain ⟨l', r', hQ, heq⟩ := h l r hP offset (s' ++ rest)
  obtain ⟨l'', r'', hR, heq'⟩ := h' l' r' hQ (offset + s.length) rest
  refine ⟨l'', r'', hR, ?_⟩
  rw [List.append_assoc, heq, heq', List.length_append, Nat.add_assoc]

theorem cons (h : Takes P [c] Q) (h' : Takes Q s R) : Takes P (c :: s) R :=
  h.append h'

theorem mono {P' Q' : Standing} (h : Takes P s Q) (hP : ∀ l r, P' l r → P l r)
    (hQ : ∀ l r, Q l r → Q' l r) : Takes P' s Q' := by
  intro l r hl offset rest
  obtain ⟨l', r', hq, heq⟩ := h l r (hP l r hl) offset rest
  exact ⟨l', r', hQ l' r' hq, heq⟩

theorem char (h : ∀ l r, P l r → ∀ offset, ∃ r',
    (l.read offset c).tokens.foldlM (Reader.step 0) r = .ok r' ∧ Q (l.read offset c).next r') :
    Takes P [c] Q := by
  intro l r hP offset rest
  obtain ⟨r', hr, hQ⟩ := h l r hP offset
  refine ⟨_, r', hQ, ?_⟩
  rw [Reader.resume, List.singleton_append, Lexer.run]
  simp only [List.foldlM_append, hr, bind, Except.bind]
  rfl

end Takes

def Tree.reader (t : Tree) : Reader :=
  { prolog := .beforeDoctype, isInside := true, tree := t }

def Within (t : Tree) (P : ContentScan → Prop) : Standing := fun l r =>
  r = t.reader ∧ l.depth = t.frames.length ∧ ∃ s, l.scan = .content s ∧ P s

def Past (t : Tree) : Standing := fun l r =>
  r = t.reader ∧ l.depth = t.frames.length ∧
    match t.frames with
    | [] => l.scan = .prolog .base
    | _ :: _ => ∃ brackets, l.scan = .content (.text brackets false)

theorem Tree.step_reader {t : Tree} (h : t.root = none) (p : Placed) :
    Reader.step 0 t.reader p =
      (t.step (Tree.addEntity {} 1 []) {} 0 p).map Tree.reader := by
  have hroot : t.reader.tree.root.isSome = false := by simp [Tree.reader, h]
  rw [Reader.step, hroot]
  simp only [Bool.false_eq_true, if_false, Tree.reader, if_true]
  cases t.step (Tree.addEntity {} 1 []) {} 0 p <;> rfl

theorem past_iff_within {f : Frame} {fs : List Frame} :
    Past ⟨f :: fs, none⟩ =
      Within ⟨f :: fs, none⟩ fun s => ∃ brackets, s = .text brackets false := by
  funext l r
  simp only [Past, Within, eq_iff_iff]
  refine and_congr_right fun _ => and_congr_right fun _ => ?_
  constructor
  · rintro ⟨brackets, hscan⟩
    exact ⟨_, hscan, brackets, rfl⟩
  · rintro ⟨_, hscan, brackets, rfl⟩
    exact ⟨brackets, hscan⟩

section

variable {t : Tree} {P Q : ContentScan → Prop} {c : Char}

theorem Within.takes (h : ∀ l s, P s → ∀ offset, ∃ s' start,
    Lexer.readContent l offset s c = ⟨{ l with scan := .content s', start }, []⟩ ∧ Q s') :
    Takes (Within t P) [c] (Within t Q) := by
  refine .char fun l r hl offset => ?_
  obtain ⟨rfl, hdepth, s, hscan, hs⟩ := hl
  obtain ⟨s', start, hread, hs'⟩ := h l s hs offset
  rw [Lexer.read, hscan]
  simp only [hread]
  exact ⟨_, rfl, rfl, hdepth, s', rfl, hs'⟩

theorem Within.takes_token {t' : Tree} (hroot : t.root = none)
    (hdepth' : t'.frames.length = t.frames.length)
    (h : ∀ l s, P s → ∀ offset, ∃ s' start p,
      Lexer.readContent l offset s c = ⟨{ l with scan := .content s', start }, [p]⟩ ∧ Q s' ∧
        t.step (Tree.addEntity {} 1 []) {} 0 p = .ok t') :
    Takes (Within t P) [c] (Within t' Q) := by
  refine .char fun l r hl offset => ?_
  obtain ⟨rfl, hdepth, s, hscan, hs⟩ := hl
  obtain ⟨s', start, p, hread, hs', hstep⟩ := h l s hs offset
  rw [Lexer.read, hscan]
  simp only [hread]
  refine ⟨t'.reader, ?_, rfl, hdepth.trans hdepth'.symm, s', rfl, hs'⟩
  rw [List.foldlM_cons, Tree.step_reader hroot, hstep]
  rfl

end

end FeedOutline.Markup
