import FeedOutline.Proofs.Markup.Takes

/-!
Reading start tags as they are written. A tag is read with the name and the attributes that it was
written with, and names without a prefix keep their meaning.
-/
namespace FeedOutline.Markup

structure Name.Plain (n : Name) : Prop where
  space : n.space = none
  start : ∃ c cs, n.text.toList = c :: cs ∧ isNameStart c = true ∧ ∀ d ∈ cs, isNameChar d = true

/-- Attributes that can be written: each name once, and only characters that a document may hold. -/
structure Writable (attributes : List (Name × String)) : Prop where
  plain : ∀ a ∈ attributes, a.1.Plain ∧ a.1.text ≠ "xmlns"
  nodup : (attributes.map (·.1)).Nodup
  legal : ∀ a ∈ attributes, ∀ c ∈ a.2.toList, isLegal c = true

def RawAttribute.pair (a : RawAttribute) : List Char × List Char :=
  (a.name, a.value)

def writtenPair (a : Name × String) : List Char × List Char :=
  (a.1.text.toList, a.2.toList.flatMap escapeValue)

structure Tag.Spells (tag : Tag) (name : List Char) (pairs : List (List Char × List Char)) : Prop where
  name : tag.name = name
  pairs : tag.attributes.map RawAttribute.pair = pairs

theorem ne_colon_of_isNameChar {c : Char} (h : isNameChar c = true) : c ≠ ':' := by
  rintro rfl
  exact absurd h (by decide)

theorem ne_colon_of_isNameStart {c : Char} (h : isNameStart c = true) : c ≠ ':' := by
  rintro rfl
  exact absurd h (by decide)

theorem Name.Plain.colon_not_mem {n : Name} (h : n.Plain) : ':' ∉ n.text.toList := by
  obtain ⟨c, cs, htext, hc, hcs⟩ := h.start
  rw [htext, List.mem_cons, not_or]
  exact ⟨(ne_colon_of_isNameStart hc).symm, fun hmem => ne_colon_of_isNameChar (hcs _ hmem) rfl⟩

/-! What is read of a tag, character by character. -/

def InTag (t : Tree) (P : TagScan → Prop) : Standing :=
  Within t fun s => ∃ tag, s = .tag tag ∧ P tag

def NamingTag (read : List Char) (s : TagScan) : Prop :=
  s = .name ⟨read, false⟩

/-- Behind the name or a value; the attributes are given newest first. -/
def BetweenAttributes (name : List Char) (pairs : List (List Char × List Char)) (s : TagScan) : Prop :=
  ∃ tag : Tag, tag.Spells name pairs ∧
    ∀ c, c = ' ' ∨ c = '>' → ∀ offset, s.step offset c = TagScan.between tag c

def NamingAttribute (name : List Char) (pairs : List (List Char × List Char)) (read : List Char)
    (s : TagScan) : Prop :=
  ∃ (tag : Tag) (start : Nat), tag.Spells name pairs ∧ s = .nameOf tag start ⟨read, false⟩

def InValue (name : List Char) (pairs : List (List Char × List Char)) (key read : List Char)
    (reference : Option RefScan) (s : TagScan) : Prop :=
  ∃ (tag : Tag) (a : RawAttribute), tag.Spells name pairs ∧ a.name = key ∧ a.value = read ∧
    s = .value tag a '"' reference

theorem InTag.takes {t : Tree} {P Q : TagScan → Prop} {c : Char}
    (h : ∀ s, P s → ∀ offset, ∃ s', s.step offset c = .more s' ∧ Q s') :
    Takes (InTag t P) [c] (InTag t Q) := by
  refine Within.takes fun l s hs offset => ?_
  obtain ⟨tag, rfl, hP⟩ := hs
  obtain ⟨tag', hstep, hQ⟩ := h tag hP offset
  refine ⟨.tag tag', l.start, ?_, tag', rfl, hQ⟩
  simp only [Lexer.readContent, hstep]
  rfl

theorem NameScan.step_of_isNameChar {read : List Char} {c : Char} (hread : ':' ∉ read)
    (hc : isNameChar c = true) : NameScan.step ⟨read, false⟩ c = some ⟨c :: read, false⟩ := by
  have hhead : (read.head? == some ':') = false := by
    simpa using fun h => hread (List.mem_of_mem_head? h)
  simp [NameScan.step, hhead, hc]

theorem NameScan.step_eq_none {read : List Char} {c : Char} (hread : ':' ∉ read)
    (hc : isNameChar c = false) (hcolon : c ≠ ':') : NameScan.step ⟨read, false⟩ c = none := by
  have hhead : (read.head? == some ':') = false := by
    simpa using fun h => hread (List.mem_of_mem_head? h)
  simp [NameScan.step, hhead, hc, hcolon]

theorem NameScan.isWhole_of_not_mem {read : List Char} (hread : ':' ∉ read) :
    NameScan.isWhole ⟨read, false⟩ = true := by
  simpa [NameScan.isWhole] using fun h => hread (List.mem_of_mem_head? h)

theorem InTag.takes_name {t : Tree} {K : List Char → TagScan → Prop}
    (hK : ∀ read s c offset, K read s → ':' ∉ read → isNameChar c = true →
      ∃ s', s.step offset c = .more s' ∧ K (c :: read) s')
    {cs read : List Char} (hread : ':' ∉ read) (hcs : ∀ c ∈ cs, isNameChar c = true) :
    Takes (InTag t (K read)) cs (InTag t (K (cs.reverse ++ read))) := by
  induction cs generalizing read with
  | nil => exact .nil
  | cons c cs ih =>
    rw [List.forall_mem_cons] at hcs
    have hread' : ':' ∉ c :: read := by
      rw [List.mem_cons, not_or]
      exact ⟨(ne_colon_of_isNameChar hcs.1).symm, hread⟩
    rw [List.reverse_cons, List.append_assoc, List.singleton_append]
    exact .cons (InTag.takes fun s hs offset => hK read s c offset hs hread hcs.1)
      (ih hread' hcs.2)

theorem NamingTag.step {read : List Char} {s : TagScan} {c : Char} {offset : Nat}
    (h : NamingTag read s) (hread : ':' ∉ read) (hc : isNameChar c = true) :
    ∃ s', s.step offset c = .more s' ∧ NamingTag (c :: read) s' := by
  subst h
  exact ⟨_, by rw [TagScan.step, NameScan.step_of_isNameChar hread hc], rfl⟩

theorem NamingAttribute.step {name read : List Char} {pairs : List (List Char × List Char)}
    {s : TagScan} {c : Char} {offset : Nat} (h : NamingAttribute name pairs read s)
    (hread : ':' ∉ read) (hc : isNameChar c = true) :
    ∃ s', s.step offset c = .more s' ∧ NamingAttribute name pairs (c :: read) s' := by
  obtain ⟨tag, start, htag, rfl⟩ := h
  exact ⟨_, by rw [TagScan.step, NameScan.step_of_isNameChar hread hc], tag, start, htag, rfl⟩

theorem NamingTag.between {read : List Char} {s : TagScan} (h : NamingTag read s)
    (hread : ':' ∉ read) : BetweenAttributes read.reverse [] s := by
  subst h
  refine ⟨{ name := read.reverse }, ⟨rfl, rfl⟩, fun c hc offset => ?_⟩
  have hend : NameScan.step ⟨read, false⟩ c = none := by
    rcases hc with rfl | rfl
    · exact NameScan.step_eq_none hread (by decide) (by decide)
    · exact NameScan.step_eq_none hread (by decide) (by decide)
  rw [TagScan.step, hend, NameScan.isWhole_of_not_mem hread]
  rfl

section

variable {t : Tree} {name key : List Char} {pairs : List (List Char × List Char)}

theorem takes_key {c : Char} {cs : List Char} (hc : isNameStart c = true)
    (hcs : ∀ d ∈ cs, isNameChar d = true) :
    Takes (InTag t (BetweenAttributes name pairs)) (' ' :: c :: cs)
      (InTag t (NamingAttribute name pairs (c :: cs).reverse)) := by
  let inGap (s : TagScan) : Prop := ∃ tag : Tag, tag.Spells name pairs ∧ s = .gap tag
  have hgap : Takes (InTag t (BetweenAttributes name pairs)) [' '] (InTag t inGap) := by
    refine InTag.takes fun s hs offset => ?_
    obtain ⟨tag, htag, hstep⟩ := hs
    exact ⟨.gap tag, hstep ' ' (.inl rfl) offset, tag, htag, rfl⟩
  have hfirst : Takes (InTag t inGap) [c] (InTag t (NamingAttribute name pairs [c])) := by
    refine InTag.takes fun s hs offset => ?_
    obtain ⟨tag, htag, rfl⟩ := hs
    exact ⟨_, by rw [TagScan.step, if_pos hc], tag, offset, htag, rfl⟩
  have hread : ':' ∉ [c] := by simpa using (ne_colon_of_isNameStart hc).symm
  rw [List.reverse_cons]
  exact .cons hgap (.cons hfirst
    (InTag.takes_name (fun _ _ _ _ h hread hc => h.step hread hc) hread hcs))

theorem takes_mark {read : List Char} (hread : ':' ∉ read) :
    Takes (InTag t (NamingAttribute name pairs read)) ['=', '"']
      (InTag t (InValue name pairs read.reverse [] none)) := by
  let marked (s : TagScan) : Prop := ∃ (tag : Tag) (a : RawAttribute), tag.Spells name pairs ∧
    a.name = read.reverse ∧ a.value = [] ∧ s = .mark tag a
  have hequals : Takes (InTag t (NamingAttribute name pairs read)) ['='] (InTag t marked) := by
    refine InTag.takes fun s hs offset => ?_
    obtain ⟨tag, start, htag, rfl⟩ := hs
    have hend : NameScan.step ⟨read, false⟩ '=' = none :=
      NameScan.step_eq_none hread (by decide) (by decide)
    refine ⟨.mark tag ⟨read.reverse, [], start, 0⟩, ?_, tag, _, htag, rfl, rfl, rfl⟩
    rw [TagScan.step, hend]
    simp [NameScan.isWhole_of_not_mem hread]
  refine .cons hequals (InTag.takes fun s hs offset => ?_)
  obtain ⟨tag, a, htag, hname, hvalue, rfl⟩ := hs
  exact ⟨_, rfl, tag, { a with valueStart := offset + 1 }, htag, hname, hvalue, rfl⟩

theorem InValue.takes_plain {read : List Char} {c : Char} (hquote : c ≠ '"') (hamp : c ≠ '&')
    (hlt : c ≠ '<') (hc : isLegal c = true) :
    Takes (InTag t (InValue name pairs key read none)) [c]
      (InTag t (InValue name pairs key (c :: read) none)) := by
  refine InTag.takes fun s hs offset => ?_
  obtain ⟨tag, a, htag, hname, rfl, rfl⟩ := hs
  refine ⟨_, ?_, tag, { a with value := c :: a.value }, htag, hname, rfl, rfl⟩
  simp [TagScan.step, hquote, hamp, hlt, hc]

theorem InValue.takes_reference {read rest : List Char} {r : RefScan} (h : r.Reads rest) :
    Takes (InTag t (InValue name pairs key read (some r))) (rest ++ [';'])
      (InTag t (InValue name pairs key (';' :: (rest.reverse ++ read)) none)) := by
  induction rest generalizing r read with
  | nil =>
    refine InTag.takes fun s hs offset => ?_
    obtain ⟨tag, a, htag, hname, rfl, rfl⟩ := hs
    rw [RefScan.Reads] at h
    refine ⟨_, ?_, tag, { a with value := ';' :: a.value }, htag, hname, rfl, rfl⟩
    rw [TagScan.step, h]
  | cons c rest ih =>
    obtain ⟨r', hr, h⟩ := h
    have hfirst : Takes (InTag t (InValue name pairs key read (some r))) [c]
        (InTag t (InValue name pairs key (c :: read) (some r'))) := by
      refine InTag.takes fun s hs offset => ?_
      obtain ⟨tag, a, htag, hname, rfl, rfl⟩ := hs
      refine ⟨_, ?_, tag, { a with value := c :: a.value }, htag, hname, rfl, rfl⟩
      rw [TagScan.step, hr]
    rw [List.reverse_cons, List.append_assoc, List.singleton_append]
    exact .cons hfirst (ih h)

theorem InValue.takes_escaped {read : List Char} {c : Char} (hc : isLegal c = true) :
    Takes (InTag t (InValue name pairs key read none)) (escapeValue c)
      (InTag t (InValue name pairs key ((escapeValue c).reverse ++ read) none)) := by
  obtain ⟨hwritten, hplain⟩ := written_escapeValue c
  generalize escapeValue c = w at hwritten hplain
  cases hwritten with
  | plain hamp hlt => exact takes_plain (hplain rfl).1 hamp hlt hc
  | @reference reference href =>
    have hfirst : Takes (InTag t (InValue name pairs key read none)) ['&']
        (InTag t (InValue name pairs key ('&' :: read) (some .start))) := by
      refine InTag.takes fun s hs offset => ?_
      obtain ⟨tag, a, htag, hname, rfl, rfl⟩ := hs
      exact ⟨_, rfl, tag, { a with value := '&' :: a.value }, htag, hname, rfl, rfl⟩
    have hreverse : ('&' :: (reference ++ [';'])).reverse ++ read =
        ';' :: (reference.reverse ++ '&' :: read) := by simp
    rw [hreverse]
    exact .cons hfirst (takes_reference href.reads)

theorem InValue.takes_value {value read : List Char} (hvalue : ∀ c ∈ value, isLegal c = true) :
    Takes (InTag t (InValue name pairs key read none)) (value.flatMap escapeValue)
      (InTag t (InValue name pairs key ((value.flatMap escapeValue).reverse ++ read) none)) := by
  induction value generalizing read with
  | nil => exact .nil
  | cons c value ih =>
    rw [List.forall_mem_cons] at hvalue
    rw [List.flatMap_cons, List.reverse_append, List.append_assoc]
    exact .append (takes_escaped hvalue.1) (ih hvalue.2)

theorem InValue.takes_close {read : List Char} :
    Takes (InTag t (InValue name pairs key read none)) ['"']
      (InTag t (BetweenAttributes name ((key, read.reverse) :: pairs))) := by
  refine InTag.takes fun s hs offset => ?_
  obtain ⟨tag, a, htag, rfl, rfl, rfl⟩ := hs
  let tag' : Tag :=
    { tag with attributes := { a with value := a.value.reverse } :: tag.attributes }
  refine ⟨.behindValue tag', rfl, tag', ⟨htag.name, ?_⟩, fun _ _ _ => rfl⟩
  rw [List.map_cons, htag.pairs]
  rfl

theorem takes_value_start {a : Name × String} (hname : a.1.Plain) :
    Takes (InTag t (BetweenAttributes name pairs)) (' ' :: (a.1.text.toList ++ ['=', '"']))
      (InTag t (InValue name pairs a.1.text.toList [] none)) := by
  obtain ⟨c, cs, htext, hc, hcs⟩ := hname.start
  have hcolon : ':' ∉ (c :: cs).reverse := by
    rw [List.mem_reverse, ← htext]
    exact hname.colon_not_mem
  have hstart : Takes (InTag t (BetweenAttributes name pairs)) (' ' :: c :: cs ++ ['=', '"'])
      (InTag t (InValue name pairs (c :: cs).reverse.reverse [] none)) :=
    (takes_key hc hcs).append (takes_mark hcolon)
  rwa [List.reverse_reverse, List.cons_append, ← htext] at hstart

theorem writeAttribute_eq (a : Name × String) : writeAttribute a =
    ' ' :: (a.1.text.toList ++ ['=', '"']) ++ (a.2.toList.flatMap escapeValue ++ ['"']) := by
  simp [writeAttribute]

theorem takes_attribute {a : Name × String} (hname : a.1.Plain)
    (hvalue : ∀ c ∈ a.2.toList, isLegal c = true) :
    Takes (InTag t (BetweenAttributes name pairs)) (writeAttribute a)
      (InTag t (BetweenAttributes name (writtenPair a :: pairs))) := by
  have hpair : writtenPair a =
      (a.1.text.toList, ((a.2.toList.flatMap escapeValue).reverse ++ []).reverse) := by
    simp [writtenPair]
  rw [writeAttribute_eq, hpair]
  exact (takes_value_start hname).append ((InValue.takes_value hvalue).append InValue.takes_close)

theorem takes_attributes {attributes : List (Name × String)} (h : ∀ a ∈ attributes, a.1.Plain)
    (hlegal : ∀ a ∈ attributes, ∀ c ∈ a.2.toList, isLegal c = true) :
    Takes (InTag t (BetweenAttributes name pairs)) (attributes.flatMap writeAttribute)
      (InTag t (BetweenAttributes name ((attributes.map writtenPair).reverse ++ pairs))) := by
  induction attributes generalizing pairs with
  | nil => exact .nil
  | cons a attributes ih =>
    rw [List.forall_mem_cons] at h hlegal
    rw [List.flatMap_cons, List.map_cons, List.reverse_cons, List.append_assoc]
    exact (takes_attribute h.1 hlegal.1).append (ih h.2 hlegal.2)

end

end FeedOutline.Markup
