import FeedOutline.Proofs.Markup.Element

/-!
Reading the content of elements as it is written: texts with their references, elements with all that
they hold.
-/
namespace FeedOutline.Markup

/-! Texts. -/

theorem addChar_text (c : Char) (s : String) (ns : List Node) :
    addChar c (.text s :: ns) = .text (s.push c) :: ns := rfl

theorem addChar_of_not_text {c : Char} {ns : List Node} (h : ∀ n ∈ ns.head?, n.isText = false) :
    addChar c ns = .text (String.singleton c) :: ns := by
  unfold addChar
  split
  · next s ns => exact absurd (h (.text s) rfl) (by simp [Node.isText])
  · rfl

theorem foldl_addText_text (cs : List Char) (s : String) (f : Frame) (ns : List Node) :
    cs.foldl Frame.addText { f with children := .text s :: ns } =
      { f with children := .text (String.ofList (s.toList ++ cs)) :: ns } := by
  induction cs generalizing s with
  | nil => simp
  | cons c cs ih =>
    rw [List.foldl_cons, Frame.addText, addChar_text, ih]
    simp

theorem foldl_addText {f : Frame} (h : ∀ n ∈ f.children.head?, n.isText = false) {s : String}
    (hs : s ≠ "") :
    s.toList.foldl Frame.addText f = { f with children := .text s :: f.children } := by
  obtain ⟨c, cs, hcs⟩ := List.exists_cons_of_ne_nil (mt String.toList_eq_nil_iff.1 hs)
  have htext : String.ofList ((String.singleton c).toList ++ cs) = s := by
    rw [← String.toList_inj, hcs]
    simp
  rw [hcs, List.foldl_cons, Frame.addText, addChar_of_not_text h, foldl_addText_text, htext]

section

variable {f : Frame} {fs : List Frame}

theorem step_char (c : Char) (offset : Nat) :
    Tree.step (Tree.addEntity {} 1 []) {} 0 ⟨f :: fs, none⟩ ⟨.char c, offset⟩ =
      .ok ⟨f.addText c :: fs, none⟩ := rfl

theorem takes_plain_char {c : Char} (hlt : c ≠ '<') (hamp : c ≠ '&') (hgt : c ≠ '>')
    (hreturn : c ≠ '\r') (hc : isLegal c = true) :
    Takes (Past ⟨f :: fs, none⟩) [c] (Past ⟨f.addText c :: fs, none⟩) := by
  rw [past_iff_within, past_iff_within]
  refine Within.takes_token rfl rfl fun l s hs offset => ?_
  obtain ⟨brackets, rfl⟩ := hs
  by_cases hbracket : c = ']'
  · subst hbracket
    exact ⟨.text (min 2 (brackets + 1)) false, l.start, ⟨.char ']', offset⟩, rfl, ⟨_, rfl⟩, step_char ..⟩
  · refine ⟨.text 0 false, l.start, ⟨.char c, offset⟩, ?_, ⟨_, rfl⟩, step_char ..⟩
    simp [Lexer.readContent, Lexer.readText, hlt, hamp, hgt, hreturn, hbracket, hc, Lexer.go,
      Lexer.plain, Lexer.chars]

theorem takes_text_reference {rest read : List Char} {r : RefScan} {c : Char} (h : r.Reads rest)
    (hc : Reference.ofText (read.reverse ++ rest) = .char (some c)) :
    Takes (Within ⟨f :: fs, none⟩ (· = .reference r read)) (rest ++ [';'])
      (Past ⟨f.addText c :: fs, none⟩) := by
  rw [past_iff_within]
  induction rest generalizing r read with
  | nil =>
    refine Within.takes_token rfl rfl fun l s hs offset => ?_
    subst hs
    rw [RefScan.Reads] at h
    rw [List.append_nil] at hc
    refine ⟨.text 0 false, l.start, ⟨.char c, l.start⟩, ?_, ⟨_, rfl⟩, step_char ..⟩
    simp only [Lexer.readContent, h, Lexer.referenceToken, hc]
    rfl
  | cons d rest ih =>
    obtain ⟨r', hr, h⟩ := h
    have hfirst : Takes (Within ⟨f :: fs, none⟩ (· = .reference r read)) [d]
        (Within ⟨f :: fs, none⟩ (· = .reference r' (d :: read))) := by
      refine Within.takes fun l s hs offset => ?_
      subst hs
      refine ⟨.reference r' (d :: read), l.start, ?_, rfl⟩
      simp only [Lexer.readContent, hr]
      rfl
    exact .cons hfirst (ih h (by simpa using hc))

theorem takes_escapeText {c : Char} (hreturn : c ≠ '\r') (hc : isLegal c = true) :
    Takes (Past ⟨f :: fs, none⟩) (escapeText c) (Past ⟨f.addText c :: fs, none⟩) := by
  obtain ⟨hwritten, hgt⟩ := written_escapeText c
  generalize escapeText c = w at hwritten hgt
  cases hwritten with
  | plain hamp hlt => exact takes_plain_char hlt hamp (hgt rfl) hreturn hc
  | reference href =>
    have hfirst : Takes (Past ⟨f :: fs, none⟩) ['&']
        (Within ⟨f :: fs, none⟩ (· = .reference .start [])) := by
      rw [past_iff_within]
      refine Within.takes fun l s hs offset => ?_
      obtain ⟨brackets, rfl⟩ := hs
      exact ⟨.reference .start [], offset, rfl, rfl⟩
    exact .cons hfirst (takes_text_reference href.reads href.ofText)

theorem takes_chars {cs : List Char} (h : ∀ c ∈ cs, isLegal c = true ∧ c ≠ '\r') :
    Takes (Past ⟨f :: fs, none⟩) (cs.flatMap escapeText)
      (Past ⟨cs.foldl Frame.addText f :: fs, none⟩) := by
  induction cs generalizing f with
  | nil => exact .nil
  | cons c cs ih =>
    rw [List.forall_mem_cons] at h
    exact (takes_escapeText h.1.2 h.1.1).append (ih h.2)

end

/-! Tags. -/

theorem past_afterTag {t : Tree} (l : Lexer) {depth : Nat} (h : depth = t.frames.length) :
    Past t (l.afterTag depth) t.reader := by
  obtain ⟨frames, root⟩ := t
  subst h
  cases frames with
  | nil => exact ⟨rfl, rfl, rfl⟩
  | cons f fs => exact ⟨rfl, rfl, 0, rfl⟩

theorem takes_less {f : Frame} {fs : List Frame} :
    Takes (Past ⟨f :: fs, none⟩) ['<'] (Within ⟨f :: fs, none⟩ (· = .less)) := by
  rw [past_iff_within]
  refine Within.takes fun l s hs offset => ?_
  obtain ⟨brackets, rfl⟩ := hs
  exact ⟨.less, offset, rfl, rfl⟩

theorem readContent_less (l : Lexer) (offset : Nat) {c : Char} (hc : isNameStart c = true) :
    l.readContent offset .less c = l.go (.tag (.name ⟨[c], false⟩)) := by
  have hbang : c ≠ '!' := by rintro rfl; exact absurd hc (by decide)
  have hquestion : c ≠ '?' := by rintro rfl; exact absurd hc (by decide)
  have hslash : c ≠ '/' := by rintro rfl; exact absurd hc (by decide)
  simp [Lexer.readContent, hbang, hquestion, hslash, hc]

theorem takes_name_start {t : Tree} {c : Char} (hc : isNameStart c = true) :
    Takes (Within t (· = .less)) [c] (InTag t (NamingTag [c])) := by
  refine Within.takes fun l s hs offset => ?_
  subst hs
  exact ⟨_, l.start, readContent_less l offset hc, _, rfl, rfl⟩

section

variable {t : Tree} {name : Name} {attributes : List (Name × String)}

theorem Tag.Spells.finish {tag : Tag} {name : List Char} {pairs : List (List Char × List Char)}
    (h : tag.Spells name pairs.reverse) (isEmpty : Bool) :
    (TagScan.finish tag isEmpty).Spells name pairs := by
  refine ⟨h.name, ?_⟩
  rw [TagScan.finish, List.map_reverse, h.pairs, List.reverse_reverse]

theorem takes_tag_end (hroot : t.root = none) (hspaces : t.spaces = .initial) (hname : name.Plain)
    (hattributes : Writable attributes) :
    Takes (InTag t (BetweenAttributes name.text.toList (attributes.map writtenPair).reverse)) ['>']
      (Past { t with frames := openFrame name attributes [] :: t.frames }) := by
  refine .char fun l r hl offset => ?_
  obtain ⟨rfl, hdepth, _, hscan, s, rfl, tag, htag, hstep⟩ := hl
  have hdone : s.step offset '>' = .done (TagScan.finish tag false) :=
    hstep '>' (.inr rfl) offset
  rw [Lexer.read, hscan]
  simp only [Lexer.readContent, hdone, List.foldlM_cons, Tree.step_reader hroot, Tree.step,
    Tree.addTag_written hspaces hname hattributes (htag.finish _)]
  refine ⟨_, rfl, ?_⟩
  exact past_afterTag l (by simp [TagScan.finish, hdepth])

theorem takes_empty_end (hroot : t.root = none) (hspaces : t.spaces = .initial) (hname : name.Plain)
    (hattributes : Writable attributes) :
    Takes (InTag t (BetweenAttributes name.text.toList (attributes.map writtenPair).reverse))
      [' ', '/', '>'] (Past (t.addNode (.element name attributes []))) := by
  let slashed (s : TagScan) : Prop := ∃ tag : Tag,
    tag.Spells name.text.toList (attributes.map writtenPair).reverse ∧ s = .slash tag
  let inGap (s : TagScan) : Prop := ∃ tag : Tag,
    tag.Spells name.text.toList (attributes.map writtenPair).reverse ∧ s = .gap tag
  have hgap : Takes (InTag t
      (BetweenAttributes name.text.toList (attributes.map writtenPair).reverse)) [' ']
      (InTag t inGap) := by
    refine InTag.takes fun s hs offset => ?_
    obtain ⟨tag, htag, hstep⟩ := hs
    exact ⟨.gap tag, hstep ' ' (.inl rfl) offset, tag, htag, rfl⟩
  have hslash : Takes (InTag t inGap) ['/'] (InTag t slashed) := by
    refine InTag.takes fun s hs offset => ?_
    obtain ⟨tag, htag, rfl⟩ := hs
    exact ⟨.slash tag, rfl, tag, htag, rfl⟩
  refine .cons hgap (.cons hslash (.char fun l r hl offset => ?_))
  obtain ⟨rfl, hdepth, _, hscan, _, rfl, tag, htag, rfl⟩ := hl
  have hdone : (TagScan.slash tag).step offset '>' = .done (TagScan.finish tag true) := rfl
  rw [Lexer.read, hscan]
  simp only [Lexer.readContent, hdone, List.foldlM_cons, Tree.step_reader hroot, Tree.step,
    Tree.addTag_written hspaces hname hattributes (htag.finish _)]
  refine ⟨_, rfl, ?_⟩
  refine past_afterTag l ?_
  obtain ⟨frames, root⟩ := t
  cases frames <;> simpa [TagScan.finish, Tree.addNode] using hdepth

theorem takes_end_chars {t : Tree} (read : List Char) {cs : List Char}
    (hcs : ∀ c ∈ cs, isNameChar c = true) :
    Takes (Within t (· = .endTag (.name read))) cs
      (Within t (· = .endTag (.name (cs.reverse ++ read)))) := by
  induction cs generalizing read with
  | nil => exact .nil
  | cons c cs ih =>
    rw [List.forall_mem_cons] at hcs
    rw [List.reverse_cons, List.append_assoc, List.singleton_append]
    refine .cons (Within.takes fun l s hs offset => ?_) (ih (c :: read) hcs.2)
    subst hs
    refine ⟨.endTag (.name (c :: read)), l.start, ?_, rfl⟩
    simp [Lexer.readContent, EndScan.step, hcs.1, Lexer.go]

theorem takes_end_name {t : Tree} (hname : name.Plain) :
    Takes (Within t (· = .endTag .start)) name.text.toList
      (Within t (· = .endTag (.name name.text.toList.reverse))) := by
  obtain ⟨c, cs, htext, hc, hcs⟩ := hname.start
  have hfirst : Takes (Within t (· = .endTag .start)) [c] (Within t (· = .endTag (.name [c]))) := by
    refine Within.takes fun l s hs offset => ?_
    subst hs
    refine ⟨.endTag (.name [c]), l.start, ?_, rfl⟩
    simp [Lexer.readContent, EndScan.step, hc, Lexer.go]
  rw [htext, List.reverse_cons]
  exact .cons hfirst (takes_end_chars [c] hcs)

theorem takes_end_mark {f : Frame} {fs : List Frame} :
    Takes (Within ⟨f :: fs, none⟩ (· = .endTag (.name f.raw.reverse))) ['>']
      (Past (Tree.addNode ⟨fs, none⟩ f.finish)) := by
  refine .char fun l r hl offset => ?_
  obtain ⟨rfl, hdepth, s, hscan, rfl⟩ := hl
  have hdone : (EndScan.name f.raw.reverse).step '>' = .done f.raw.reverse.reverse := rfl
  rw [List.reverse_reverse] at hdone
  have hclose (o : Nat) : Tree.closeTag 0 ⟨f :: fs, none⟩ f.raw o =
      .ok (Tree.addNode ⟨fs, none⟩ f.finish) := by
    simp [Tree.closeTag]
  rw [Lexer.read, hscan]
  simp only [Lexer.readContent, hdone, List.foldlM_cons, Tree.step_reader, Tree.step, hclose]
  refine ⟨_, rfl, past_afterTag l ?_⟩
  cases fs <;> simp [hdepth, Tree.addNode]

theorem takes_close {f : Frame} {fs : List Frame} (hname : name.Plain)
    (hraw : f.raw = name.text.toList) :
    Takes (Past ⟨f :: fs, none⟩) ('<' :: '/' :: (name.text.toList ++ ['>']))
      (Past (Tree.addNode ⟨fs, none⟩ f.finish)) := by
  have hslash : Takes (Within ⟨f :: fs, none⟩ (· = .less)) ['/']
      (Within ⟨f :: fs, none⟩ (· = .endTag .start)) := by
    refine Within.takes fun l s hs offset => ?_
    subst hs
    exact ⟨.endTag .start, l.start, rfl, rfl⟩
  refine .cons takes_less (.cons hslash ((takes_end_name hname).append ?_))
  rw [← hraw]
  exact takes_end_mark

end

end FeedOutline.Markup
