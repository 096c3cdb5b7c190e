import FeedOutline.Proofs.Markup.Document

/-!
Documents that are refused. Writing puts every character of a value into the document, also one that no
document may hold, and there the reader stops, whatever comes behind it.
-/
namespace FeedOutline.Markup

/-- No document that goes on with the piece can be read. -/
def Refuses (P : Standing) (s : List Char) : Prop :=
  ∀ l r, P l r → ∀ offset rest, ∃ f, r.resume l offset (s ++ rest) = .error f

namespace Refuses

variable {P Q : Standing} {s s' : List Char}

theorem append (h : Refuses P s) (s' : List Char) : Refuses P (s ++ s') := by
  intro l r hP offset rest
  rw [List.append_assoc]
  exact h l r hP offset (s' ++ rest)

theorem behind (htakes : Takes P s Q) (h : Refuses Q s') : Refuses P (s ++ s') := by
  intro l r hP offset rest
  obtain ⟨l', r', hQ, heq⟩ := htakes l r hP offset (s' ++ rest)
  rw [List.append_assoc, heq]
  exact h l' r' hQ _ rest

end Refuses

section

variable {t : Tree} {name key : List Char} {pairs : List (List Char × List Char)}

theorem InTag.refuses {P : TagScan → Prop} {c : Char} (hroot : t.root = none)
    (h : ∀ s, P s → ∀ offset, s.step offset c = .invalid) : Refuses (InTag t P) [c] := by
  intro l r hl offset rest
  obtain ⟨rfl, -, _, hscan, s, rfl, hs⟩ := hl
  have hread : l.read offset c = l.invalid offset := by
    rw [Lexer.read, hscan]
    simp only [Lexer.readContent, h s hs offset]
  refine ⟨⟨.invalidToken, offset⟩, ?_⟩
  rw [Reader.resume, List.singleton_append, Lexer.run, hread, Lexer.invalid, Lexer.stop,
    List.singleton_append, List.foldlM_cons, Tree.step_reader hroot]
  rfl

theorem escapeValue_of_not_legal {c : Char} (h : isLegal c = false) : escapeValue c = [c] := by
  have hne (d : Char) (hd : isLegal d = true) : c ≠ d := by
    rintro rfl
    rw [h] at hd
    cases hd
  simp [escapeValue, escapeText, hne '"' (by decide), hne '\r' (by decide), hne '\n' (by decide),
    hne '\t' (by decide), hne '&' (by decide), hne '<' (by decide), hne '>' (by decide)]

theorem InValue.refuses_value (hroot : t.root = none) {value read : List Char}
    (h : ∃ c ∈ value, isLegal c = false) :
    Refuses (InTag t (InValue name pairs key read none)) (value.flatMap escapeValue) := by
  induction value generalizing read with
  | nil => simp at h
  | cons c value ih =>
    rw [List.flatMap_cons]
    cases hc : isLegal c with
    | true => exact .behind (takes_escaped hc) (ih (by simpa [hc] using h))
    | false =>
      rw [escapeValue_of_not_legal hc]
      refine Refuses.append (InTag.refuses hroot fun s hs offset => ?_) _
      obtain ⟨tag, a, -, -, -, rfl⟩ := hs
      have hquote : c ≠ '"' := by
        rintro rfl
        exact absurd hc (by decide)
      simp [TagScan.step, hquote, hc]

theorem refuses_attributes (hroot : t.root = none) {attributes : List (Name × String)}
    (hnames : ∀ a ∈ attributes, a.1.Plain)
    (h : ∃ a ∈ attributes, ∃ c ∈ a.2.toList, isLegal c = false) :
    Refuses (InTag t (BetweenAttributes name pairs)) (attributes.flatMap writeAttribute) := by
  induction attributes generalizing pairs with
  | nil => simp at h
  | cons a attributes ih =>
    rw [List.forall_mem_cons] at hnames
    rw [List.flatMap_cons]
    by_cases ha : ∃ c ∈ a.2.toList, isLegal c = false
    · rw [writeAttribute_eq]
      exact ((InValue.refuses_value hroot ha).append _ |>.behind (takes_value_start hnames.1)).append _
    · have hlegal : ∀ c ∈ a.2.toList, isLegal c = true := by simpa using ha
      exact .behind (takes_attribute hnames.1 hlegal) (ih hnames.2 (by simpa [ha] using h))

end

/-- Nodes that can be written, and read up to a character that no document may hold. -/
inductive Spoiled : List Node → Prop
  | here {name attributes children ns} : name.Plain → (∀ a ∈ attributes, a.1.Plain) →
      (∃ a ∈ attributes, ∃ c ∈ a.2.toList, isLegal c = false) →
      Spoiled (.element name attributes children :: ns)
  | inside {name attributes children ns} : name.Plain → Writable attributes → Spoiled children →
      Spoiled (.element name attributes children :: ns)
  | behind {n ns} : Settled [n] → (n.isText = true → ∀ m ∈ ns.head?, m.isText = false) → Spoiled ns →
      Spoiled (n :: ns)

theorem Spoiled.ne_nil {ns : List Node} (h : Spoiled ns) : ns ≠ [] := by
  cases h <;> exact List.cons_ne_nil _ _

def RefusesChildren (children : List Node) : Prop :=
  ∀ f fs, f.spaces = .initial → f.children = [] → Refuses (Past ⟨f :: fs, none⟩) (writeAll children)

section

variable {name : Name} {attributes : List (Name × String)} {children : List Node} {t : Tree}

theorem exists_write_element (name : Name) (attributes : List (Name × String)) (children : List Node) :
    ∃ rest, (Node.element name attributes children).write =
      '<' :: (name.text.toList ++ (attributes.flatMap writeAttribute ++ rest)) ∧
      (children ≠ [] → ∃ close, rest = '>' :: (writeAll children ++ close)) := by
  cases children with
  | nil => exact ⟨" />".toList, by simp [Node.write], fun h => absurd rfl h⟩
  | cons child children =>
    refine ⟨'>' :: (writeAll (child :: children) ++ '<' :: '/' :: name.text.toList ++ ['>']), ?_, fun _ => ?_⟩
    · simp [Node.write, writeAll]
    · exact ⟨'<' :: '/' :: name.text.toList ++ ['>'], by simp⟩

theorem exists_refuses_element (hname : name.Plain) {rest : List Char}
    (hwrite : (Node.element name attributes children).write =
      '<' :: (name.text.toList ++ (attributes.flatMap writeAttribute ++ rest)))
    (h : Refuses (InTag t (BetweenAttributes name.text.toList []))
      (attributes.flatMap writeAttribute ++ rest)) :
    ∃ c tail, (Node.element name attributes children).write = '<' :: c :: tail ∧
      isNameStart c = true ∧ Refuses (InTag t (NamingTag [c])) tail := by
  obtain ⟨c, cs, htext, hc, hcs⟩ := hname.start
  refine ⟨c, cs ++ (attributes.flatMap writeAttribute ++ rest), ?_, hc, ?_⟩
  · rw [hwrite, htext, List.cons_append]
  · exact h.behind (takes_name hname htext hcs)

theorem exists_refuses_attributes (hname : name.Plain) (hnames : ∀ a ∈ attributes, a.1.Plain)
    (h : ∃ a ∈ attributes, ∃ c ∈ a.2.toList, isLegal c = false) (hroot : t.root = none) :
    ∃ c tail, (Node.element name attributes children).write = '<' :: c :: tail ∧
      isNameStart c = true ∧ Refuses (InTag t (NamingTag [c])) tail := by
  obtain ⟨rest, hwrite, -⟩ := exists_write_element name attributes children
  exact exists_refuses_element hname hwrite ((refuses_attributes hroot hnames h).append rest)

theorem exists_refuses_children (hname : name.Plain) (hattributes : Writable attributes)
    (h : RefusesChildren children) (hne : children ≠ []) (hroot : t.root = none)
    (hspaces : t.spaces = .initial) :
    ∃ c tail, (Node.element name attributes children).write = '<' :: c :: tail ∧
      isNameStart c = true ∧ Refuses (InTag t (NamingTag [c])) tail := by
  obtain ⟨rest, hwrite, hrest⟩ := exists_write_element name attributes children
  obtain ⟨close, rfl⟩ := hrest hne
  refine exists_refuses_element hname hwrite ?_
  have hnames : ∀ a ∈ attributes, a.1.Plain := fun a ha => (hattributes.plain a ha).1
  have hopen := takes_tag_end hroot hspaces hname hattributes
  rw [hroot] at hopen
  have hinside := (h (openFrame name attributes []) t.frames rfl rfl).append close
  have hbehind := hinside.behind hopen
  rw [← List.append_nil (attributes.map writtenPair).reverse] at hbehind
  exact hbehind.behind (takes_attributes hnames hattributes.legal)

end

theorem Spoiled.refuses {ns : List Node} (h : Spoiled ns) (f : Frame) (fs : List Frame)
    (hspaces : f.spaces = .initial)
    (hapart : ∀ n ∈ ns.head?, n.isText = true → ∀ m ∈ f.children.head?, m.isText = false) :
    Refuses (Past ⟨f :: fs, none⟩) (writeAll ns) := by
  induction h generalizing f fs with
  | here hname hnames hillegal =>
    obtain ⟨c, tail, hwrite, hc, htail⟩ :=
      exists_refuses_attributes (t := ⟨f :: fs, none⟩) hname hnames hillegal rfl
    rw [writeAll, hwrite]
    exact ((htail.behind (takes_name_start hc)).behind takes_less).append _
  | inside hname hattributes hchildren ih =>
    have hrefuses : RefusesChildren _ := fun g gs hg hnone => ih g gs hg (by simp [hnone])
    obtain ⟨c, tail, hwrite, hc, htail⟩ := exists_refuses_children (t := ⟨f :: fs, none⟩) hname
      hattributes hrefuses hchildren.ne_nil rfl hspaces
    rw [writeAll, hwrite]
    exact ((htail.behind (takes_name_start hc)).behind takes_less).append _
  | @behind n ns hn hnext hns ih =>
    have htakes := hn.takes f fs hspaces hapart
    rw [writeAll, writeAll, List.append_nil] at htakes
    rw [writeAll]
    let g : Frame := { f with children := [n].reverse ++ f.children }
    refine .behind htakes (ih g fs hspaces fun m hm htext k hk => ?_)
    obtain rfl : n = k := Option.some.inj hk
    by_contra hnot
    rw [Bool.not_eq_false] at hnot
    rw [hnext hnot m hm] at htext
    cases htext

theorem Spoiled.refusesChildren {ns : List Node} (h : Spoiled ns) : RefusesChildren ns :=
  fun f fs hf hnone => h.refuses f fs hf (by simp [hnone])

/-! A whole document. -/

theorem read_element_refused {name : Name} {attributes : List (Name × String)} {children : List Node}
    (hname : name.Plain) (hattributes : Writable attributes) (h : Spoiled children) :
    ∃ e, read (String.ofList
      (declarationText ++ (Node.element name attributes children).write ++ ['\n'])) = .error e := by
  obtain ⟨c, tail, hwrite, hc, htail⟩ :=
    exists_refuses_children (t := {}) hname hattributes h.refusesChildren h.ne_nil rfl rfl
  obtain ⟨start, hdeclaration⟩ := resume_declaration ('<' :: c :: tail ++ ['\n'])
  have hstanding : InTag {} (NamingTag [c]) ⟨.content (.tag (.name ⟨[c], false⟩)), 0, 39⟩
      (Tree.reader {}) := ⟨rfl, rfl, _, rfl, _, rfl, rfl⟩
  obtain ⟨f, hf⟩ := htail _ _ hstanding 41 ['\n']
  have htokens : (tokens (declarationText ++ ('<' :: c :: tail ++ ['\n']))).foldlM (Reader.step 0) {} =
      .error f := by
    rw [tokens_declaration]
    exact (hdeclaration.trans (resume_root hc start 39 _)).trans hf
  have hread : readTokens 0 (tokens (declarationText ++ ('<' :: c :: tail ++ ['\n']))) = .error f := by
    rw [readTokens, htokens]
    rfl
  have hmark : ((declarationText ++ ('<' :: c :: tail ++ ['\n'])).head? == some '\ufeff') = false := rfl
  refine ⟨Error.ofFault (declarationText ++ ('<' :: c :: tail ++ ['\n'])) f, ?_⟩
  rw [read, hwrite, String.toList_ofList, List.append_assoc]
  simp only [hmark, Bool.false_eq_true, if_false, hread]

theorem Spoiled.indentAll {ns : List Node} (h : Spoiled ns) (hns : ∀ n ∈ ns, n.isText = false)
    (depth : Nat) (tail : List Node) : Spoiled (Markup.indentAll depth ns ++ tail) := by
  have hbreak : Settled [lineBreak depth] := lineBreak_settled depth (by simp) .nil
  induction h generalizing depth tail with
  | @here name attributes children ns hname hnames hillegal =>
    obtain ⟨children', hindent, -⟩ := Node.indent_element name attributes children depth
    rw [Markup.indentAll, hindent]
    exact .behind hbreak (by simp [Node.isText]) (.here hname hnames hillegal)
  | @inside name attributes children ns hname hattributes hchildren ih =>
    obtain ⟨children', hindent, hchildren'⟩ := Node.indent_element name attributes children depth
    have hspoiled : Spoiled children' := by
      rcases hchildren' with rfl | ⟨rfl, helements⟩
      · exact hchildren
      · exact ih helements _ _ (lineBreak_settled _ (by simp) .nil)
    rw [Markup.indentAll, hindent]
    exact .behind hbreak (by simp [Node.isText]) (.inside hname hattributes hspoiled)
  | @behind n ns hn hnext hrest ih =>
    rw [List.forall_mem_cons] at hns
    have hindent : Settled (Markup.indentAll depth [n] ++ []) :=
      hn.indentAll (by simpa using hns.1) depth .nil
    rw [Markup.indentAll, Markup.indentAll, List.append_nil] at hindent
    rw [Markup.indentAll]
    have htext : (n.indent depth).isText = false := by rw [Node.isText_indent, hns.1]
    cases hindent with
    | text _ _ _ hsettled =>
      exact .behind hbreak (by simp [htext]) (.behind hsettled (by simp [htext]) (ih hns.2 depth tail hbreak))

/-- A document is refused if a value below its root holds a character that no document may hold. -/
theorem read_document_refused {name : Name} {attributes : List (Name × String)} {children : List Node}
    (hname : name.Plain) (hattributes : Writable attributes) (h : Spoiled children) :
    ∃ e, read (document (.element name attributes children)) = .error e := by
  obtain ⟨children', hindent, rfl | ⟨rfl, helements⟩⟩ :=
    Node.indent_element name attributes children 0
  · rw [document_eq, hindent]
    exact read_element_refused hname hattributes h
  · rw [document_eq, hindent]
    exact read_element_refused hname hattributes (h.indentAll helements _ _)

end FeedOutline.Markup
