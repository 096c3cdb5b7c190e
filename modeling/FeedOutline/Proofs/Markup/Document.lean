import FeedOutline.Proofs.Markup.Content

/-!
Written documents are read back. What is read is the element that was written, with the line breaks that
set its children apart.
-/
namespace FeedOutline.Markup

/-- The children of an open element are read as they are written. -/
def ReadsChildren (children : List Node) : Prop :=
  ∀ f fs, f.spaces = .initial → f.children = [] →
    Takes (Past ⟨f :: fs, none⟩) (writeAll children)
      (Past ⟨{ f with children := children.reverse } :: fs, none⟩)

section

variable {name : Name} {attributes : List (Name × String)} {children : List Node} {t : Tree}

theorem takes_name {c : Char} {cs : List Char} (hname : name.Plain) (htext : name.text.toList = c :: cs)
    (hcs : ∀ d ∈ cs, isNameChar d = true) :
    Takes (InTag t (NamingTag [c])) cs (InTag t (BetweenAttributes name.text.toList [])) := by
  have hcolon : ':' ∉ c :: cs := htext ▸ hname.colon_not_mem
  have hread : ':' ∉ cs.reverse ++ [c] := by simpa [and_comm] using hcolon
  have htaken : Takes (InTag t (NamingTag [c])) cs (InTag t (NamingTag (cs.reverse ++ [c]))) :=
    InTag.takes_name (fun _ _ _ _ h hread hc => h.step hread hc)
      (by simpa using (List.ne_of_not_mem_cons hcolon)) hcs
  refine htaken.mono (fun _ _ h => h) fun l r h => ?_
  obtain ⟨hr, hdepth, s, hscan, tag, rfl, hnaming⟩ := h
  have hend := hnaming.between hread
  rw [List.reverse_append, List.reverse_reverse, List.reverse_singleton, List.singleton_append,
    ← htext] at hend
  exact ⟨hr, hdepth, _, hscan, tag, rfl, hend⟩

theorem takes_start {c : Char} {cs : List Char} (hattributes : Writable attributes)
    (hname : name.Plain) (htext : name.text.toList = c :: cs)
    (hcs : ∀ d ∈ cs, isNameChar d = true) :
    Takes (InTag t (NamingTag [c])) (cs ++ attributes.flatMap writeAttribute)
      (InTag t (BetweenAttributes name.text.toList (attributes.map writtenPair).reverse)) := by
  rw [← List.append_nil (attributes.map writtenPair).reverse]
  exact (takes_name hname htext hcs).append
    (takes_attributes (fun a ha => (hattributes.plain a ha).1) hattributes.legal)

theorem exists_takes_element (hname : name.Plain) (hattributes : Writable attributes)
    (hchildren : ReadsChildren children) (hroot : t.root = none) (hspaces : t.spaces = .initial) :
    ∃ c rest, (Node.element name attributes children).write = '<' :: c :: rest ∧
      isNameStart c = true ∧
      Takes (InTag t (NamingTag [c])) rest (Past (t.addNode (.element name attributes children))) := by
  obtain ⟨c, cs, htext, hc, hcs⟩ := hname.start
  have hstart := takes_start (t := t) hattributes hname htext hcs
  cases children with
  | nil =>
    refine ⟨c, cs ++ attributes.flatMap writeAttribute ++ [' ', '/', '>'], ?_, hc, ?_⟩
    · simp [Node.write, htext]
    · exact hstart.append (takes_empty_end hroot hspaces hname hattributes)
  | cons child children =>
    let f := openFrame name attributes []
    have hinside := hchildren f t.frames rfl rfl
    have hnode : Frame.finish { f with children := (child :: children).reverse } =
        .element name attributes (child :: children) := by simp [Frame.finish, f, openFrame]
    have hclose : Takes (Past ⟨{ f with children := (child :: children).reverse } :: t.frames, none⟩)
        ('<' :: '/' :: (name.text.toList ++ ['>'])) _ := takes_close hname rfl
    rw [hnode] at hclose
    refine ⟨c, cs ++ attributes.flatMap writeAttribute ++ ('>' :: (writeAll (child :: children) ++
      '<' :: '/' :: (name.text.toList ++ ['>']))), ?_, hc, ?_⟩
    · simp [Node.write, writeAll, htext]
    · have hopen := takes_tag_end hroot hspaces hname hattributes
      rw [hroot] at hopen
      have hadd : t.addNode = Tree.addNode ⟨t.frames, none⟩ := by rw [← hroot]
      rw [hadd]
      exact hstart.append (.cons hopen (hinside.append hclose))

end

theorem Settled.takes {ns : List Node} (h : Settled ns) (f : Frame) (fs : List Frame)
    (hspaces : f.spaces = .initial)
    (hapart : ∀ n ∈ ns.head?, n.isText = true → ∀ m ∈ f.children.head?, m.isText = false) :
    Takes (Past ⟨f :: fs, none⟩) (writeAll ns)
      (Past ⟨{ f with children := ns.reverse ++ f.children } :: fs, none⟩) := by
  induction h generalizing f fs with
  | nil =>
    rw [writeAll]
    exact .nil
  | @text s ns hne hlegal hnext _ ih =>
    have htext : Takes (Past ⟨f :: fs, none⟩) (s.toList.flatMap escapeText) _ := takes_chars hlegal
    rw [foldl_addText (hapart _ rfl rfl) hne] at htext
    have hrest := ih { f with children := .text s :: f.children } fs hspaces
      fun n hn htrue => absurd htrue (by simp [hnext n hn])
    rw [writeAll, Node.write, List.reverse_cons, List.append_assoc]
    exact htext.append hrest
  | @element name attributes children ns hname hattributes _ _ ihchildren ih =>
    have hreads : ReadsChildren children := by
      intro g gs hg hnone
      have hall := ihchildren g gs hg (by simp [hnone])
      rwa [hnone, List.append_nil] at hall
    obtain ⟨c, rest, hwrite, hc, htakes⟩ :=
      exists_takes_element (t := ⟨f :: fs, none⟩) hname hattributes hreads rfl hspaces
    have hrest := ih { f with children := .element name attributes children :: f.children } fs
      hspaces (by simp [Node.isText])
    rw [writeAll, hwrite, List.reverse_cons, List.append_assoc]
    exact (Takes.cons takes_less (.cons (takes_name_start hc) htakes)).append hrest

/-! A whole document. -/

def declarationText : List Char :=
  "<?xml version='1.0' encoding='utf-8'?>\n".toList

theorem document_eq (root : Node) :
    document root = String.ofList (declarationText ++ (root.indent 0).write ++ ['\n']) := rfl

theorem tokens_declaration (rest : List Char) :
    tokens (declarationText ++ rest) =
      Lexer.run { scan := .prolog .base } 0 (declarationText ++ rest) := rfl

theorem resume_declaration (rest : List Char) : ∃ start,
    Reader.resume {} { scan := .prolog .base } 0 (declarationText ++ rest) =
      Reader.resume { prolog := .beforeDoctype } ⟨.prolog .base, 0, start⟩ 39 rest :=
  ⟨38, rfl⟩

theorem resume_root {c : Char} (hc : isNameStart c = true) (start offset : Nat) (rest : List Char) :
    Reader.resume { prolog := .beforeDoctype } ⟨.prolog .base, 0, start⟩ offset ('<' :: c :: rest) =
      Reader.resume (Tree.reader {}) ⟨.content (.tag (.name ⟨[c], false⟩)), 0, offset⟩ (offset + 2)
        rest := by
  have hbang : c ≠ '!' := by rintro rfl; exact absurd hc (by decide)
  have hquestion : c ≠ '?' := by rintro rfl; exact absurd hc (by decide)
  have hread : Lexer.read ⟨.prolog .less, 0, offset⟩ (offset + 1) c =
      ⟨⟨.content (.tag (.name ⟨[c], false⟩)), 0, offset⟩, [⟨.root, offset⟩]⟩ := by
    simp [Lexer.read, Lexer.readProlog, hbang, hquestion, hc, readContent_less, Lexer.go]
  have hless : Lexer.read ⟨.prolog .base, 0, start⟩ offset '<' = ⟨⟨.prolog .less, 0, offset⟩, []⟩ := rfl
  rw [Reader.resume, Lexer.run, hless, List.nil_append, Lexer.run, hread]
  rfl

theorem resume_end {l : Lexer} {r : Reader} {root : Node} (h : Past ⟨[], some root⟩ l r)
    (offset : Nat) : r.resume l offset ['\n'] = .ok r := by
  obtain ⟨rfl, -, hscan⟩ := h
  dsimp only at hscan
  have hread : l.read offset '\n' = ⟨{ l with scan := .prolog .base, start := offset }, []⟩ := by
    rw [Lexer.read, hscan]
    rfl
  rw [Reader.resume, Lexer.run, hread]
  rfl

theorem read_element {name : Name} {attributes : List (Name × String)} {children : List Node}
    (hname : name.Plain) (hattributes : Writable attributes) (hchildren : Settled children) :
    read (String.ofList (declarationText ++ (Node.element name attributes children).write ++ ['\n'])) =
      .ok (.element name attributes children) := by
  have hreads : ReadsChildren children := by
    intro f fs hf hnone
    have hall := hchildren.takes f fs hf (by simp [hnone])
    rwa [hnone, List.append_nil] at hall
  obtain ⟨c, rest, hwrite, hc, htakes⟩ :=
    exists_takes_element (t := {}) hname hattributes hreads rfl rfl
  obtain ⟨start, hdeclaration⟩ := resume_declaration ('<' :: c :: rest ++ ['\n'])
  have hstanding : InTag {} (NamingTag [c]) ⟨.content (.tag (.name ⟨[c], false⟩)), 0, 39⟩
      (Tree.reader {}) := ⟨rfl, rfl, _, rfl, _, rfl, rfl⟩
  obtain ⟨l, r, hpast, hrest⟩ := htakes _ _ hstanding 41 ['\n']
  have htokens : (tokens (declarationText ++ ('<' :: c :: rest ++ ['\n']))).foldlM (Reader.step 0) {} =
      .ok r := by
    rw [tokens_declaration]
    exact (hdeclaration.trans (resume_root hc start 39 _)).trans (hrest.trans (resume_end hpast _))
  have hroot : r.tree.root = some (.element name attributes children) := by rw [hpast.1]; rfl
  have hread : readTokens 0 (tokens (declarationText ++ ('<' :: c :: rest ++ ['\n']))) =
      .ok (.element name attributes children) := by
    rw [readTokens, htokens]
    simp only [bind, Except.bind, hroot]
  rw [read, hwrite, String.toList_ofList, List.append_assoc]
  have hmark : ((declarationText ++ ('<' :: c :: rest ++ ['\n'])).head? == some '\ufeff') = false := rfl
  simp only [hmark, Bool.false_eq_true, if_false, hread]

/-! Line breaks between elements. -/

theorem lineBreak_settled (depth : Nat) {ns : List Node} (hnext : ∀ n ∈ ns.head?, n.isText = false)
    (h : Settled ns) : Settled (lineBreak depth :: ns) := by
  refine .text (by simp) (fun c hc => ?_) hnext h
  rw [String.toList_ofList, List.mem_cons] at hc
  rcases hc with rfl | hc
  · decide
  · rw [(List.mem_replicate.1 hc).2]
    decide

theorem Node.indent_element (name : Name) (attributes : List (Name × String)) (children : List Node)
    (depth : Nat) : ∃ children',
      (Node.element name attributes children).indent depth = .element name attributes children' ∧
      (children' = children ∨
        children' = Markup.indentAll (depth + 1) children ++ [lineBreak depth] ∧
          ∀ n ∈ children, n.isText = false) := by
  rw [Node.indent]
  split
  · exact ⟨children, rfl, .inl rfl⟩
  · next htext => exact ⟨_, rfl, .inr ⟨rfl, by simp_all⟩⟩

theorem Node.isText_indent (n : Node) (depth : Nat) : (n.indent depth).isText = n.isText := by
  cases n with
  | text s => simp [Node.indent]
  | element name attributes children =>
    obtain ⟨children', hindent, -⟩ := indent_element name attributes children depth
    rw [hindent]
    rfl

theorem Settled.indentAll {ns : List Node} (h : Settled ns) (hns : ∀ n ∈ ns, n.isText = false)
    (depth : Nat) {tail : List Node} (htail : Settled tail) :
    Settled (Markup.indentAll depth ns ++ tail) := by
  induction h generalizing depth tail with
  | nil => rwa [Markup.indentAll, List.nil_append]
  | text => exact absurd (hns _ (List.mem_cons_self ..)) (by simp [Node.isText])
  | @element name attributes children ns hname hattributes hchildren _ ihchildren ih =>
    rw [List.forall_mem_cons] at hns
    rw [Markup.indentAll, List.cons_append, List.cons_append]
    refine lineBreak_settled depth (fun n hn => ?_) ?_
    · rw [List.head?_cons, Option.mem_some_iff] at hn
      rw [← hn, Node.isText_indent]
      exact hns.1
    · obtain ⟨children', hindent, rfl | ⟨rfl, helements⟩⟩ :=
        Node.indent_element name attributes children depth
      · rw [hindent]
        exact .element hname hattributes hchildren (ih hns.2 depth htail)
      · rw [hindent]
        exact .element hname hattributes
          (ihchildren helements (depth + 1) (lineBreak_settled depth (by simp) .nil))
          (ih hns.2 depth htail)

/-- A document is read as the element that it was written from, set on lines. -/
theorem read_document {name : Name} {attributes : List (Name × String)} {children : List Node}
    (hname : name.Plain) (hattributes : Writable attributes) (hchildren : Settled children) :
    read (document (.element name attributes children)) =
      .ok ((Node.element name attributes children).indent 0) := by
  obtain ⟨children', hindent, rfl | ⟨rfl, helements⟩⟩ :=
    Node.indent_element name attributes children 0
  · rw [document_eq, hindent]
    exact read_element hname hattributes hchildren
  · rw [document_eq, hindent]
    exact read_element hname hattributes
      (hchildren.indentAll helements (0 + 1) (lineBreak_settled 0 (by simp) .nil))

end FeedOutline.Markup
