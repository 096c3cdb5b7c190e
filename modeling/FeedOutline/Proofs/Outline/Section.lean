import FeedOutline.Proofs.Outline.Document
import FeedOutline.Proofs.Outline.Drawer

/-!
The sections of a document. Each heading has the id that the lines up to the next heading give to it, so other
lines in one section change the id of its heading and nothing else.
-/
namespace FeedOutline.Outline

open Text

/-- The headings of some lines, each with the lines up to the next one. -/
def sections : List (List Char) → List (Heading × List (List Char))
  | [] => []
  | line :: ls =>
    match Heading.ofLine? line with
    | some h => (h, ls.takeWhile (¬ IsHeading ·)) :: sections ls
    | none => sections ls

mutual

def Node.setIdAt (id : Option String) : Nat → Node → Node
  | 0, ⟨text, level, tags, _, children⟩ => ⟨text, level, tags, id, children⟩
  | place + 1, ⟨text, level, tags, old, children⟩ => ⟨text, level, tags, old, setIdBelow id place children⟩

def setIdBelow (id : Option String) : Nat → List Node → List Node
  | _, [] => []
  | place, n :: ns =>
    if place < n.walk.length then n.setIdAt id place :: ns
    else n :: setIdBelow id (place - n.walk.length) ns

end

variable {line : List Char} {ls before body after : List (List Char)} {h : Heading}

/-! Sections. -/

theorem sections_heading (hline : Heading.ofLine? line = some h) (ls : List (List Char)) :
    sections (line :: ls) = (h, ls.takeWhile (¬ IsHeading ·)) :: sections ls := by
  rw [sections, hline]

theorem sections_body (hline : ¬ IsHeading line) (ls : List (List Char)) :
    sections (line :: ls) = sections ls := by
  rw [sections, not_isHeading_iff.1 hline]

theorem sections_append_of_body (hbody : ∀ l ∈ body, ¬ IsHeading l) (ls : List (List Char)) :
    sections (body ++ ls) = sections ls := by
  induction body with
  | nil => rfl
  | cons line body ih =>
    rw [List.forall_mem_cons] at hbody
    rw [List.cons_append, sections_body hbody.1, ih hbody.2]

theorem sections_append (hline : IsHeading line) (before ls : List (List Char)) :
    sections (before ++ line :: ls) = sections before ++ sections (line :: ls) := by
  induction before with
  | nil => rfl
  | cons first before ih =>
    by_cases hfirst : IsHeading first
    · obtain ⟨h, hh⟩ := isHeading_iff_exists.1 hfirst
      have htake : (before ++ line :: ls).takeWhile (¬ IsHeading ·) = before.takeWhile (¬ IsHeading ·) := by
        rw [List.takeWhile_append]
        split
        · next hall =>
          rw [List.takeWhile_cons_of_neg (by simpa using hline), List.append_nil,
            (List.takeWhile_prefix _).eq_of_length hall]
        · rfl
      rw [List.cons_append, sections_heading hh, sections_heading hh, htake, ih, List.cons_append]
    · rw [List.cons_append, sections_body hfirst, sections_body hfirst, ih]

theorem length_sections (ls : List (List Char)) : (sections ls).length = ls.countP (IsHeading ·) := by
  induction ls with
  | nil => rfl
  | cons line ls ih =>
    by_cases hline : IsHeading line
    · obtain ⟨h, hh⟩ := isHeading_iff_exists.1 hline
      simp [sections_heading hh, hline, ih]
    · simp [sections_body hline, hline, ih]

theorem sections_split (hh : Heading.ofLine? line = some h) (hbody : ∀ l ∈ body, ¬ IsHeading l)
    (hafter : ∀ l ∈ after.head?, IsHeading l) :
    sections (before ++ line :: (body ++ after)) = sections before ++ (h, body) :: sections after := by
  have hline : IsHeading line := isHeading_iff_exists.2 ⟨h, hh⟩
  have htake : (body ++ after).takeWhile (¬ IsHeading ·) = body :=
    takeWhile_append_stop (by simpa using hbody) (by simpa using hafter)
  rw [sections_append hline, sections_heading hh, sections_append_of_body hbody, htake]

/-! Reading. -/

namespace Reader

variable {r : Reader} {f : Frame} {fs : List Frame}

theorem Ready.headings_eq (hr : r.Ready) (hframes : r.frames = f :: fs) :
    r.headings = r.headings.dropLast ++ [f.heading.node f.id] := by
  have hchildren : f.children = [] := by simpa [hframes, beside] using hr.beside_eq
  simp [headings, hframes, pending, hchildren, ← List.append_assoc]

theorem body_eq (hframes : r.frames = f :: fs) (line : List Char) :
    r.body line = { r with
      frames := { f with id := (r.drawer.step (trim line)).2.getD f.id } :: fs
      drawer := (r.drawer.step (trim line)).1 } := by
  unfold body
  cases hid : (r.drawer.step (trim line)).2 with
  | none => simp [hid, ← hframes]
  | some id => simp [hid, setId, hframes]

theorem body_eq_of_no_frames (hframes : r.frames = []) (line : List Char) :
    r.body line = { r with drawer := (r.drawer.step (trim line)).1 } := by
  unfold body
  cases hid : (r.drawer.step (trim line)).2 with
  | none => simp [hid]
  | some id => simp [hid, setId, hframes]

theorem Ready.dropLast_headings_body (hr : r.Ready) (hframes : r.frames = f :: fs) (line : List Char) :
    (r.body line).headings.dropLast = r.headings.dropLast := by
  have hchildren : f.children = [] := by simpa [hframes, beside] using hr.beside_eq
  simp [body_eq hframes, headings, hframes, pending, hchildren, ← List.append_assoc]

theorem Ready.headings_foldl (hr : r.Ready) (hframes : r.frames = f :: fs) (ls : List (List Char)) :
    (ls.foldl Reader.step r).headings = r.headings.dropLast ++
      f.heading.node (r.drawer.lastId f.id ((ls.takeWhile (¬ IsHeading ·)).map trim)) ::
        (sections ls).map fun s => s.1.node (sectionId s.2) := by
  induction ls generalizing r f fs with
  | nil => exact hr.headings_eq hframes
  | cons line ls ih =>
    rw [List.foldl_cons]
    by_cases hline : IsHeading line
    · obtain ⟨h, hh⟩ := isHeading_iff_exists.1 hline
      have hstep : r.step line = r.enter h := by rw [Reader.step, hh]
      have hdrawer : (r.enter h).drawer = .awaited := rfl
      have hheadings := hr.headings_eq hframes
      rw [hstep, ih (hr.enter h) rfl, headings_enter, List.dropLast_concat, sections_heading hh, hdrawer,
        Drawer.lastId_awaited, List.takeWhile_cons_of_neg (by simpa using hline), hheadings]
      simp [Drawer.lastId]
    · have hstep : r.step line = r.body line := by
        rw [Reader.step, not_isHeading_iff.1 hline]
      have hbody := body_eq hframes line
      rw [hstep, ih (hr.body line) (congrArg Reader.frames hbody), hr.dropLast_headings_body hframes,
        congrArg Reader.drawer hbody, sections_body hline, List.takeWhile_cons_of_pos (by simpa using hline)]
      rfl

theorem headings_foldl_sections (hframes : r.frames = []) (hr : r.Ready) (ls : List (List Char)) :
    (ls.foldl step r).headings = r.headings ++ (sections ls).map fun s => s.1.node (sectionId s.2) := by
  induction ls generalizing r with
  | nil => simp [sections]
  | cons line ls ih =>
    rw [List.foldl_cons, step]
    cases hh : Heading.ofLine? line with
    | some h =>
      have hdrawer : (r.enter h).drawer = .awaited := rfl
      dsimp only
      rw [(hr.enter h).headings_foldl rfl, headings_enter, List.dropLast_concat, sections_heading hh, hdrawer,
        Drawer.lastId_awaited]
      rfl
    | none =>
      have hline : ¬ IsHeading line := not_isHeading_iff.2 hh
      have hbody := body_eq_of_no_frames hframes line
      dsimp only
      rw [ih (by rw [hbody, hframes]) (hr.body line), sections_body hline, hbody]
      rfl

end Reader

/-! Another id in a forest. -/

theorem modify_append {f : Node → Node} (ns ms : List Node) (place : Nat) :
    (ns ++ ms).modify place f =
      if place < ns.length then ns.modify place f ++ ms else ns ++ ms.modify (place - ns.length) f := by
  induction ns generalizing place with
  | nil => rfl
  | cons n ns ih =>
    cases place with
    | zero => simp
    | succ place =>
      rw [List.cons_append, List.modify_succ_cons, ih]
      simp only [List.length_cons, Nat.succ_lt_succ_iff, Nat.succ_sub_succ]
      split <;> rfl

theorem length_walk (n : Node) : n.walk.length = (listing n.children).length + 1 := by
  rw [Node.walk_eq, List.length_cons, listing, List.length_map]

variable {id : Option String}

theorem Node.setIdAt_zero (n : Node) : n.setIdAt id 0 = { n with id } := by
  cases n
  rw [Node.setIdAt]

theorem Node.setIdAt_succ (n : Node) (place : Nat) :
    n.setIdAt id (place + 1) = { n with children := setIdBelow id place n.children } := by
  cases n
  rw [Node.setIdAt]

theorem listing_setIdBelow (ns : List Node) (place : Nat) :
    listing (setIdBelow id place ns) = (listing ns).modify place fun n => { n with id } := by
  induction ns using forest_induction generalizing place with
  | nil => rw [setIdBelow, listing_nil, List.modify_nil]
  | cons n ns ihc ihs =>
    rw [setIdBelow, listing_cons]
    have hwalk := length_walk n
    cases place with
    | zero =>
      rw [if_pos (by omega), Node.setIdAt_zero, listing_cons, List.modify_zero_cons]
      rfl
    | succ place =>
      rw [List.modify_succ_cons, modify_append]
      split
      · rw [if_pos (by omega), Node.setIdAt_succ, listing_cons, ihc]
        rfl
      · rw [if_neg (by omega), listing_cons, ihs]
        simp only [hwalk, Nat.add_sub_add_right]

theorem Node.level_setIdAt (n : Node) (place : Nat) : (n.setIdAt id place).level = n.level := by
  cases place with
  | zero => rw [Node.setIdAt_zero]
  | succ place => rw [Node.setIdAt_succ]

theorem map_level_setIdBelow (ns : List Node) (place : Nat) :
    (setIdBelow id place ns).map Node.level = ns.map Node.level := by
  induction ns generalizing place with
  | nil => rw [setIdBelow]
  | cons n ns ih =>
    rw [setIdBelow]
    split
    · rw [List.map_cons, Node.level_setIdAt, List.map_cons]
    · rw [List.map_cons, ih, List.map_cons]

theorem forall_level_setIdBelow {P : Int → Prop} (id : Option String) (ns : List Node) (place : Nat) :
    (∀ m ∈ setIdBelow id place ns, P m.level) ↔ ∀ n ∈ ns, P n.level := by
  rw [← List.forall_mem_map, map_level_setIdBelow, List.forall_mem_map]

theorem Nested.setIdBelow {ns : List Node} (h : Nested ns) (place : Nat) :
    Nested (setIdBelow id place ns) := by
  induction ns using forest_induction generalizing place with
  | nil =>
    rw [Outline.setIdBelow]
    exact .nil
  | cons n ns ihc ihs =>
    obtain ⟨hdeeper, hchildren, hfalling, hns⟩ := cons_iff.1 h
    rw [Outline.setIdBelow]
    split
    · cases place with
      | zero =>
        rw [Node.setIdAt_zero]
        exact cons_iff.2 ⟨hdeeper, hchildren, hfalling, hns⟩
      | succ place =>
        have hdeeper' := (forall_level_setIdBelow id n.children place).2 hdeeper
        rw [Node.setIdAt_succ]
        exact cons_iff.2 ⟨hdeeper', ihc hchildren place, hfalling, hns⟩
    · have hfalling' := (forall_level_setIdBelow (P := (· ≤ n.level)) id ns (place - n.walk.length)).2 hfalling
      exact cons_iff.2 ⟨hdeeper, hchildren, hfalling', ihs hns _⟩

/-! Documents. -/

/-- Each heading has the id of its section. -/
theorem listing_parse (text : String) :
    listing (parse text) = (sections (lines text.toList)).map fun s => s.1.node (sectionId s.2) := by
  rw [parse, Reader.listing_forest, Reader.headings_foldl_sections rfl Reader.ready_empty]
  rfl

/-- With other lines in one section, the heading of the section has another id, and that is all. -/
theorem parse_replaced {text text' : String} {body' : List (List Char)} (hline : IsHeading line)
    (hlines : lines text.toList = before ++ line :: (body ++ after))
    (hlines' : lines text'.toList = before ++ line :: (body' ++ after))
    (hbody : ∀ l ∈ body ++ body', ¬ IsHeading l) (hafter : ∀ l ∈ after.head?, IsHeading l) :
    parse text' = setIdBelow (sectionId body') (before.countP (IsHeading ·)) (parse text) := by
  obtain ⟨h, hh⟩ := isHeading_iff_exists.1 hline
  rw [List.forall_mem_append] at hbody
  refine (nested_parse text').eq_of_listing_eq ((nested_parse text).setIdBelow _) ?_
  have hlength := length_sections before
  rw [listing_setIdBelow, listing_parse, listing_parse, hlines, hlines', sections_split hh hbody.1 hafter,
    sections_split hh hbody.2 hafter, ← hlength]
  simp only [List.map_append, List.map_cons, modify_append, List.length_map, Nat.lt_irrefl, if_false,
    Nat.sub_self, List.modify_zero_cons]
  rfl

/-- The id of a heading is told by the lines up to the next one: behind planning lines a drawer may stand, and
the last of its lines that set an id counts. Other lines there have no effect on the rest of the forest. -/
theorem ids_of_sections (text : String) :
    listing (parse text) = (sections (lines text.toList)).map (fun s => s.1.node (sectionId s.2)) ∧
      (∀ line id, idProperty? line = some id ↔ SetsId line id) ∧
      ∀ text' before line body body' after, IsHeading line →
        lines text.toList = before ++ line :: (body ++ after) →
        lines text'.toList = before ++ line :: (body' ++ after) →
        (∀ l ∈ body ++ body', ¬ IsHeading l) → (∀ l ∈ after.head?, IsHeading l) →
        parse text' = setIdBelow (sectionId body') (before.countP (IsHeading ·)) (parse text) := by
  refine ⟨listing_parse text, fun line id => idProperty?_eq_some_iff, ?_⟩
  intro text' before line body body' after hline hlines hlines' hbody hafter
  exact parse_replaced hline hlines hlines' hbody hafter

/-- A drawer that is not closed is replaced by one behind a planning line, whose last id is empty. -/
theorem ids_of_sections_of_open_drawer :
    let above := "* A\n:properties:\n:id: a\n:Id:\t b \n"
    let below := "** C\nCLOSED: [x]\n:PROPERTIES:\n:ID: d\n:END:\n:ID: e\n"
    let text := above ++ "* B\n:PROPERTIES:\n:ID: c\n" ++ below
    let text' := above ++ "* B\ndeadline: y\n:PROPERTIES:\n:ID: f\n:ID:\n:END:\n:ID: g\n" ++ below
    let before := lines above.toList
    let body := [":PROPERTIES:".toList, ":ID: c".toList]
    let body' := lines "deadline: y\n:PROPERTIES:\n:ID: f\n:ID:\n:END:\n:ID: g\n".toList
    let after := lines below.toList
    (IsHeading "* B".toList ∧ lines text.toList = before ++ "* B".toList :: (body ++ after) ∧
        lines text'.toList = before ++ "* B".toList :: (body' ++ after) ∧
        (∀ l ∈ body ++ body', ¬ IsHeading l) ∧ ∀ l ∈ after.head?, IsHeading l) ∧
      (listing (parse text)).map Node.id = [some "b", some "c", some "d"] ∧
      parse text' = setIdBelow none 1 (parse text) ∧
      (listing (parse text')).map Node.id = [some "b", none, some "d"] := by
  intro above below text text' before body body' after
  have hline : IsHeading "* B".toList := by decide +kernel
  have hlines : lines text.toList = before ++ "* B".toList :: (body ++ after) := by decide +kernel
  have hlines' : lines text'.toList = before ++ "* B".toList :: (body' ++ after) := by decide +kernel
  have hbody : ∀ l ∈ body ++ body', ¬ IsHeading l := by decide +kernel
  have hafter : ∀ l ∈ after.head?, IsHeading l := by decide +kernel
  have hid : sectionId body' = none := by decide +kernel
  have hplace : before.countP (IsHeading ·) = 1 := by decide +kernel
  obtain ⟨hlisting, -, hreplace⟩ := ids_of_sections text
  have hparse := hreplace text' before _ body body' after hline hlines hlines' hbody hafter
  rw [hid, hplace] at hparse
  have hids : (listing (parse text)).map Node.id = [some "b", some "c", some "d"] := by
    rw [hlisting]
    decide +kernel
  refine ⟨⟨hline, hlines, hlines', hbody, hafter⟩, hids, hparse, ?_⟩
  rw [hparse, listing_setIdBelow, hlisting]
  decide +kernel

end FeedOutline.Outline
