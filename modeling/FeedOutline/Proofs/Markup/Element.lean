import FeedOutline.Proofs.Markup.StartTag
import Mathlib.Data.List.TakeWhile

/-!
Reading elements as they are written. Children that keep texts apart and hold only what a document may
hold are read as they are.
-/
namespace FeedOutline.Markup

deriving instance ReflBEq, LawfulBEq for Name

/-- Children that can be written and are read as they are: no two texts stand side by side. -/
inductive Settled : List Node → Prop
  | nil : Settled []
  | text {s ns} : s ≠ "" → (∀ c ∈ s.toList, isLegal c = true ∧ c ≠ '\r') →
      (∀ n ∈ ns.head?, n.isText = false) → Settled ns → Settled (.text s :: ns)
  | element {name attributes children ns} : name.Plain → Writable attributes → Settled children →
      Settled ns → Settled (.element name attributes children :: ns)

def openFrame (name : Name) (attributes : List (Name × String)) (children : List Node) : Frame :=
  ⟨name.text.toList, name, attributes, .initial, children⟩

def Frame.addText (f : Frame) (c : Char) : Frame :=
  { f with children := addChar c f.children }

/-! Names and attributes of a tag in a document that declares nothing. -/

theorem splitName_eq {name : List Char} (h : ':' ∉ name) : splitName name = (none, name) := by
  have hnone : name.dropWhile (· != ':') = [] := by
    rw [List.dropWhile_eq_nil_iff]
    intro c hc
    simpa using fun hcolon : c = ':' => h (hcolon ▸ hc)
  rw [splitName, hnone]

theorem declaredPrefix?_eq_none {name : List Char} (h : ':' ∉ name) (hne : name ≠ "xmlns".toList) :
    declaredPrefix? name = none := by
  have hbeq : (name == "xmlns".toList) = false := beq_eq_false_iff_ne.2 hne
  rw [declaredPrefix?, hbeq, splitName_eq h]
  rfl

theorem Name.Plain.eq {m n : Name} (hm : m.Plain) (hn : n.Plain) (h : m.text = n.text) : m = n := by
  obtain ⟨space, text⟩ := m
  obtain ⟨space', text'⟩ := n
  obtain rfl : space = none := hm.space
  obtain rfl : space' = none := hn.space
  rw [show text = text' from h]

theorem Name.Plain.eq_mk {n : Name} (h : n.Plain) : n = ⟨none, String.ofList n.text.toList⟩ := by
  rw [String.ofList_toList, ← h.space]

theorem readAttributes_written {as : List RawAttribute} {attributes : List (Name × String)}
    (has : as.map RawAttribute.pair = attributes.map writtenPair)
    (hplain : ∀ a ∈ attributes, a.1.Plain ∧ a.1.text ≠ "xmlns")
    (hnodup : (attributes.map (·.1)).Nodup) {seen : List (List Char)}
    (hseen : ∀ a ∈ attributes, a.1.text.toList ∉ seen) (element : List Char) (tagStart : Nat)
    (t : TagAttributes) :
    readAttributes {} element tagStart seen t as =
      .ok { t with valued := t.valued ++ attributes.map fun a => (a.1.text.toList, a.2.toList) } := by
  induction attributes generalizing as seen t with
  | nil =>
    rw [List.map_nil, List.map_eq_nil_iff] at has
    simp [has, readAttributes]
  | cons a attributes ih =>
    rw [List.map_cons] at has
    obtain ⟨raw, as, rfl, hraw, has⟩ := List.map_eq_cons_iff.1 has
    rw [List.forall_mem_cons] at hplain hseen
    rw [List.map_cons, List.nodup_cons] at hnodup
    obtain ⟨hname, hvalue⟩ : raw.name = a.1.text.toList ∧ raw.value = a.2.toList.flatMap escapeValue :=
      Prod.mk.injEq .. ▸ hraw
    have hcontains : seen.contains raw.name = false := by
      simpa [hname] using hseen.1
    have hwords : Declarations.isWords {} element raw.name = false := rfl
    have hprefix : declaredPrefix? raw.name = none := by
      rw [hname]
      refine declaredPrefix?_eq_none hplain.1.1.colon_not_mem fun h => hplain.1.2 ?_
      exact String.toList_injective h
    have hrest : ∀ b ∈ attributes, b.1.text.toList ∉ raw.name :: seen := by
      intro b hb
      rw [List.mem_cons, not_or, hname]
      refine ⟨fun heq => hnodup.1 ?_, hseen.2 b hb⟩
      rw [← (hplain.2 b hb).1.eq hplain.1.1 (String.toList_injective heq)]
      exact List.mem_map_of_mem hb
    rw [readAttributes, hcontains, hwords, hvalue, attributeValue_escapeValue]
    simp only [Bool.false_eq_true, if_false, bind, Except.bind, TagAttributes.add, hprefix]
    rw [ih has hplain.2 hnodup.2 hrest]
    simp [hname]

theorem nameAttributes_written {attributes : List (Name × String)}
    (hplain : ∀ a ∈ attributes, a.1.Plain) (hnodup : (attributes.map (·.1)).Nodup) {seen : List Name}
    (hseen : ∀ a ∈ attributes, a.1 ∉ seen) (spaces : Spaces) (tagStart : Nat) :
    nameAttributes spaces tagStart seen (attributes.map fun a => (a.1.text.toList, a.2.toList)) =
      .ok attributes := by
  induction attributes generalizing seen with
  | nil => rfl
  | cons a attributes ih =>
    rw [List.forall_mem_cons] at hplain hseen
    rw [List.map_cons, List.nodup_cons] at hnodup
    have hname : attributeName? spaces a.1.text.toList = some a.1 := by
      rw [attributeName?, splitName_eq hplain.1.colon_not_mem]
      exact congrArg some hplain.1.eq_mk.symm
    have hcontains : seen.contains a.1 = false := by
      simpa using hseen.1
    have hrest : ∀ b ∈ attributes, b.1 ∉ a.1 :: seen := by
      intro b hb
      rw [List.mem_cons, not_or]
      refine ⟨fun heq => hnodup.1 ?_, hseen.2 b hb⟩
      rw [← heq]
      exact List.mem_map_of_mem hb
    rw [List.map_cons, nameAttributes]
    simp only [hname, hcontains, Bool.false_eq_true, if_false, ih hplain.2 hnodup.2 hrest, bind,
      Except.bind, pure, Except.pure, String.ofList_toList]

theorem Tree.addTag_written {t : Tree} (hspaces : t.spaces = .initial) {tag : Tag} {name : Name}
    {attributes : List (Name × String)} (hname : name.Plain) (hattributes : Writable attributes)
    (htag : tag.Spells name.text.toList (attributes.map writtenPair)) (offset : Nat) :
    t.addTag {} tag offset = .ok (if tag.isEmpty then t.addNode (.element name attributes [])
      else { t with frames := openFrame name attributes [] :: t.frames }) := by
  have hread : readAttributes {} tag.name offset [] ⟨[], .initial⟩ tag.attributes = _ :=
    readAttributes_written htag.pairs hattributes.plain hattributes.nodup (by simp) _ _ _
  have hnames : nameAttributes .initial offset [] _ = _ :=
    nameAttributes_written (fun a ha => (hattributes.plain a ha).1) hattributes.nodup (by simp) _ _
  have helement : elementName? .initial name.text.toList = some name := by
    rw [elementName?, splitName_eq hname.colon_not_mem]
    exact congrArg some hname.eq_mk.symm
  have hall : allAttributes {} offset .initial tag =
      .ok ⟨attributes.map fun a => (a.1.text.toList, a.2.toList), .initial⟩ := by
    rw [allAttributes, hread]
    rfl
  rw [Tree.addTag, hspaces, hall]
  simp only [bind, Except.bind, hnames, helement, pure, Except.pure, htag.name]
  rfl

end FeedOutline.Markup
