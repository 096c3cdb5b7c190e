import FeedOutline.Proofs.Opml.Headings
import FeedOutline.Proofs.Outline.Path

/-!
Lists with folders. The outline of a list is read as the tree that its items make, each heading with what
its item gives to itself and to all that it encloses.
-/
namespace FeedOutline.Opml

open Outline (Heading Leads Nested listing parse tagGroup? lastWord writtenTags)
open Text

/-! Items. -/

namespace Item

def name : Item → String
  | ⟨name, _, _, _⟩ => name

def url : Item → String
  | ⟨_, url, _, _⟩ => url

def category : Item → String
  | ⟨_, _, category, _⟩ => category

def items : Item → List Item
  | ⟨_, _, _, items⟩ => items

def text (i : Item) : String :=
  itemText i.name i.url

def tags (i : Item) : List String :=
  writtenTags (itemTags i.name i.url i.category)

/-- A tag comes of the item if it is made of its category or, in the case of a folder, of its name. -/
def Gives (i : Item) (tag : String) : Prop :=
  some tag ∈ categoryTags i.category ∨ i.url = "" ∧ i.name ≠ "" ∧ tagOfName? i.name = some tag

/-- The line of the item is read as it is written. -/
structure Legible (i : Item) : Prop where
  trimmed : Trimmed isBlank i.text.toList
  ne_nil : i.text.toList ≠ []
  no_break : ∀ c ∈ i.text.toList, isBreak c = false
  no_tags : i.tags = [] → tagGroup? (lastWord i.text.toList) = none

variable {i : Item} {tag : String} {level : Nat}

theorem mem_tags : tag ∈ i.tags ↔ i.Gives tag := by
  have hgives : some tag ∈ itemTags i.name i.url i.category ↔ i.Gives tag := by
    unfold itemTags Gives
    by_cases hurl : i.url = ""
    · by_cases hname : i.name = ""
      · simp [hurl, hname]
      · simpa [hurl, hname] using or_comm.trans (or_congr_right eq_comm)
    · simp [hurl]
  rw [tags, Outline.mem_writtenTags, hgives, and_iff_left_iff_imp]
  rintro (hcategory | ⟨-, -, hname⟩) rfl
  · obtain ⟨part, -, hpart⟩ := List.mem_map.1 hcategory
    exact tagOfName?_ne _ hpart
  · exact tagOfName?_ne _ hname

theorem Legible.onLine (h : i.Legible) (hlevel : 0 < level) :
    Heading.OnLine (itemLine level i.name i.url i.category) ⟨i.text, level, i.tags⟩ := by
  rw [itemLine_eq, ← headingLine_writtenTags]
  exact headingLine_annotated_read hlevel h.trimmed h.ne_nil h.no_break h.no_tags
    (Outline.isTag_writtenTags fun _ => isTagChar_itemTags) (Outline.nodup_writtenTags _)

end Item

theorem items_induction {motive : List Item → Prop} (nil : motive [])
    (cons : ∀ i is, motive i.items → motive is → motive (i :: is)) : ∀ is, motive is
  | [] => nil
  | ⟨_, _, _, below⟩ :: is => cons _ is (items_induction nil cons below) (items_induction nil cons is)

/-- The path leads from one of the items down to this one. Those before it on the path enclose it, each one
the next. -/
inductive Within : List Item → List Item → Item → Prop
  | here {items i} : i ∈ items → Within items [i] i
  | down {items c path i} : c ∈ items → Within c.items path i → Within items (c :: path) i

namespace Within

variable {items items' path : List Item} {i : Item}

theorem mono (h : Within items path i) (hsub : ∀ c ∈ items, c ∈ items') : Within items' path i := by
  cases h with
  | here hi => exact .here (hsub i hi)
  | down hc h => exact .down (hsub _ hc) h

theorem exists_of_mem (h : Within items path i) : ∀ j ∈ path, ∃ above, Within items above j := by
  induction h with
  | here hi => exact List.forall_mem_singleton.2 ⟨_, .here hi⟩
  | down hc _ ih =>
    refine List.forall_mem_cons.2 ⟨⟨_, .here hc⟩, fun j hj => ?_⟩
    obtain ⟨above, habove⟩ := ih j hj
    exact ⟨_, .down hc habove⟩

theorem forall_nil {P : Item → Prop} : (∀ path j, Within [] path j → P j) ↔ True := by
  refine iff_true_intro fun path j hj => ?_
  cases hj with
  | here hj => cases hj
  | down hc => cases hc

theorem forall_cons {is : List Item} {P : Item → Prop} :
    (∀ path j, Within (i :: is) path j → P j) ↔
      P i ∧ (∀ path j, Within i.items path j → P j) ∧ ∀ path j, Within is path j → P j := by
  constructor
  · intro h
    exact ⟨h _ i (.here (List.mem_cons_self ..)), fun path j hj => h _ j (.down (List.mem_cons_self ..) hj),
      fun path j hj => h path j (hj.mono fun c hc => List.mem_cons_of_mem _ hc)⟩
  · rintro ⟨hi, hbelow, hbeside⟩ path j hj
    cases hj with
    | here hj =>
      rcases List.mem_cons.1 hj with rfl | hj
      · exact hi
      · exact hbeside _ j (.here hj)
    | down hc hj =>
      rcases List.mem_cons.1 hc with rfl | hc
      · exact hbelow _ j hj
      · exact hbeside _ j (.down hc hj)

end Within

theorem trimmed_of_within_itemsOf (ns : List Markup.Node) : ∀ path i, Within (itemsOf ns) path i →
    Trimmed isBlank i.name.toList ∧ Trimmed isBlank i.url.toList := by
  induction ns using nodes_induction with
  | nil =>
    rw [itemsOf]
    exact Within.forall_nil.2 trivial
  | cons n ns ihc ihs =>
    rw [itemsOf]
    cases n with
    | text s => rwa [itemOf?]
    | element name attributes children =>
      rw [itemOf?]
      by_cases houtline : (name == .plain "outline") = true
      · rw [if_pos houtline]
        exact Within.forall_cons.2 ⟨⟨trimmed_trimString _, trimmed_trimString _⟩, ihc, ihs⟩
      · rwa [if_neg houtline]

theorem exists_itemsOf_of_readItems {document : String} {items : List Item}
    (h : readItems document = .ok items) : ∃ ns, items = itemsOf ns := by
  unfold readItems at h
  split at h
  · cases h
  · split at h
    · cases h
    · next body _ => exact ⟨body.children, (Except.ok.inj h).symm⟩

/-! The tree of some items. -/

mutual

def Item.node (level : Nat) : Item → Outline.Node
  | ⟨name, url, category, items⟩ =>
    ⟨itemText name url, level, writtenTags (itemTags name url category), none, nodesOf (level + 1) items⟩

def nodesOf (level : Nat) : List Item → List Outline.Node
  | [] => []
  | i :: is => i.node level :: nodesOf level is

end

/-- The items below one heading with the marker. An empty marker is not written. -/
def treeOf (marker top : String) (items : List Item) : Outline.Node :=
  ⟨top, 1, writtenTags [some marker], none, nodesOf 2 items⟩

variable {items : List Item} {level : Nat} {marker top : String}

theorem Item.node_eq (i : Item) (level : Nat) :
    i.node level = ⟨i.text, level, i.tags, none, nodesOf (level + 1) i.items⟩ := by
  cases i
  rw [Item.node]
  rfl

theorem mem_nodesOf_iff {n : Outline.Node} : n ∈ nodesOf level items ↔ ∃ i ∈ items, n = i.node level := by
  induction items with
  | nil => simp [nodesOf]
  | cons i is ih => simp [nodesOf, ih]

theorem level_of_mem_nodesOf : ∀ n ∈ nodesOf level items, n.level = level := by
  intro n hn
  obtain ⟨i, -, rfl⟩ := mem_nodesOf_iff.1 hn
  rw [Item.node_eq]

theorem nested_nodesOf (items : List Item) (level : Nat) : Nested (nodesOf level items) := by
  induction items using items_induction generalizing level with
  | nil =>
    rw [nodesOf]
    exact .nil
  | cons i is ihc ihs =>
    rw [nodesOf, Item.node_eq, Nested.cons_iff]
    refine ⟨fun c hc => ?_, ihc _, fun m hm => ?_, ihs _⟩
    · rw [level_of_mem_nodesOf c hc]
      exact Int.ofNat_lt.2 (Nat.lt_succ_self level)
    · rw [level_of_mem_nodesOf m hm]

theorem nested_treeOf (marker top : String) (items : List Item) : Nested [treeOf marker top items] := by
  refine Nested.singleton_iff.2 ⟨fun c hc => ?_, nested_nodesOf items 2⟩
  rw [level_of_mem_nodesOf c hc]
  exact Int.ofNat_lt.2 Nat.one_lt_two

theorem linesOf_cons (level : Nat) (i : Item) (is : List Item) :
    linesOf level (i :: is) =
      itemLine level i.name i.url i.category :: (linesOf (level + 1) i.items ++ linesOf level is) := by
  cases i
  rw [linesOf, Item.lines]
  rfl

theorem exists_headings_linesOf (hlevel : 0 < level) (h : ∀ path i, Within items path i → i.Legible) :
    ∃ hs : List Heading, List.Forall₂ Heading.OnLine (linesOf level items) hs ∧
      listing (nodesOf level items) = hs.map (·.node none) := by
  induction items using items_induction generalizing level with
  | nil => exact ⟨[], by rw [linesOf]; exact .nil, by rw [nodesOf, Outline.listing_nil, List.map_nil]⟩
  | cons i is ihc ihs =>
    obtain ⟨hi, hbelow, hbeside⟩ := Within.forall_cons.1 h
    obtain ⟨hs, hread, hlisting⟩ := ihc (Nat.succ_pos level) hbelow
    obtain ⟨hs', hread', hlisting'⟩ := ihs hlevel hbeside
    refine ⟨⟨i.text, level, i.tags⟩ :: (hs ++ hs'), ?_, ?_⟩
    · rw [linesOf_cons]
      exact .cons (hi.onLine hlevel) (List.rel_append hread hread')
    · rw [nodesOf, Item.node_eq, Outline.listing_cons, hlisting, hlisting', List.map_cons, List.map_append]
      rfl

theorem parse_outlineOf_items (htop : IsHeadingText top.toList)
    (hmarker : ∀ c ∈ marker.toList, isTagChar c = true) (h : ∀ path i, Within items path i → i.Legible) :
    parse (outlineOf marker top items) = [treeOf marker top items] := by
  obtain ⟨hs, hread, hlisting⟩ := exists_headings_linesOf Nat.two_pos h
  have htags : ∀ t ∈ writtenTags [some marker], isTag t.toList = true :=
    Outline.isTag_writtenTags fun t ht => Option.some.inj (List.mem_singleton.1 ht) ▸ hmarker
  have hline : Heading.OnLine (headingLine 1 top [some marker]) ⟨top, 1, writtenTags [some marker]⟩ := by
    rw [← headingLine_writtenTags]
    exact headingLine_read Nat.one_pos htop htags (Outline.nodup_writtenTags _)
  refine Outline.parse_joined (List.cons_ne_nil _ _) (.cons hline hread) (nested_treeOf marker top items) ?_
  rw [Outline.listing_cons, treeOf, hlisting]
  simp
  rfl

/-! Paths through the tree. -/

structure Item.WrittenAs (i : Item) (n : Outline.Node) : Prop where
  text : n.text = i.text
  tags : n.tags = i.tags
  id : n.id = none

theorem Item.writtenAs_node (i : Item) (level : Nat) : i.WrittenAs (i.node level) := by
  rw [Item.node_eq]
  exact ⟨rfl, rfl, rfl⟩

theorem exists_within_of_leads {n h : Outline.Node} {above : List Outline.Node} (hpath : Leads n above h)
    (hn : n ∈ nodesOf level items) : ∃ path i, Within items path i ∧ i.WrittenAs h ∧
      above.map (·.tags) = path.map Item.tags := by
  induction hpath generalizing level items with
  | here n =>
    obtain ⟨i, hi, rfl⟩ := mem_nodesOf_iff.1 hn
    have hwritten := i.writtenAs_node level
    exact ⟨[i], i, .here hi, hwritten, congrArg (fun tags => [tags]) hwritten.tags⟩
  | @down n c above h hc _ ih =>
    obtain ⟨i, hi, rfl⟩ := mem_nodesOf_iff.1 hn
    have htags := (i.writtenAs_node level).tags
    rw [Item.node_eq] at hc
    -- the level of the items below is the next one, which the induction leaves open
    obtain ⟨path, j, hj, hwritten, habove⟩ := ih hc
    exact ⟨i :: path, j, .down hi hj, hwritten, by rw [List.map_cons, List.map_cons, habove, htags]⟩

theorem Within.exists_leads {path : List Item} {i : Item} (hi : Within items path i) (level : Nat) :
    ∃ n ∈ nodesOf level items, ∃ above h, Leads n above h ∧ i.WrittenAs h ∧
      above.map (·.tags) = path.map Item.tags := by
  induction hi generalizing level with
  | @here items i hi =>
    have hwritten := i.writtenAs_node level
    exact ⟨_, mem_nodesOf_iff.2 ⟨i, hi, rfl⟩, _, _, .here _, hwritten,
      congrArg (fun tags => [tags]) hwritten.tags⟩
  | @down items c path i hc _ ih =>
    obtain ⟨n, hn, above, h, hpath, hwritten, habove⟩ := ih (level + 1)
    have hn' : n ∈ (c.node level).children := by rwa [Item.node_eq]
    refine ⟨_, mem_nodesOf_iff.2 ⟨c, hc, rfl⟩, _, h, .down hn' hpath, hwritten, ?_⟩
    rw [List.map_cons, List.map_cons, habove, (c.writtenAs_node level).tags]

end FeedOutline.Opml
