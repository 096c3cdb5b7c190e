import FeedOutline.Opml.Export
import FeedOutline.Opml.Item
import FeedOutline.Proofs.Markup.Refused
import FeedOutline.Proofs.Opml.Portable
import FeedOutline.Proofs.RuleTable.Feeds

/-!
The items of a subscription list as it is written. Each feed of a table comes back as one item, and line
breaks between elements do not matter.
-/
namespace FeedOutline

open Markup (Node Name Settled Spoiled Writable isLegal lineBreak)
open Text

def Opml.tagsOf (rules : List SubscriptionRule) : TagSet :=
  rules.foldl (fun tags r => tags.union r.addTags) .empty

/-- The rules of a table with those of one feed put together. -/
def RuleTable.feeds (t : RuleTable) : List SubscriptionRule :=
  t.feedIndex.map fun (url, rules) => ⟨url, Opml.tagsOf rules, t.titles.lookup url⟩

namespace Opml

def feedItem (r : SubscriptionRule) : Item :=
  ⟨r.title.getD r.feedUrl, r.feedUrl, joined "," r.addTags.toList, []⟩

theorem mem_tagsOf {rules : List SubscriptionRule} {tag : String} :
    tag ∈ tagsOf rules ↔ ∃ r ∈ rules, tag ∈ r.addTags := by
  induction rules using List.reverseRecOn with
  | nil => simp [tagsOf]
  | append_singleton rules r ih =>
    rw [tagsOf] at ih ⊢
    rw [List.foldl_append, List.foldl_cons, List.foldl_nil, TagSet.mem_union, ih]
    simp [or_and_right, exists_or]

theorem tagsByFeed_eq (t : RuleTable) :
    tagsByFeed t =
      (urlsOf t.subscriptionRules).map fun url => (url, tagsOf (rulesOf t.subscriptionRules url)) := by
  refine foldl_upsert (fun r : SubscriptionRule => r.feedUrl) _ tagsOf (fun _ => rfl) (fun rules r => ?_)
    t.subscriptionRules
  rw [tagsOf, List.foldl_append]
  rfl

theorem feedNodes_eq (t : RuleTable) :
    feedNodes t = t.feeds.map fun r => feedNode r.feedUrl r.title r.addTags := by
  simp [feedNodes, tagsByFeed_eq, RuleTable.feeds, RuleTable.feedIndex_eq]

/-! Reading items. -/

theorem nodes_induction {motive : List Node → Prop} (nil : motive [])
    (cons : ∀ n ns, motive n.children → motive ns → motive (n :: ns)) : ∀ ns, motive ns
  | [] => nil
  | .text _ :: ns => cons _ ns nil (nodes_induction nil cons ns)
  | .element _ _ children :: ns =>
    cons _ ns (nodes_induction nil cons children) (nodes_induction nil cons ns)

theorem itemsOf_cons (n : Node) (ns : List Node) :
    itemsOf (n :: ns) = (itemOf? n).toList ++ itemsOf ns := by
  rw [itemsOf]
  cases itemOf? n <;> rfl

theorem readItems_eq {document : String} {root body : Node} (hread : Markup.read document = .ok root)
    (hbody : (root.childrenNamed "body").head? = some body) :
    readItems document = .ok (itemsOf body.children) := by
  rw [readItems, hread]
  simp only [hbody]

theorem itemsOf_append (ns ms : List Node) : itemsOf (ns ++ ms) = itemsOf ns ++ itemsOf ms := by
  induction ns with
  | nil => simp [itemsOf]
  | cons n ns ih => rw [List.cons_append, itemsOf_cons, itemsOf_cons, ih, List.append_assoc]

theorem itemsOf_lineBreak (depth : Nat) (ns : List Node) :
    itemsOf (lineBreak depth :: ns) = itemsOf ns := by
  rw [itemsOf_cons, lineBreak, itemOf?]
  rfl

theorem itemsOf_indentAll (ns : List Node) (depth : Nat) :
    itemsOf (Markup.indentAll depth ns) = itemsOf ns := by
  induction ns using nodes_induction generalizing depth with
  | nil => rw [Markup.indentAll]
  | cons n ns ihc ihs =>
    have hitem : itemOf? (n.indent depth) = itemOf? n := by
      cases n with
      | text s => rw [Node.indent]
      | element name attributes children =>
        obtain ⟨children', hindent, rfl | ⟨rfl, -⟩⟩ :=
          Node.indent_element name attributes children depth
        · rw [hindent]
        · have hchildren : itemsOf (Markup.indentAll (depth + 1) children) = itemsOf children := ihc _
          rw [hindent, itemOf?, itemOf?, itemsOf_append, itemsOf_lineBreak, hchildren, itemsOf,
            List.append_nil]
    rw [Markup.indentAll, itemsOf_lineBreak, itemsOf_cons, itemsOf_cons, hitem, ihs]

theorem itemsOf_children_indent (n : Node) (depth : Nat) :
    itemsOf (n.indent depth).children = itemsOf n.children := by
  cases n with
  | text s => rw [Node.indent]
  | element name attributes children =>
    obtain ⟨children', hindent, rfl | ⟨rfl, -⟩⟩ := Node.indent_element name attributes children depth
    · rw [hindent]
    · rw [hindent, Node.children, itemsOf_append, itemsOf_lineBreak, itemsOf_indentAll, itemsOf,
        List.append_nil]
      rfl

/-! Writing feeds. -/

theorem attribute?_category (url : String) (title : Option String) (tags : TagSet) :
    ((feedNode url title tags).attribute? "category").getD "" = joined "," tags.toList := by
  unfold feedNode
  cases h : tags.isEmpty with
  | false => rfl
  | true =>
    have hnone : tags.toList = [] := by simpa [TagSet.isEmpty] using h
    rw [hnone]
    rfl

theorem nameOf_feedNode {r : SubscriptionRule} (h : r.Admitted) :
    nameOf (feedNode r.feedUrl r.title r.addTags) = r.title.getD r.feedUrl := by
  have hname : r.title.getD r.feedUrl ≠ "" ∧ Trimmed isBlank (r.title.getD r.feedUrl).toList := by
    cases htitle : r.title with
    | none => exact ⟨h.url_ne, .of_forall h.no_blank⟩
    | some t => exact ⟨(h.title t htitle).1, (h.title t htitle).2.1⟩
  have hfilled : filled? "title" (feedNode r.feedUrl r.title r.addTags) =
      some (r.title.getD r.feedUrl) := by
    have hattribute : (feedNode r.feedUrl r.title r.addTags).attribute? "title" =
        some (r.title.getD r.feedUrl) := rfl
    rw [filled?, hattribute]
    simp [hname.1]
  rw [Opml.nameOf, hfilled, Option.some_or, Option.getD_some, hname.2.trimString_eq]

theorem itemOf?_outline (attributes : List (Name × String)) (children : List Node) :
    let n := Node.element (.plain "outline") attributes []
    itemOf? (.element (.plain "outline") attributes children) =
      some ⟨nameOf n, trimString ((n.attribute? "xmlUrl").getD ""), (n.attribute? "category").getD "",
        itemsOf children⟩ := by
  rw [itemOf?]
  rfl

theorem itemOf?_feedNode {r : SubscriptionRule} (h : r.Admitted) :
    itemOf? (feedNode r.feedUrl r.title r.addTags) = some (feedItem r) := by
  let n := feedNode r.feedUrl r.title r.addTags
  have hitem : itemOf? n = some ⟨nameOf n, trimString ((n.attribute? "xmlUrl").getD ""),
      (n.attribute? "category").getD "", itemsOf []⟩ := itemOf?_outline _ []
  have hurl : trimString ((n.attribute? "xmlUrl").getD "") = r.feedUrl :=
    (Trimmed.of_forall h.no_blank).trimString_eq
  rw [hitem, hurl, nameOf_feedNode h, attribute?_category, itemsOf]
  rfl

theorem itemsOf_feeds {rs : List SubscriptionRule} (h : ∀ r ∈ rs, r.Admitted) :
    itemsOf (rs.map fun r => feedNode r.feedUrl r.title r.addTags) = rs.map feedItem := by
  induction rs with
  | nil => rw [List.map_nil, itemsOf, List.map_nil]
  | cons r rs ih =>
    rw [List.forall_mem_cons] at h
    rw [List.map_cons, itemsOf_cons, itemOf?_feedNode h.1, ih h.2]
    rfl

/-! A list as a document. -/

def isPlainName (text : String) : Bool :=
  match text.toList with
  | c :: cs => Markup.isNameStart c && cs.all Markup.isNameChar
  | [] => false

theorem plain_name {text : String} (h : isPlainName text = true) : (Name.plain text).Plain := by
  unfold isPlainName at h
  split at h
  · next c cs htext =>
    rw [Bool.and_eq_true, List.all_eq_true] at h
    exact ⟨rfl, c, cs, htext, h.1, h.2⟩
  · cases h

theorem writable_pairs {pairs : List (String × String)} (keys : List String)
    (hpairs : pairs.map (·.1) = keys) (hkeys : ∀ k ∈ keys, isPlainName k = true ∧ k ≠ "xmlns")
    (hnodup : keys.Nodup) (hvalues : ∀ p ∈ pairs, ∀ c ∈ p.2.toList, isLegal c = true) :
    Writable (pairs.map fun p => (Name.plain p.1, p.2)) := by
  constructor
  · intro a ha
    obtain ⟨p, hp, rfl⟩ := List.mem_map.1 ha
    obtain ⟨hplain, hne⟩ := hkeys p.1 (hpairs ▸ List.mem_map_of_mem hp)
    exact ⟨plain_name hplain, hne⟩
  · have hnames : (pairs.map fun p => (Name.plain p.1, p.2)).map (·.1) = keys.map Name.plain := by
      rw [← hpairs, List.map_map, List.map_map]
      rfl
    rw [hnames]
    exact hnodup.map fun _ _ h => congrArg Name.text h
  · intro a ha
    obtain ⟨p, hp, rfl⟩ := List.mem_map.1 ha
    exact hvalues p hp

theorem settled_feedNode {r : SubscriptionRule} (h : r.Admitted) (hlegal : r.Legal) {ns : List Node}
    (hns : Settled ns) : Settled (feedNode r.feedUrl r.title r.addTags :: ns) := by
  rw [SubscriptionRule.Legal, List.forall_mem_append] at hlegal
  have hshown : ∀ c ∈ (r.title.getD r.feedUrl).toList, isLegal c = true := by
    cases htitle : r.title with
    | none => exact hlegal.1
    | some t => simpa [htitle] using hlegal.2
  have htags : ∀ c ∈ (joined "," r.addTags.toList).toList, isLegal c = true :=
    forall_mem_joined (by decide) fun t ht c hc => Markup.isLegal_of_isTagChar ((isTag_iff.1 (h.tag t ht)).2 c hc)
  refine .element (plain_name (by decide)) ?_ .nil hns
  by_cases hempty : r.addTags.isEmpty = true
  · rw [if_pos hempty, List.append_nil]
    refine writable_pairs ["type", "text", "title", "xmlUrl"] rfl (by decide) (by decide) ?_
    simp only [List.forall_mem_cons]
    exact ⟨by decide, hshown, hshown, hlegal.1, by simp⟩
  · rw [if_neg hempty]
    refine writable_pairs ["type", "text", "title", "xmlUrl", "category"] rfl (by decide) (by decide) ?_
    simp only [List.cons_append, List.nil_append, List.forall_mem_cons]
    exact ⟨by decide, hshown, hshown, hlegal.1, htags, by simp⟩

theorem settled_feeds {rs : List SubscriptionRule} (h : ∀ r ∈ rs, r.Admitted ∧ r.Legal) :
    Settled (rs.map fun r => feedNode r.feedUrl r.title r.addTags) := by
  induction rs with
  | nil => exact .nil
  | cons r rs ih =>
    rw [List.forall_mem_cons] at h
    exact settled_feedNode h.1.1 h.1.2 (ih h.2)

theorem spoiled_feedNode {r : SubscriptionRule} (h : ¬ r.Legal) (ns : List Node) :
    Spoiled (feedNode r.feedUrl r.title r.addTags :: ns) := by
  have hplain : ∀ key ∈ ["type", "text", "title", "xmlUrl", "category"], (Name.plain key).Plain := by
    intro key hkey
    refine plain_name ?_
    revert key
    decide
  have hvalue : ∃ c ∈ r.feedUrl.toList ++ (r.title.getD r.feedUrl).toList, isLegal c = false := by
    simp only [SubscriptionRule.Legal, not_forall, Bool.not_eq_true] at h
    obtain ⟨c, hc, hillegal⟩ := h
    refine ⟨c, ?_, hillegal⟩
    rw [List.mem_append] at hc ⊢
    cases htitle : r.title with
    | none => exact .inl (hc.resolve_right (by simp [htitle]))
    | some t => simpa [htitle] using hc
  obtain ⟨c, hc, hillegal⟩ := hvalue
  refine .here (plain_name (by decide)) ?_ ?_
  · refine List.forall_mem_map.2 fun p hp => hplain p.1 ?_
    rcases List.mem_append.1 hp with hp | hp
    · revert p
      simp
    · split at hp
      · cases hp
      · simp [List.mem_singleton.1 hp]
  · rcases List.mem_append.1 hc with hc | hc
    · exact ⟨(.plain "xmlUrl", r.feedUrl), by simp, c, hc, hillegal⟩
    · exact ⟨(.plain "title", r.title.getD r.feedUrl), by simp, c, hc, hillegal⟩

theorem spoiled_feeds {rs : List SubscriptionRule} (h : ∀ r ∈ rs, r.Admitted)
    (hillegal : ∃ r ∈ rs, ¬ r.Legal) :
    Spoiled (rs.map fun r => feedNode r.feedUrl r.title r.addTags) := by
  induction rs with
  | nil => simp at hillegal
  | cons r rs ih =>
    rw [List.forall_mem_cons] at h
    rw [List.map_cons]
    by_cases hlegal : r.Legal
    · have hrest : ∃ r ∈ rs, ¬ r.Legal := by simpa [hlegal] using hillegal
      exact .behind (settled_feedNode h.1 hlegal .nil) (by simp [feedNode, Node.isText]) (ih h.2 hrest)
    · exact spoiled_feedNode hlegal _

theorem hasName_indent (name : String) (n : Node) (depth : Nat) :
    (n.indent depth).hasName name = n.hasName name := by
  cases n with
  | text s => rw [Node.indent]
  | element tag attributes children =>
    obtain ⟨children', hindent, -⟩ := Node.indent_element tag attributes children depth
    rw [hindent]
    rfl

theorem writable_nil : Writable [] :=
  ⟨by simp, .nil, by simp⟩

theorem writable_version : Writable [(.plain "version", "2.0")] := by
  have h : Writable ([("version", "2.0")].map fun p => (Name.plain p.1, p.2)) :=
    writable_pairs ["version"] rfl (by decide) (by decide) (by decide)
  exact h

theorem settled_head (title : String) (htitle : ∀ c ∈ title.toList, isLegal c = true ∧ c ≠ '\r')
    {ns : List Node} (hns : Settled ns) :
    Settled (.element (.plain "head") []
      [.element (.plain "title") [] (if title.isEmpty then [] else [.text title])] :: ns) := by
  have htext : Settled (if title.isEmpty then [] else [.text title]) := by
    split
    · exact .nil
    · next hne => exact .text (by simpa using hne) htitle (by simp) .nil
  exact .element (plain_name (by decide)) writable_nil
    (.element (plain_name (by decide)) writable_nil htext .nil) hns

theorem read_ofTable {t : RuleTable} (h : ∀ r ∈ t.feeds, r.Admitted ∧ r.Legal) {title : String}
    (htitle : ∀ c ∈ title.toList, isLegal c = true ∧ c ≠ '\r') :
    Markup.read (ofTable t title) = .ok ((rootNode t title).indent 0) := by
  have hfeeds : Settled (feedNodes t) := feedNodes_eq t ▸ settled_feeds h
  exact Markup.read_document (plain_name (by decide)) writable_version
    (settled_head title htitle (.element (plain_name (by decide)) writable_nil hfeeds .nil))

theorem read_ofTable_refused {t : RuleTable} (h : ∀ r ∈ t.feeds, r.Admitted)
    (hillegal : ∃ r ∈ t.feeds, ¬ r.Legal) {title : String}
    (htitle : ∀ c ∈ title.toList, isLegal c = true ∧ c ≠ '\r') :
    ∃ e, Markup.read (ofTable t title) = .error e := by
  have hfeeds : Spoiled (feedNodes t) := feedNodes_eq t ▸ spoiled_feeds h hillegal
  exact Markup.read_document_refused (plain_name (by decide)) writable_version
    (.behind (settled_head title htitle .nil) (by simp [Node.isText])
      (.inside (plain_name (by decide)) writable_nil hfeeds))

theorem childrenNamed_body (t : RuleTable) (title : String) :
    ((rootNode t title).indent 0).childrenNamed "body" =
      [(Node.element (.plain "body") [] (feedNodes t)).indent 1] := by
  let headNode : Node :=
    .element (.plain "head") [] [.element (.plain "title") [] (if title.isEmpty then [] else [.text title])]
  let bodyNode : Node := .element (.plain "body") [] (feedNodes t)
  have hroot : rootNode t title =
      .element (.plain "opml") [(.plain "version", "2.0")] [headNode, bodyNode] := rfl
  have hindent : (rootNode t title).indent 0 = .element (.plain "opml") [(.plain "version", "2.0")]
      [lineBreak 1, headNode.indent 1, lineBreak 1, bodyNode.indent 1, lineBreak 0] := by
    rw [hroot, Node.indent]
    simp [Markup.indentAll, headNode, bodyNode, Node.isText]
  have hhead : (headNode.indent 1).hasName "body" = false := by
    rw [hasName_indent]
    rfl
  have hbody : (bodyNode.indent 1).hasName "body" = true := by
    rw [hasName_indent]
    rfl
  have hbreak (depth : Nat) : (lineBreak depth).hasName "body" = false := rfl
  rw [hindent, Node.childrenNamed, Node.children]
  simp only [List.filter_cons, List.filter_nil, hhead, hbody, hbreak, Bool.false_eq_true, if_false,
    if_true]
  rfl

theorem readItems_ofTable {t : RuleTable} (h : ∀ r ∈ t.feeds, r.Admitted ∧ r.Legal) {title : String}
    (htitle : ∀ c ∈ title.toList, isLegal c = true ∧ c ≠ '\r') :
    readItems (ofTable t title) = .ok (t.feeds.map feedItem) := by
  rw [readItems_eq (read_ofTable h htitle) (by rw [childrenNamed_body, List.head?_cons]),
    itemsOf_children_indent, Node.children, feedNodes_eq, itemsOf_feeds fun r hr => (h r hr).1]

/-- A list can be read exactly if it holds nothing but what a document may hold. -/
theorem readItems_ofTable_iff {t : RuleTable} (h : ∀ r ∈ t.feeds, r.Admitted) {title : String}
    (htitle : ∀ c ∈ title.toList, isLegal c = true ∧ c ≠ '\r') :
    (∃ items, readItems (ofTable t title) = .ok items) ↔ ∀ r ∈ t.feeds, r.Legal := by
  constructor
  · rintro ⟨items, hitems⟩
    by_contra hnot
    obtain ⟨e, he⟩ := read_ofTable_refused h (by simpa using hnot) htitle
    rw [readItems, he] at hitems
    cases hitems
  · exact fun hlegal => ⟨_, readItems_ofTable (fun r hr => ⟨h r hr, hlegal r hr⟩) htitle⟩

end Opml

end FeedOutline
