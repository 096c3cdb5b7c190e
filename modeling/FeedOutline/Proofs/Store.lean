import FeedOutline.Store
import FeedOutline.Proofs.RuleTable.Feeds

/-!
What an export of titles does to a store. The feeds with a title in the table get it, all others are left
alone, what changes is counted, and a second export changes nothing.
-/
namespace FeedOutline.Store

variable {s : Store} {taken : Store × Nat} {url : String} {wanted : RuleTable.Titles}

def urls (s : Store) : List String :=
  s.feeds.map (·.1)

theorem mem_urls_iff : url ∈ s.urls ↔ (s.feed? url).isSome = true :=
  mem_map_fst_iff

theorem feed?_setTitle (s : Store) (url : String) (title : Option String) (other : String) :
    (s.setTitle url title).feed? other = if other = url then some title else s.feed? other :=
  lookup_upsert url _ s.feeds other

theorem urls_setTitle (s : Store) (url : String) (title : Option String) :
    (s.setTitle url title).urls = if url ∈ s.urls then s.urls else s.urls ++ [url] :=
  map_fst_upsert url _ s.feeds

/-- The feed has another title than the one that is wanted for it, or none. -/
def Lacks (s : Store) (wanted : String × String) : Prop :=
  s.feed? wanted.1 ≠ some (some wanted.2)

instance (s : Store) (wanted : String × String) : Decidable (s.Lacks wanted) :=
  inferInstanceAs (Decidable (_ ≠ _))

/-! One title. -/

theorem takeTitle_of_lacks {w : String × String} (h : taken.1.Lacks w) :
    takeTitle taken w = (taken.1.setTitle w.1 (some w.2), taken.2 + 1) :=
  if_neg h

theorem takeTitle_of_not_lacks {w : String × String} (h : ¬ taken.1.Lacks w) : takeTitle taken w = taken :=
  if_pos (not_not.1 h)

theorem feed?_takeTitle (taken : Store × Nat) (w : String × String) (url : String) :
    (takeTitle taken w).1.feed? url = if url = w.1 then some (some w.2) else taken.1.feed? url := by
  by_cases h : taken.1.Lacks w
  · rw [takeTitle_of_lacks h, feed?_setTitle]
  · rw [takeTitle_of_not_lacks h]
    split
    · next hurl => rw [hurl, not_not.1 h]
    · rfl

theorem urls_takeTitle (taken : Store × Nat) (w : String × String) : (takeTitle taken w).1.urls =
    if w.1 ∈ taken.1.urls then taken.1.urls else taken.1.urls ++ [w.1] := by
  by_cases h : taken.1.Lacks w
  · rw [takeTitle_of_lacks h, urls_setTitle]
  · have hmem : w.1 ∈ taken.1.urls := mem_urls_iff.2 (not_not.1 h ▸ rfl)
    rw [takeTitle_of_not_lacks h, if_pos hmem]

theorem lacks_takeTitle_iff {w w' : String × String} (h : w'.1 ≠ w.1) :
    (takeTitle taken w).1.Lacks w' ↔ taken.1.Lacks w' := by
  rw [Lacks, feed?_takeTitle, if_neg h, Lacks]

/-! All titles, one after the other. -/

theorem feed?_foldl_takeTitle (hnodup : (wanted.map (·.1)).Nodup) (taken : Store × Nat) (url : String) :
    (wanted.foldl takeTitle taken).1.feed? url =
      ((wanted.lookup url).map some).or (taken.1.feed? url) := by
  induction wanted generalizing taken with
  | nil => rfl
  | cons w wanted ih =>
    rw [List.map_cons, List.nodup_cons] at hnodup
    rw [List.foldl_cons, ih hnodup.2, feed?_takeTitle, lookup_cons_eq]
    by_cases hurl : url = w.1
    · have hnone : wanted.lookup url = none := by
        rw [← Option.not_isSome_iff_eq_none, ← mem_map_fst_iff, hurl]
        exact hnodup.1
      rw [hnone, if_pos hurl, if_pos hurl]
      rfl
    · rw [if_neg hurl, if_neg hurl]

theorem urls_foldl_takeTitle (hnodup : (wanted.map (·.1)).Nodup) (taken : Store × Nat) :
    (wanted.foldl takeTitle taken).1.urls =
      taken.1.urls ++ (wanted.map (·.1)).filter (· ∉ taken.1.urls) := by
  induction wanted generalizing taken with
  | nil => simp
  | cons w wanted ih =>
    rw [List.map_cons, List.nodup_cons] at hnodup
    rw [List.foldl_cons, ih hnodup.2, urls_takeTitle, List.map_cons, List.filter_cons]
    by_cases hw : w.1 ∈ taken.1.urls
    · simp [hw]
    · have hothers : ∀ url ∈ wanted.map (·.1),
          decide (url ∉ taken.1.urls ++ [w.1]) = decide (url ∉ taken.1.urls) := by
        intro url hurl
        simp [show url ≠ w.1 from fun heq => hnodup.1 (heq ▸ hurl)]
      rw [if_neg hw, if_pos (by simpa using hw), List.filter_congr hothers, List.append_assoc,
        List.singleton_append]

theorem count_foldl_takeTitle (hnodup : (wanted.map (·.1)).Nodup) (taken : Store × Nat) :
    (wanted.foldl takeTitle taken).2 = taken.2 + wanted.countP fun w => taken.1.Lacks w := by
  induction wanted generalizing taken with
  | nil => rfl
  | cons w wanted ih =>
    rw [List.map_cons, List.nodup_cons] at hnodup
    have hothers : wanted.countP (fun w' => (takeTitle taken w).1.Lacks w') =
        wanted.countP fun w' => taken.1.Lacks w' := by
      refine List.countP_congr fun w' hw' => ?_
      have hne : w'.1 ≠ w.1 := fun heq => hnodup.1 (heq ▸ List.mem_map_of_mem hw')
      simp only [decide_eq_true_eq, lacks_takeTitle_iff hne]
    rw [List.foldl_cons, ih hnodup.2, hothers, List.countP_cons]
    by_cases hw : taken.1.Lacks w
    · rw [takeTitle_of_lacks hw, if_pos (by simpa using hw)]
      omega
    · rw [takeTitle_of_not_lacks hw, if_neg (by simpa using hw)]
      rfl

theorem titleUpdates_foldl_takeTitle (wanted : RuleTable.Titles) (taken : Store × Nat) :
    (wanted.foldl takeTitle taken).1.titleUpdates + taken.2 =
      taken.1.titleUpdates + (wanted.foldl takeTitle taken).2 := by
  induction wanted generalizing taken with
  | nil => rfl
  | cons w wanted ih =>
    have hrest := ih (takeTitle taken w)
    rw [List.foldl_cons]
    by_cases hw : taken.1.Lacks w
    · rw [takeTitle_of_lacks hw] at hrest ⊢
      dsimp only [setTitle] at hrest ⊢
      omega
    · rwa [takeTitle_of_not_lacks hw] at hrest ⊢

theorem foldl_takeTitle_of_not_lacks (h : ∀ w ∈ wanted, ¬ taken.1.Lacks w) :
    wanted.foldl takeTitle taken = taken := by
  induction wanted with
  | nil => rfl
  | cons w wanted ih =>
    rw [List.forall_mem_cons] at h
    rw [List.foldl_cons, takeTitle_of_not_lacks h.1, ih h.2]

/-! A table. -/

variable {t : RuleTable}

theorem feed?_exportTitles (s : Store) (t : RuleTable) (url : String) :
    (s.exportTitles t).feed? url = ((t.titles.lookup url).map some).or (s.feed? url) :=
  feed?_foldl_takeTitle t.nodup_titles (s, 0) url

theorem not_lacks_exportTitles (s : Store) {w : String × String} (hw : w ∈ t.titles) :
    ¬ (s.exportTitles t).Lacks w := by
  have hlookup : t.titles.lookup w.1 = some w.2 := lookup_of_mem t.nodup_titles hw
  rw [Lacks, feed?_exportTitles, hlookup]
  exact not_not.2 rfl

/-- An export gives every feed with a title in the table this title and leaves all others as they are; feeds
keep their places, and new ones come behind them in the order of the titles. The feeds that had another title
or none are counted, and a second export changes nothing. -/
theorem exportTitles_settles (s : Store) (t : RuleTable) :
    (∀ url, (s.exportTitles t).feed? url =
      match t.titles.lookup url with
      | some title => some (some title)
      | none => s.feed? url) ∧
      (s.exportTitles t).urls = s.urls ++ (t.titles.map (·.1)).filter (· ∉ s.urls) ∧
      (t.titles.map (·.1)).Nodup ∧
      s.exportCount t = t.titles.countP (fun w => s.feed? w.1 ≠ some (some w.2)) ∧
      (s.exportTitles t).titleUpdates = s.titleUpdates + s.exportCount t ∧
      (s.exportTitles t).exportCount t = 0 ∧
      (s.exportTitles t).exportTitles t = s.exportTitles t := by
  have hagain : (s.exportTitles t).takeTitles t.titles = (s.exportTitles t, 0) :=
    foldl_takeTitle_of_not_lacks fun w hw => not_lacks_exportTitles s hw
  refine ⟨fun url => ?_, urls_foldl_takeTitle t.nodup_titles (s, 0), t.nodup_titles, ?_,
    titleUpdates_foldl_takeTitle t.titles (s, 0), ?_, ?_⟩
  · rw [feed?_exportTitles]
    cases t.titles.lookup url <;> rfl
  · rw [exportCount, takeTitles, count_foldl_takeTitle t.nodup_titles, Nat.zero_add]
    rfl
  · rw [exportCount, hagain]
  · rw [exportTitles, hagain]

example :
    let t : RuleTable := ⟨[], [⟨"http://b.example", .empty, some "B"⟩, ⟨"http://a.example", .empty, some "New"⟩,
      ⟨"http://c.example", .empty, some "C"⟩]⟩
    let s : Store := ⟨[("http://x.example", none), ("http://a.example", some "Old"),
      ("http://c.example", some "C")], 7⟩
    s.exportTitles t = ⟨[("http://x.example", none), ("http://a.example", some "New"),
      ("http://c.example", some "C"), ("http://b.example", some "B")], 9⟩ ∧ s.exportCount t = 2 := by
  decide +kernel

end FeedOutline.Store
