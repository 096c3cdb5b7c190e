import FeedOutline.Proofs.Data.Document

/-!
Copies of documents and merges. A copy has parts of its own, so that a merge leaves all those alone that were
there, and what is merged into one mapping does not show in another.
-/
namespace FeedOutline.Data

open Value (shiftParts changeAt)

variable {parts base : List Value} {bound n : Nat} {m es : Mapping} {k key : String} {key' : Scalar}
  {ks : List String} {v : Value} {d : Document}

namespace Value

/-! A copy of a value finds copies of the parts behind the parts themselves. -/

theorem proper_shiftParts (hv : v.Proper bound) : (v.shiftParts n).Proper (bound + n) :=
  proper_mapParts (fun _ hm _ => Nat.add_lt_add_right hm n) hv

theorem part?_shiftParts : (v.shiftParts n).part? = v.part?.map (· + n) := by
  cases v <;> rfl

theorem viewIn_shiftParts : (v.shiftParts parts.length).viewIn (parts ++ parts.map (shiftParts parts.length)) =
    (v.viewIn parts).shiftParts parts.length := by
  cases v with
  | part n isMap =>
    rw [shiftParts, mapParts, viewIn_part, viewIn_part, List.getElem?_append_right (Nat.le_add_left ..),
      Nat.add_sub_cancel, List.getElem?_map]
    cases parts[n]? <;> rfl
  | _ => rfl

theorem get?_shiftParts : (v.shiftParts parts.length).get? (parts ++ parts.map (shiftParts parts.length)) k =
    (v.get? parts k).map (shiftParts parts.length) := by
  rw [get?, get?, viewIn_shiftParts]
  cases v.viewIn parts with
  | map m => exact get?_mapPartsEntries _ m k
  | _ => rfl

theorem at?_shiftParts : (v.shiftParts parts.length).at? (parts ++ parts.map (shiftParts parts.length)) ks =
    (v.at? parts ks).map (shiftParts parts.length) := by
  induction ks generalizing v with
  | nil => rfl
  | cons k ks ih =>
    rw [at?, at?, get?_shiftParts]
    cases v.get? parts k with
    | none => rfl
    | some w => exact ih

theorem maps_shiftParts : (v.shiftParts parts.length).Maps (parts ++ parts.map (shiftParts parts.length)) ks ↔
    v.Maps parts ks := by
  have hview : ∀ v : Value, ((v.shiftParts parts.length).viewIn
      (parts ++ parts.map (shiftParts parts.length))).map?.isSome = (v.viewIn parts).map?.isSome := by
    intro v
    rw [viewIn_shiftParts]
    cases v.viewIn parts <;> rfl
  induction ks generalizing v with
  | nil => rw [Maps, Maps, hview]
  | cons k ks ih =>
    rw [Maps, Maps, hview, get?_shiftParts]
    refine and_congr_right fun _ => ?_
    cases v.get? parts k with
    | none => simp
    | some w => simpa using ih

end Value

namespace Document

theorem at?_copy (d : Document) (ks : List String) : d.copy.at? ks = (d.at? ks).map (shiftParts d.parts.length) :=
  Value.at?_shiftParts

theorem maps_copy : d.copy.Maps ks ↔ d.Maps ks :=
  Value.maps_shiftParts

theorem sound_copy (hd : d.Sound) : d.copy.Sound := by
  have hlength : d.copy.parts.length = d.parts.length + d.parts.length := by
    rw [copy, List.length_append, List.length_map]
  refine ⟨?_, fun v hv => ?_⟩
  · rw [hlength]
    exact Value.proper_shiftParts hd.value
  · rw [hlength]
    rcases List.mem_append.1 hv with hv | hv
    · exact ⟨Value.proper_mono (Nat.le_add_right ..) (hd.parts v hv).1, (hd.parts v hv).2⟩
    · obtain ⟨w, hw, rfl⟩ := List.mem_map.1 hv
      exact ⟨Value.proper_shiftParts (hd.parts w hw).1, Value.part?_mapParts (hd.parts w hw).2⟩

/-- A document with parts of others in front of its own, among which its own value does not stand. -/
structure Over (base : List Value) (d : Document) : Prop where
  sound : d.Sound
  parts : base <+: d.parts
  start : ∀ n ∈ d.value.part?, base.length ≤ n

theorem over_copy (hd : d.Sound) : d.copy.Over d.parts := by
  refine ⟨sound_copy hd, List.prefix_append .., fun n hn => ?_⟩
  rw [copy, Value.part?_shiftParts] at hn
  obtain ⟨i, -, rfl⟩ := Option.map_eq_some_iff.1 hn
  exact Nat.le_add_left ..

theorem over_copyOf (hd : d.Sound) (hv : v.Proper d.parts.length) : (copy ⟨v, d.parts⟩).Over d.parts :=
  have hsound : Document.Sound ⟨v, d.parts⟩ := ⟨hv, hd.parts⟩
  over_copy hsound

theorem over_set (hd : d.Over base) (hv : v.Proper d.parts.length) (key : Scalar) : (d.set key v).Over base := by
  have hsound := sound_set hd.sound hv key
  obtain ⟨-, heq⟩ | ⟨n, isMap, hvalue, heq⟩ := change_start_cases (·.set key v) d
  · refine ⟨hsound, ?_, ?_⟩
    · rw [set, heq]
      exact hd.parts
    · rw [set, heq]
      dsimp only
      rw [Value.part?_changeAt]
      exact hd.start
  · have hn : base.length ≤ n := hd.start n (by rw [hvalue]; rfl)
    refine ⟨hsound, ?_, ?_⟩
    · rw [set, heq, List.prefix_iff_getElem?]
      intro i hi
      rw [List.getElem?_modify, List.prefix_iff_getElem?.1 hd.parts i hi, Option.map_eq_map, Option.map_some,
        if_neg (by omega)]
    · rw [set, heq]
      exact hd.start

theorem view_before (h : d.view ((Mapping.valueOf? d.entries key').getD .null) = .map m) :
    ∃ own, d.view d.value = .map own ∧
      Mapping.valueOf? own key' = some ((Mapping.valueOf? d.entries key').getD .null) := by
  cases hvalue : Mapping.valueOf? d.entries key' with
  | none =>
    rw [hvalue] at h
    cases h
  | some before =>
    cases hown : (d.view d.value).map? with
    | none =>
      rw [entries, hown] at hvalue
      cases hvalue
    | some own =>
      rw [entries, hown] at hvalue
      exact ⟨own, Value.map?_eq_some.1 hown, hvalue⟩

theorem over_setBelow {below : Document} (hd : d.Over base) (hbelow : below.Over d.parts) (key : Scalar) :
    ({ d with parts := below.parts }.set key below.value).Over base := by
  have hlength := hbelow.parts.length_le
  obtain ⟨more, hmore⟩ := hbelow.parts
  have hvalue : Document.Over base { d with parts := below.parts } :=
    ⟨⟨Value.proper_mono hlength hd.sound.value, hbelow.sound.parts⟩, hd.parts.trans ⟨more, hmore⟩, hd.start⟩
  exact over_set hvalue hbelow.sound.value key

mutual

theorem over_mergeUnder (base : List Value) (d : Document) (hd : d.Over base) (key : Scalar) :
    (v : Value) → v.Proper 0 → (d.mergeUnder key v).Over base
  | .map es, hv => by
    rw [mergeUnder]
    dsimp only
    split
    · next hview =>
      obtain ⟨own, hown, hbefore⟩ := view_before hview
      have hproper : (Value.map own).Proper d.parts.length := by
        rw [← hown]
        exact Value.proper_viewIn hd.sound.proper_parts hd.sound.value
      -- what is merged into is a copy, whose own mapping stands behind all the parts that there were
      have hcopy := over_copyOf hd.sound (Value.proper_of_valueOf? hproper hbefore)
      exact over_setBelow hd (over_mergeAll _ _ hcopy es hv) key
    · exact over_set hd (Value.proper_mono (Nat.zero_le _) hv) key
  | .scalar _, hv | .list _, hv | .set _, hv | .pair _ _, hv | .part _ _, hv =>
    over_set hd (Value.proper_mono (Nat.zero_le _) hv) key

theorem over_mergeAll (base : List Value) (d : Document) (hd : d.Over base) :
    (es : Mapping) → (Value.map es).Proper 0 → (d.mergeAll es).Over base
  | [], _ => by rwa [mergeAll]
  | (k, v) :: es, hes => by
    obtain ⟨hnodup, hall⟩ := Value.proper_map_iff.1 hes
    rw [List.map_cons, List.nodup_cons] at hnodup
    rw [List.forall_mem_cons] at hall
    rw [mergeAll]
    exact over_mergeAll base _ (over_mergeUnder base d hd k v hall.1) es
      (Value.proper_map_iff.2 ⟨hnodup.2, hall.2⟩)

end

def below (d : Document) (key : String) (es : Mapping) : Document :=
  match d.value.get? d.parts key with
  | none => ⟨.map es, d.parts⟩
  | some before =>
    match d.view before with
    | .map _ => mergeAll (copy ⟨before, d.parts⟩) es
    | _ => ⟨.map es, d.parts⟩

theorem get?_value (d : Document) (key : String) : d.value.get? d.parts key = Mapping.get? d.entries key := by
  rw [Value.get?, entries, view]
  cases (d.value.viewIn d.parts).map? <;> rfl

theorem mergeUnder_map (d : Document) (key : String) (es : Mapping) :
    d.mergeUnder (.text key) (.map es) =
      { d with parts := (d.below key es).parts }.set (.text key) (d.below key es).value := by
  rw [mergeUnder, below, get?_value, Mapping.valueOf?_text]
  dsimp only
  cases Mapping.get? d.entries key with
  | none => rfl
  | some before =>
    dsimp only [Option.getD_some]
    cases d.view before <;> rfl

theorem over_below (hd : d.Sound) (hes : (Value.map es).Proper 0) (key : String) :
    (d.below key es).Over d.parts := by
  have hnew : Document.Over d.parts ⟨.map es, d.parts⟩ :=
    ⟨⟨Value.proper_mono (Nat.zero_le _) hes, hd.parts⟩, List.prefix_rfl, fun _ hn => by cases hn⟩
  unfold below
  split
  · exact hnew
  · next before hbefore =>
    split
    · have hcopy := over_copyOf hd (Value.proper_child hd.proper_parts hd.value hbefore)
      exact over_mergeAll _ _ hcopy es hes
    · exact hnew

theorem at?_mergeUnder_self (h : d.view d.value = .map m) (hd : d.Sound) (hes : (Value.map es).Proper 0)
    (hks : key ∉ ks) : (d.mergeUnder (.text key) (.map es)).at? (key :: ks) = (d.below key es).at? ks := by
  obtain ⟨more, hmore⟩ := (over_below hd hes key).parts
  rw [mergeUnder_map]
  refine at?_set_self (m := m) ?_ hks
  rw [← hmore]
  exact (Value.viewIn_append hd.value).trans h

theorem at?_mergeUnder_of_notMem (hd : d.Sound) (hes : (Value.map es).Proper 0) (h : key ∉ k :: ks) :
    (d.mergeUnder (.text key) (.map es)).at? (k :: ks) = d.at? (k :: ks) := by
  obtain ⟨more, hmore⟩ := (over_below hd hes key).parts
  rw [mergeUnder_map, at?_set_of_notMem h, ← hmore]
  exact Value.at?_append_parts hd.proper_parts hd.value

theorem maps_mergeUnder_self (h : d.view d.value = .map m) (hd : d.Sound) (hes : (Value.map es).Proper 0)
    (hks : key ∉ ks) (hbelow : (d.below key es).Maps ks) : (d.mergeUnder (.text key) (.map es)).Maps (key :: ks) := by
  obtain ⟨more, hmore⟩ := (over_below hd hes key).parts
  rw [mergeUnder_map]
  refine maps_set_self (m := m) ?_ hks hbelow
  rw [← hmore]
  exact (Value.viewIn_append hd.value).trans h

theorem maps_mergeUnder_of_notMem (hd : d.Sound) (hes : (Value.map es).Proper 0) (hks : key ∉ ks) (h : d.Maps ks) :
    (d.mergeUnder (.text key) (.map es)).Maps ks := by
  obtain ⟨more, hmore⟩ := (over_below hd hes key).parts
  rw [mergeUnder_map]
  refine maps_set_of_notMem hks ?_
  rw [Maps, ← hmore]
  exact (Value.maps_append_parts hd.proper_parts hd.value).2 h

/-! Entries that are scalars are merged by being set. -/

open Mapping (scalarEntries)

theorem isSome_view_mergeAll (h : d.Maps []) (es : List (Scalar × Scalar)) :
    (d.mergeAll (scalarEntries es)).Maps [] := by
  induction es generalizing d with
  | nil => rwa [scalarEntries, List.map_nil, mergeAll]
  | cons e es ih =>
    rw [scalarEntries, List.map_cons, mergeAll]
    exact ih (maps_change_start (fun _ hk => absurd hk List.not_mem_nil) h)

theorem at?_mergeAll (h : d.Maps []) {es : List (Scalar × Scalar)} (hes : (es.map (·.1)).Nodup) (k : String) :
    (d.mergeAll (scalarEntries es)).at? [k] = (Mapping.get? (scalarEntries es) k).or (d.at? [k]) := by
  induction es generalizing d with
  | nil => rw [scalarEntries, List.map_nil, mergeAll]; rfl
  | cons e es ih =>
    rw [List.map_cons, List.nodup_cons] at hes
    obtain ⟨m, hm⟩ := Option.isSome_iff_exists.1 h
    have hview : d.view d.value = .map m := Value.map?_eq_some.1 hm
    have hset : (d.set e.1 (.scalar e.2)).Maps [] :=
      maps_change_start (fun _ hk => absurd hk List.not_mem_nil) h
    rw [scalarEntries, List.map_cons, mergeAll, Mapping.get?_cons]
    change ((d.set e.1 (.scalar e.2)).mergeAll (scalarEntries es)).at? [k] = _
    rw [ih hset hes.2, at?_set_singleton hview]
    split
    · next hk =>
      have hnone : Mapping.get? (scalarEntries es) k = none := by
        refine Mapping.get?_eq_none ?_
        rw [scalarEntries, List.map_map, ← hk]
        exact hes.1
      rw [hnone]
      rfl
    · rfl

theorem at?_below (d : Document) {es : List (Scalar × Scalar)} (hes : (es.map (·.1)).Nodup) (k : String) :
    (d.below key (scalarEntries es)).at? [k] =
      (Mapping.get? (scalarEntries es) k).or ((d.at? [key, k]).map (shiftParts d.parts.length)) := by
  have hnew : at? ⟨.map (scalarEntries es), d.parts⟩ [k] = Mapping.get? (scalarEntries es) k :=
    Value.at?_singleton ..
  have hpath : d.at? [key, k] = (d.value.get? d.parts key).bind (Value.at? d.parts [k]) := rfl
  rw [hpath]
  unfold below
  cases d.value.get? d.parts key with
  | none => exact hnew.trans Option.or_none.symm
  | some before =>
    dsimp only
    rw [Option.bind_some]
    split
    · next hview =>
      have hbefore : (copy ⟨before, d.parts⟩).Maps [] := by
        refine maps_copy.2 ?_
        change (d.view before).map?.isSome
        rw [hview]
        rfl
      exact (at?_mergeAll hbefore hes k).trans (congrArg _ (at?_copy ⟨before, d.parts⟩ [k]))
    · next hview =>
      have hnone : before.get? d.parts k = none := by
        cases hmap : (before.viewIn d.parts).map? with
        | none => rw [Value.get?, hmap]; rfl
        | some m => exact absurd (Value.map?_eq_some.1 hmap) (hview m)
      rw [Value.at?_singleton, hnone]
      exact hnew.trans Option.or_none.symm

theorem isSome_view_below (d : Document) (key : String) (es : List (Scalar × Scalar)) :
    (d.below key (scalarEntries es)).Maps [] := by
  unfold below
  split
  · rfl
  · next before _ =>
    split
    · next hview =>
      refine isSome_view_mergeAll (maps_copy.2 ?_) es
      change (d.view before).map?.isSome
      rw [hview]
      rfl
    · rfl

end Document

end FeedOutline.Data
