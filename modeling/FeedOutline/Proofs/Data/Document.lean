import FeedOutline.Proofs.Data.Path
import Mathlib.Data.List.GetD

/-!
Documents with parts of their own. What their keys lead to after a change of their own mapping, and with the
parts in their places.
-/
namespace FeedOutline.Data

open Value (viewIn shiftParts changeAt mapParts mapPartsEntries)

/-- What can be told of every document: its mappings are proper, and no part stands as such in another's place. -/
structure Document.Sound (d : Document) : Prop where
  value : d.value.Proper d.parts.length
  parts : ∀ v ∈ d.parts, v.Proper d.parts.length ∧ v.part? = none

def Document.at? (d : Document) (ks : List String) : Option Value :=
  d.value.at? d.parts ks

/-- There are mappings on the way from the value of a document down some keys. -/
def Document.Maps (d : Document) (ks : List String) : Prop :=
  d.value.Maps d.parts ks

variable {parts more : List Value} {bound n : Nat} {m : Mapping} {k key : String}
  {ks : List String} {v w : Value} {d : Document} {f : Mapping → Mapping} {g : Nat → Bool → Value}

namespace Value

theorem map?_eq_some : v.map? = some m ↔ v = map m := by
  cases v <;> simp [map?]

theorem get?_eq_some : v.get? parts k = some w ↔ ∃ m, v.viewIn parts = map m ∧ Mapping.get? m k = some w := by
  simp only [get?, Option.bind_eq_some_iff, map?_eq_some]

theorem viewIn_part (n : Nat) (isMap : Bool) : (part n isMap).viewIn parts = (parts[n]?).getD (part n isMap) :=
  List.getD_eq_getElem?_getD ..

theorem viewIn_of_lt {isMap : Bool} (h : n < parts.length) : (part n isMap).viewIn parts = parts[n] := by
  rw [viewIn_part, List.getElem?_eq_getElem h, Option.getD_some]

theorem viewIn_of_le {isMap : Bool} (h : parts.length ≤ n) : (part n isMap).viewIn parts = part n isMap := by
  rw [viewIn_part, List.getElem?_eq_none h, Option.getD_none]

theorem proper_viewIn (hparts : ∀ v ∈ parts, v.Proper bound) (hv : v.Proper bound) :
    (v.viewIn parts).Proper bound := by
  cases v with
  | part n isMap =>
    by_cases hn : n < parts.length
    · rw [viewIn_of_lt hn]
      exact hparts _ (List.getElem_mem hn)
    · rwa [viewIn_of_le (Nat.le_of_not_lt hn)]
  | _ => exact hv

theorem proper_child (hparts : ∀ v ∈ parts, v.Proper bound) (hv : v.Proper bound) (h : v.get? parts k = some w) :
    w.Proper bound := by
  obtain ⟨m, hm, hw⟩ := get?_eq_some.1 h
  exact proper_get? (hm ▸ proper_viewIn hparts hv) hw

theorem viewIn_append (hv : v.Proper parts.length) : v.viewIn (parts ++ more) = v.viewIn parts := by
  cases v with
  | part n isMap =>
    have hn : n < parts.length := hv
    rw [viewIn_part, viewIn_part, List.getElem?_append_left hn]
  | _ => rfl

theorem at?_append_parts (hparts : ∀ v ∈ parts, v.Proper parts.length) (hv : v.Proper parts.length) :
    v.at? (parts ++ more) ks = v.at? parts ks := by
  induction ks generalizing v with
  | nil => rfl
  | cons k ks ih =>
    rw [at?, at?, get?, viewIn_append hv]
    exact Option.bind_congr fun w hw => ih (proper_child hparts hv hw)

theorem maps_append_parts (hparts : ∀ v ∈ parts, v.Proper parts.length) (hv : v.Proper parts.length) :
    v.Maps (parts ++ more) ks ↔ v.Maps parts ks := by
  induction ks generalizing v with
  | nil => rw [Maps, Maps, viewIn_append hv]
  | cons k ks ih =>
    have hget : v.get? (parts ++ more) k = v.get? parts k := by
      rw [get?, get?, viewIn_append hv]
    rw [Maps, Maps, viewIn_append hv, hget]
    exact and_congr_right fun _ => forall₂_congr fun w hw => ih (proper_child hparts hv hw)

theorem map?_mapParts (h : v.part? = none) : (v.mapParts g).map? = v.map?.map (mapPartsEntries g) := by
  cases v with
  | part n isMap => cases h
  | _ => rfl

theorem part?_mapParts (h : v.part? = none) : (v.mapParts g).part? = none := by
  cases v with
  | part n isMap => cases h
  | _ => rfl

/-! Changes. -/

theorem part?_changeAt : (v.changeAt f ks).part? = v.part? := by
  cases ks <;> cases v <;> rfl

theorem isSome_map?_changeAt : (v.changeAt f ks).map?.isSome = v.map?.isSome := by
  cases ks <;> cases v <;> rfl

theorem map?_changeAt_nil : (v.changeAt f []).map? = v.map?.map f := by
  cases v <;> rfl

theorem proper_changeAt (hf : ∀ m, (map m).Proper bound → (map (f m)).Proper bound) (hv : v.Proper bound) :
    (v.changeAt f ks).Proper bound := by
  induction ks generalizing v with
  | nil =>
    cases v with
    | map m => exact hf m hv
    | _ => exact hv
  | cons k ks ih =>
    cases v with
    | map m =>
      obtain ⟨hnodup, hall⟩ := proper_map_iff.1 hv
      rw [changeAt, proper_map_iff, Scalar.keys_map_if (· == .text k) (changeAt f ks)]
      refine ⟨hnodup, fun e he => ?_⟩
      obtain ⟨e', he', rfl⟩ := List.mem_map.1 he
      split
      · exact ih (hall e' he')
      · exact hall e' he'
    | _ => exact hv

theorem viewIn_modify {isMap : Bool} {i : Nat} : (part i isMap).viewIn (parts.modify n (changeAt f ks)) =
    if n = i then ((part i isMap).viewIn parts).changeAt f ks else (part i isMap).viewIn parts := by
  rw [viewIn_part, viewIn_part, List.getElem?_modify]
  cases parts[i]? with
  | none =>
    cases ks <;> simp [changeAt]
  | some v =>
    rw [Option.map_eq_map, Option.map_some, Option.getD_some, Option.getD_some]

theorem isSome_viewIn_modify :
    (v.viewIn (parts.modify n (changeAt f []))).map?.isSome = (v.viewIn parts).map?.isSome := by
  cases v with
  | part i isMap =>
    rw [viewIn_modify]
    split
    · rw [map?_changeAt_nil, Option.isSome_map]
    · rfl
  | _ => rfl

theorem viewIn_modify_of_ne (h : v.part? ≠ some n) : v.viewIn (parts.modify n (changeAt f ks)) = v.viewIn parts := by
  cases v with
  | part i isMap => rw [viewIn_modify, if_neg fun heq => h (congrArg some heq.symm)]
  | _ => rfl

theorem get?_modify_of_ne (h : v.part? ≠ some n) : v.get? (parts.modify n (changeAt f ks)) k = v.get? parts k := by
  rw [get?, get?, viewIn_modify_of_ne h]

theorem get?_modify (hf : ∀ m, Mapping.get? (f m) k = Mapping.get? m k) :
    v.get? (parts.modify n (changeAt f [])) k = v.get? parts k := by
  cases v with
  | part i isMap =>
    rw [get?, get?, viewIn_modify]
    split
    · rw [map?_changeAt_nil, Option.bind_map]
      exact Option.bind_congr fun m _ => hf m
    · rfl
  | _ => rfl

theorem at?_modify (hf : ∀ k ∈ ks, ∀ m, Mapping.get? (f m) k = Mapping.get? m k) :
    v.at? (parts.modify n (changeAt f [])) ks = v.at? parts ks := by
  induction ks generalizing v with
  | nil => rfl
  | cons k ks ih =>
    rw [List.forall_mem_cons] at hf
    rw [at?, at?, get?_modify hf.1]
    exact Option.bind_congr fun w _ => ih hf.2

theorem maps_modify (hf : ∀ k ∈ ks, ∀ m, Mapping.get? (f m) k = Mapping.get? m k) :
    v.Maps (parts.modify n (changeAt f [])) ks ↔ v.Maps parts ks := by
  induction ks generalizing v with
  | nil => rw [Maps, Maps, isSome_viewIn_modify]
  | cons k ks ih =>
    rw [List.forall_mem_cons] at hf
    rw [Maps, Maps, isSome_viewIn_modify, get?_modify hf.1]
    exact and_congr_right fun _ => forall₂_congr fun w _ => ih hf.2

end Value

namespace Document

theorem Sound.proper_parts (hd : d.Sound) : ∀ v ∈ d.parts, v.Proper d.parts.length :=
  fun v hv => (hd.parts v hv).1

theorem sound_empty : Document.empty.Sound :=
  ⟨Value.proper_map_iff.2 ⟨List.nodup_nil, fun _ he => absurd he List.not_mem_nil⟩,
    fun _ hv => absurd hv List.not_mem_nil⟩

theorem view_of_value (h : d.value = .map m) : d.view d.value = .map m := by
  rw [h]
  rfl

theorem entries_of_view (h : d.view d.value = .map m) : d.entries = m := by
  rw [entries, h]
  rfl

theorem at?_append (d : Document) (ks ls : List String) :
    d.at? (ks ++ ls) = (d.at? ks).bind (Value.at? d.parts ls) :=
  Value.at?_append ks ls d.value

theorem at?_cons_of_view (h : d.view d.value = .map m) (k : String) (ks : List String) :
    d.at? (k :: ks) = (Mapping.get? m k).bind (Value.at? d.parts ks) := by
  have hget : d.value.get? d.parts k = Mapping.get? m k := by
    rw [view] at h
    rw [Value.get?, h]
    rfl
  rw [at?, Value.at?, hget]

theorem placeOf_of_part? {here : Place} (h : v.part? = none) : placeOf here v = here := by
  cases v with
  | part n isMap => cases h
  | _ => rfl

/-! ### Changes -/

theorem change_none (f : Mapping → Mapping) (ks : List String) (d : Document) :
    d.change f ⟨none, ks⟩ = { d with value := d.value.changeAt f ks } :=
  rfl

theorem change_some (f : Mapping → Mapping) (ks : List String) (d : Document) (n : Nat) :
    d.change f ⟨some n, ks⟩ = { d with parts := d.parts.modify n (changeAt f ks) } :=
  rfl

theorem part?_value_change (f : Mapping → Mapping) (p : Place) (d : Document) :
    (d.change f p).value.part? = d.value.part? := by
  obtain ⟨_ | n, ks⟩ := p
  · exact Value.part?_changeAt
  · rfl

theorem sound_change {p : Place} (hd : d.Sound)
    (hf : ∀ m, (Value.map m).Proper d.parts.length → (Value.map (f m)).Proper d.parts.length) :
    (d.change f p).Sound := by
  obtain ⟨_ | n, ks⟩ := p
  · exact ⟨Value.proper_changeAt hf hd.value, hd.parts⟩
  · have hlength : (d.parts.modify n (changeAt f ks)).length = d.parts.length := List.length_modify ..
    refine ⟨?_, fun v hv => ?_⟩
    · rw [change_some, hlength]
      exact hd.value
    · obtain ⟨i, hi⟩ := List.mem_iff_getElem?.1 hv
      rw [change_some, List.getElem?_modify] at hi
      obtain ⟨w, hw, rfl⟩ := Option.map_eq_some_iff.1 hi
      have hpart := hd.parts w (List.mem_of_getElem? hw)
      rw [change_some, hlength]
      split
      · exact ⟨Value.proper_changeAt hf hpart.1, Value.part?_changeAt.trans hpart.2⟩
      · exact hpart

theorem sound_set (hd : d.Sound) (hv : v.Proper d.parts.length) (key : Scalar) : (d.set key v).Sound :=
  sound_change hd fun _ hm => Value.proper_set hm hv key

theorem change_start_cases (f : Mapping → Mapping) (d : Document) :
    d.value.part? = none ∧ d.change f d.start = { d with value := d.value.changeAt f [] } ∨
      ∃ n isMap, d.value = .part n isMap ∧
        d.change f d.start = { d with parts := d.parts.modify n (changeAt f []) } := by
  obtain ⟨v, parts⟩ := d
  cases v with
  | part n isMap => exact .inr ⟨n, isMap, rfl, rfl⟩
  | _ => exact .inl ⟨rfl, rfl⟩

theorem view_change_start (h : d.view d.value = .map m) :
    (d.change f d.start).view (d.change f d.start).value = .map (f m) := by
  obtain ⟨hpart, heq⟩ | ⟨n, isMap, hvalue, heq⟩ := change_start_cases f d
  · rw [view, Value.viewIn_of_part? hpart] at h
    rw [heq, h]
    rfl
  · rw [view, hvalue] at h
    rw [heq, view, hvalue, Value.viewIn_modify, if_pos rfl, h]
    rfl

theorem at?_change_start (k : String) (ks : List String)
    (hf : ∀ name ∈ k :: ks, ∀ m, Mapping.get? (f m) name = Mapping.get? m name) :
    (d.change f d.start).at? (k :: ks) = d.at? (k :: ks) := by
  obtain ⟨hpart, heq⟩ | ⟨n, isMap, hvalue, heq⟩ := change_start_cases f d
  · rw [List.forall_mem_cons] at hf
    rw [heq]
    cases hmap : d.value.map? with
    | none =>
      have hsame : d.value.changeAt f [] = d.value := by
        obtain ⟨v, parts⟩ := d
        cases v with
        | map m => cases hmap
        | _ => rfl
      rw [hsame]
    | some m =>
      have hvalue := Value.map?_eq_some.1 hmap
      have hview : d.view d.value = .map m := (Value.viewIn_of_part? hpart).trans hvalue
      rw [at?_cons_of_view hview, at?_cons_of_view (m := f m) (by rw [hvalue]; rfl), hf.1]
  · rw [heq]
    exact Value.at?_modify hf

theorem maps_change_start (hf : ∀ name ∈ ks, ∀ m, Mapping.get? (f m) name = Mapping.get? m name) (h : d.Maps ks) :
    (d.change f d.start).Maps ks := by
  obtain ⟨hpart, heq⟩ | ⟨n, isMap, hvalue, heq⟩ := change_start_cases f d
  · obtain ⟨m, hm⟩ := Option.isSome_iff_exists.1 (Value.isSome_of_maps h)
    have hvalue : d.value = .map m := (Value.viewIn_of_part? hpart).symm.trans (Value.map?_eq_some.1 hm)
    rw [Maps, hvalue] at h
    rw [Maps, heq, hvalue]
    cases ks with
    | nil => rfl
    | cons k ks =>
      refine ⟨rfl, fun w hw => h.2 w ?_⟩
      exact (hf k (List.mem_cons_self ..) m).symm.trans hw
  · rw [heq]
    exact (Value.maps_modify hf).2 h

theorem at?_change_start_of_ne (k' : String) (ks : List String) (hk : ∀ m, Mapping.get? (f m) k = Mapping.get? m k)
    (hne : ∀ w ∈ d.at? [k], ¬ d.value.SamePart w)
    (hks : ∀ name ∈ ks, ∀ m, Mapping.get? (f m) name = Mapping.get? m name) :
    (d.change f d.start).at? (k :: k' :: ks) = d.at? (k :: k' :: ks) := by
  rw [at?, Value.at?_singleton] at hne
  have hvalue := at?_change_start (d := d) k [] fun name hname => by
    rw [List.mem_singleton.1 hname]
    exact hk
  rw [at?, at?, Value.at?_singleton, Value.at?_singleton] at hvalue
  rw [at?, at?, Value.at?, Value.at?, hvalue]
  refine Option.bind_congr fun w hw => ?_
  -- the second key is looked up in a mapping that is not changed, as it is not the one at the start
  obtain ⟨-, heq⟩ | ⟨n, isMap, hpart, heq⟩ := change_start_cases f d
  · rw [heq]
  · have hw' : w.part? ≠ some n := fun hn =>
      hne w hw (Value.samePart_iff.2 ⟨n, by rw [hpart]; rfl, hn⟩)
    rw [heq, Value.at?, Value.at?, Value.get?_modify_of_ne hw']
    exact Option.bind_congr fun w' _ => Value.at?_modify hks

theorem maps_change_start_of_ne {k' : String} (hk : ∀ m, Mapping.get? (f m) k = Mapping.get? m k)
    (hne : ∀ w ∈ d.at? [k], ¬ d.value.SamePart w) (h : d.Maps [k, k']) :
    (d.change f d.start).Maps [k, k'] := by
  have hfirst : (d.change f d.start).Maps [k] := by
    refine maps_change_start (fun name hname => ?_) ((Value.maps_append_singleton [k] k').1 h).1
    rw [List.mem_singleton.1 hname]
    exact hk
  refine (Value.maps_append_singleton [k] k').2 ⟨hfirst, fun w hw => ?_⟩
  have hat : (d.change f d.start).at? [k, k'] = some w := hw
  rw [at?_change_start_of_ne k' [] hk hne fun _ hname => absurd hname List.not_mem_nil] at hat
  have hmap := ((Value.maps_append_singleton [k] k').1 h).2 w hat
  obtain ⟨-, heq⟩ | ⟨n, isMap, -, heq⟩ := change_start_cases f d
  · rw [heq]
    exact hmap
  · rw [heq]
    exact Value.isSome_viewIn_modify.trans hmap

theorem at?_set_singleton (h : d.view d.value = .map m) (key : Scalar) (v : Value) (k : String) :
    (d.set key v).at? [k] = if key = .text k then some v else d.at? [k] := by
  rw [set, at?_cons_of_view (view_change_start h), at?_cons_of_view h, Mapping.get?_set]
  split
  · rfl
  · rfl

theorem get?_set_of_notMem (hks : key ∉ ks) (v : Value) :
    ∀ name ∈ ks, ∀ m, Mapping.get? (m.set (.text key) v) name = Mapping.get? m name := by
  intro name hname m
  rw [Mapping.get?_set, if_neg]
  rintro ⟨⟩
  exact hks hname

theorem at?_set_self (h : d.view d.value = .map m) (hks : key ∉ ks) :
    (d.set (.text key) v).at? (key :: ks) = v.at? d.parts ks := by
  have hview := view_change_start (f := (·.set (.text key) v)) h
  have hget : Mapping.get? (m.set (.text key) v) key = some v := by
    rw [Mapping.get?_set, if_pos rfl]
  rw [set, at?_cons_of_view hview, hget, Option.bind_some]
  obtain ⟨-, heq⟩ | ⟨n, isMap, -, heq⟩ := change_start_cases (·.set (.text key) v) d
  · rw [heq]
  · rw [heq]
    exact Value.at?_modify (get?_set_of_notMem hks v)

theorem at?_set_of_ne (hvalue : d.value = .map m) (h : k ≠ key) (v : Value) (ks : List String) :
    (d.set (.text key) v).at? (k :: ks) = d.at? (k :: ks) := by
  have hset : d.set (.text key) v = { d with value := .map (m.set (.text key) v) } := by
    obtain ⟨value, parts⟩ := d
    cases hvalue
    rfl
  rw [hset, at?, at?, hvalue, Value.at?, Value.at?, Value.get?_map, Value.get?_map, Mapping.get?_set, if_neg]
  rintro ⟨⟩
  exact h rfl

theorem maps_set_self (h : d.view d.value = .map m) (hks : key ∉ ks) (hv : v.Maps d.parts ks) :
    (d.set (.text key) v).Maps (key :: ks) := by
  have hview := view_change_start (f := (·.set (.text key) v)) h
  refine ⟨?_, fun w hw => ?_⟩
  · rw [view] at hview
    rw [set, hview]
    rfl
  · rw [← Value.at?_singleton] at hw
    have hget := at?_set_self (v := v) h (List.not_mem_nil (a := key))
    cases hget.symm.trans hw
    obtain ⟨-, heq⟩ | ⟨n, isMap, -, heq⟩ := change_start_cases (·.set (.text key) v) d
    · rw [set, heq]
      exact hv
    · rw [set, heq]
      exact (Value.maps_modify (get?_set_of_notMem hks v)).2 hv

theorem maps_set_of_notMem (hks : key ∉ ks) (h : d.Maps ks) : (d.set (.text key) v).Maps ks :=
  maps_change_start (get?_set_of_notMem hks v) h

theorem at?_set_of_notMem (h : key ∉ k :: ks) : (d.set (.text key) v).at? (k :: ks) = d.at? (k :: ks) :=
  at?_change_start k ks (get?_set_of_notMem h v)

/-! ### Parts put in their places -/

theorem expand_part {isMap : Bool} (hn : n < d.parts.length) (depth : Nat) :
    d.expand (depth + 1) (.part n isMap) = d.expand depth d.parts[n] := by
  rw [expand, mapParts, view, Value.viewIn_of_lt hn]

theorem exists_get?_expand (hd : d.Sound) (hv : v.Proper d.parts.length) (depth : Nat) :
    ∃ depth' ≥ depth, ∀ k,
      (d.expand (depth + 2) v).get? [] k = (v.get? d.parts k).map (d.expand (depth' + 1)) := by
  have hview : ∀ depth, ∀ v : Value, v.part? = none →
      ∀ k, (d.expand (depth + 1) v).get? [] k = (v.get? d.parts k).map (d.expand (depth + 1)) := by
    intro depth v hpart k
    rw [Value.get?, Value.viewIn_nil, expand, Value.map?_mapParts hpart, Value.get?, Value.viewIn_of_part? hpart]
    cases v.map? with
    | none => rfl
    | some m => exact Value.get?_mapPartsEntries _ m k
  cases v with
  | part n isMap =>
    have hn : n < d.parts.length := hv
    have hpart := (hd.parts d.parts[n] (List.getElem_mem hn)).2
    refine ⟨depth, Nat.le_refl _, fun k => ?_⟩
    rw [expand_part hn, hview depth _ hpart, Value.get?, Value.viewIn_of_part? hpart, Value.get?, Value.viewIn_of_lt hn]
  | _ => exact ⟨depth + 1, Nat.le_succ _, hview (depth + 1) _ rfl⟩

theorem at?_expand (hd : d.Sound) (hv : v.Proper d.parts.length) (hplain : ∀ w ∈ v.at? d.parts ks, w.isPlain)
    {depth : Nat} (hdepth : ks.length ≤ depth) : (d.expand (depth + 1) v).at? [] ks = v.at? d.parts ks := by
  induction ks generalizing v depth with
  | nil =>
    rw [Value.at?, Value.at?, expand, Value.mapParts_of_isPlain _ v (hplain v rfl)]
  | cons k ks ih =>
    obtain ⟨depth, rfl⟩ := Nat.exists_eq_succ_of_ne_zero (n := depth) (by rw [List.length_cons] at hdepth; omega)
    obtain ⟨depth', hle, hget⟩ := exists_get?_expand hd hv depth
    rw [Value.at?, Value.at?] at *
    rw [hget]
    cases hw : v.get? d.parts k with
    | none => rfl
    | some w =>
      rw [hw, Option.bind_some] at hplain
      rw [Option.map_some, Option.bind_some, Option.bind_some]
      exact ih (Value.proper_child hd.proper_parts hv hw) hplain (by rw [List.length_cons] at hdepth; omega)

theorem maps_expand (hd : d.Sound) (hv : v.Proper d.parts.length) (h : v.Maps d.parts ks) {depth : Nat}
    (hdepth : ks.length ≤ depth) : (d.expand (depth + 2) v).Maps [] ks := by
  have hmap : ∀ depth, ∀ v : Value, v.part? = none → v.map?.isSome →
      ((d.expand (depth + 1) v).viewIn []).map?.isSome := by
    intro depth v hpart hisSome
    rwa [Value.viewIn_nil, expand, Value.map?_mapParts hpart, Option.isSome_map]
  have hview : ∀ depth, ∀ v : Value, v.Proper d.parts.length → (v.viewIn d.parts).map?.isSome →
      ((d.expand (depth + 2) v).viewIn []).map?.isSome := by
    intro depth v hv hisSome
    cases v with
    | part n isMap =>
      have hn : n < d.parts.length := hv
      rw [Value.viewIn_of_lt hn] at hisSome
      rw [expand_part hn]
      exact hmap depth _ (hd.parts _ (List.getElem_mem hn)).2 hisSome
    | _ => exact hmap (depth + 1) _ rfl hisSome
  induction ks generalizing v depth with
  | nil => exact hview depth v hv h
  | cons k ks ih =>
    refine ⟨hview depth v hv h.1, fun w hw => ?_⟩
    obtain ⟨depth', hle, hget⟩ := exists_get?_expand hd hv depth
    rw [hget] at hw
    obtain ⟨w', hw', rfl⟩ := Option.map_eq_some_iff.1 hw
    obtain ⟨depth', rfl⟩ := Nat.exists_eq_succ_of_ne_zero (n := depth') (by rw [List.length_cons] at hdepth; omega)
    exact ih (Value.proper_child hd.proper_parts hv hw') (h.2 w' hw') (by rw [List.length_cons] at hdepth; omega)

theorem proper_expand (hd : d.Sound) (hv : v.Proper d.parts.length) (depth : Nat) :
    (d.expand depth v).Proper d.parts.length := by
  induction depth generalizing v with
  | zero => exact hv
  | succ depth ih =>
    rw [expand]
    refine Value.proper_mapParts (fun n hn isMap => ih ?_) hv
    exact Value.proper_viewIn (v := .part n isMap) hd.proper_parts hn

theorem proper_expandOnce (hd : d.Sound) (hv : v.Proper d.parts.length) (depth : Nat) (within : List Nat) :
    (d.expandOnce depth within v).Proper d.parts.length := by
  induction depth generalizing v within with
  | zero => exact hv
  | succ depth ih =>
    rw [expandOnce]
    refine Value.proper_mapParts (fun n hn isMap => ?_) hv
    split
    · exact hn
    · exact ih (Value.proper_viewIn (v := .part n isMap) hd.proper_parts hn) _

end Document

end FeedOutline.Data
