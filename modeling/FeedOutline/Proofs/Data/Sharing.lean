import FeedOutline.Proofs.Data.Key
import FeedOutline.Proofs.Data.Place

/-!
Which parts of a document stand in a value, be it within other parts, and which mappings stand nowhere else. A
change of a part does not show in a value in which it does not stand. So a change of what stands under a key shows
under that key only, if the mapping there and the document's own stand alone; and a change that adds no parts leaves
them so.
-/
namespace FeedOutline.Data

open Value (mapParts mapPartsAll mapPartsEntries changeAt)

namespace Value

mutual

def numbers : Value → List Nat
  | list items => numbersAll items
  | map es => numbersEntries es
  | pair a b => a.numbers ++ b.numbers
  | part n _ => [n]
  | scalar _ | set _ => []

def numbersAll : List Value → List Nat
  | [] => []
  | v :: vs => v.numbers ++ numbersAll vs

def numbersEntries : Mapping → List Nat
  | [] => []
  | (_, v) :: es => v.numbers ++ numbersEntries es

end

variable {f g : Nat → Bool → Value} {m es : Mapping} {v w : Value} {n : Nat} {key : String}

mutual

theorem mapParts_congr : (v : Value) → (∀ n ∈ v.numbers, ∀ isMap, f n isMap = g n isMap) →
    v.mapParts f = v.mapParts g
  | scalar _, _ | set _, _ => rfl
  | list items, h => congrArg list (mapPartsAll_congr items h)
  | map es, h => congrArg map (mapPartsEntries_congr es h)
  | pair a b, h => by
    rw [numbers, List.forall_mem_append] at h
    rw [mapParts, mapParts, mapParts_congr a h.1, mapParts_congr b h.2]
  | part n isMap, h => h n (List.mem_singleton_self n) isMap

theorem mapPartsAll_congr : (vs : List Value) → (∀ n ∈ numbersAll vs, ∀ isMap, f n isMap = g n isMap) →
    mapPartsAll f vs = mapPartsAll g vs
  | [], _ => rfl
  | v :: vs, h => by
    rw [numbersAll, List.forall_mem_append] at h
    rw [mapPartsAll, mapPartsAll, mapParts_congr v h.1, mapPartsAll_congr vs h.2]

theorem mapPartsEntries_congr : (es : Mapping) → (∀ n ∈ numbersEntries es, ∀ isMap, f n isMap = g n isMap) →
    mapPartsEntries f es = mapPartsEntries g es
  | [], _ => rfl
  | (k, v) :: es, h => by
    rw [numbersEntries, List.forall_mem_append] at h
    rw [mapPartsEntries, mapPartsEntries, mapParts_congr v h.1, mapPartsEntries_congr es h.2]

end

mutual

theorem numbers_of_isPlain : (v : Value) → v.isPlain → v.numbers = []
  | scalar _, _ | set _, _ => rfl
  | list items, h => numbersAll_of_allPlain items h
  | map es, h => numbersEntries_of_entriesPlain es h
  | pair a b, h => by
    rw [isPlain, Bool.and_eq_true] at h
    rw [numbers, numbers_of_isPlain a h.1, numbers_of_isPlain b h.2, List.append_nil]

theorem numbersAll_of_allPlain : (vs : List Value) → allPlain vs → numbersAll vs = []
  | [], _ => rfl
  | v :: vs, h => by
    rw [allPlain, Bool.and_eq_true] at h
    rw [numbersAll, numbers_of_isPlain v h.1, numbersAll_of_allPlain vs h.2, List.append_nil]

theorem numbersEntries_of_entriesPlain : (es : Mapping) → entriesPlain es → numbersEntries es = []
  | [], _ => rfl
  | (k, v) :: es, h => by
    rw [entriesPlain, Bool.and_eq_true] at h
    rw [numbersEntries, numbers_of_isPlain v h.1, numbersEntries_of_entriesPlain es h.2, List.append_nil]

end

theorem mem_numbers_map : n ∈ (map es).numbers ↔ ∃ e ∈ es, n ∈ e.2.numbers := by
  rw [numbers]
  induction es with
  | nil => simp [numbersEntries]
  | cons e es ih => simp [numbersEntries, ih]

theorem numbers_subset (h : ∀ e ∈ es, e.2.numbers ⊆ w.numbers) : (map es).numbers ⊆ w.numbers := by
  intro n hn
  obtain ⟨e, he, hn⟩ := mem_numbers_map.1 hn
  exact h e he hn

theorem numbers_subset_of_mem {e : Scalar × Value} (he : e ∈ es) : e.2.numbers ⊆ (map es).numbers :=
  fun _ hn => mem_numbers_map.2 ⟨e, he, hn⟩

theorem mem_numbers_of_part? (h : v.part? = some n) : n ∈ v.numbers := by
  cases v with
  | part i isMap => exact List.mem_singleton.2 (Option.some.inj h).symm
  | _ => cases h

theorem numbers_set_subset (hv : v.numbers ⊆ (map m).numbers) (k : Scalar) :
    (map (m.set k v)).numbers ⊆ (map m).numbers := by
  refine numbers_subset fun e he => ?_
  rcases Mapping.mem_of_mem_set he with he | heq
  · exact numbers_subset_of_mem he
  · rw [heq]
    exact hv

end Value

namespace Document

/-- A part stands in a value, or in another part that does. -/
inductive Reaches (d : Document) (n : Nat) : Value → Prop
  | here {v} : n ∈ v.numbers → Reaches d n v
  | within {v i w} : i ∈ v.numbers → d.parts[i]? = some w → Reaches d n w → Reaches d n v

variable {d d' : Document} {v w : Value} {n : Nat} {m es : Mapping}

theorem Reaches.of_subset (h : d.Reaches n v) (hsub : v.numbers ⊆ w.numbers) : d.Reaches n w := by
  cases h with
  | here hn => exact .here (hsub hn)
  | within hi hpart h => exact .within (hsub hi) hpart h

/-- Every part of the one document holds no other parts than it does in the other. -/
def Thinner (d' d : Document) : Prop :=
  ∀ (i : Nat) (w' : Value), d'.parts[i]? = some w' → ∃ w : Value, d.parts[i]? = some w ∧ w'.numbers ⊆ w.numbers

theorem Reaches.of_thinner (h : d'.Reaches n v) (hd : d'.Thinner d) : d.Reaches n v := by
  induction h with
  | here hn => exact .here hn
  | within hi hpart _ ih =>
    obtain ⟨w, hw, hsub⟩ := hd _ _ hpart
    exact .within hi hw (ih.of_subset hsub)

/-- Parts of which some hold no others than those lead to no others. -/
theorem not_reaches {R : Nat → Prop} (hv : ∀ i ∈ v.numbers, R i)
    (hparts : ∀ i w, R i → d.parts[i]? = some w → ∀ j ∈ w.numbers, R j) (hn : ¬ R n) : ¬ d.Reaches n v := by
  intro h
  induction h with
  | here hi => exact hn (hv _ hi)
  | within hi hpart _ ih => exact ih (hparts _ _ (hv _ hi) hpart)

theorem expand_of_not_reaches (h : ∀ i, d'.parts[i]? ≠ d.parts[i]? → ¬ d.Reaches i v) (depth : Nat) :
    d'.expand depth v = d.expand depth v := by
  induction depth generalizing v with
  | zero => rfl
  | succ depth ih =>
    rw [expand, expand]
    refine Value.mapParts_congr v fun i hi isMap => ?_
    have hsame : d'.parts[i]? = d.parts[i]? := Classical.not_not.1 fun hne => h i hne (.here hi)
    rw [view, view, Value.viewIn_part, Value.viewIn_part, hsame]
    -- what is reached from the part `i` is reached from `v` through it
    refine ih fun j hj hreach => h j hj ?_
    cases hpart : d.parts[i]? with
    | none =>
      rw [hpart, Option.getD_none] at hreach
      exact hreach.of_subset fun j hj => List.mem_singleton.1 hj ▸ hi
    | some w =>
      rw [hpart, Option.getD_some] at hreach
      exact .within hi hpart hreach

/-! Mappings with the parts in their places. -/

theorem expand_map (depth : Nat) (es : Mapping) :
    d.expand depth (.map es) = .map (es.map fun e => (e.1, d.expand depth e.2)) := by
  cases depth with
  | zero =>
    rw [expand]
    exact congrArg _ (List.map_id' es).symm
  | succ depth =>
    rw [expand, mapParts, Value.mapPartsEntries_eq]
    rfl

/-- How deep parts are put in their places inside of a value; a value that is itself a part takes one step. -/
def depthIn (v : Value) (depth : Nat) : Nat :=
  if v.part?.isSome then depth else depth + 1

theorem expand_of_isPlain (h : v.isPlain) (d : Document) (depth : Nat) : d.expand depth v = v := by
  cases depth with
  | zero => rfl
  | succ depth => exact Value.mapParts_of_isPlain _ _ h

theorem map?_expand (hd : d.Sound) (hv : v.Proper d.parts.length) (depth : Nat) :
    (d.expand (depth + 1) v).map? =
      (d.view v).map?.map fun es => es.map fun e => (e.1, d.expand (depthIn v depth) e.2) := by
  have hview (depth : Nat) (v : Value) (hpart : v.part? = none) : (d.expand depth v).map? =
      v.map?.map fun es => es.map fun e => (e.1, d.expand depth e.2) := by
    cases v with
    | map es => rw [expand_map]; rfl
    | part n isMap => cases hpart
    | _ => cases depth <;> rfl
  cases v with
  | part n isMap =>
    have hn : n < d.parts.length := hv
    rw [expand_part hn, hview _ _ (hd.parts _ (List.getElem_mem hn)).2, view, Value.viewIn_of_lt hn]
    rfl
  | _ => exact hview (depth + 1) _ rfl

def expanded (d : Document) (depth : Nat) : Mapping :=
  d.entries.map fun e => (e.1, d.expand depth e.2)

theorem expand_value (hd : d.Sound) (hm : d.view d.value = .map m) (depth : Nat) :
    d.expand (depth + 1) d.value = .map (d.expanded (depthIn d.value depth)) := by
  refine Value.map?_eq_some.1 ?_
  rw [map?_expand hd hd.value, hm, expanded, entries_of_view hm]
  rfl

/-! Changes of the document's own mapping, and of one part. -/

theorem entries_set (hm : d.view d.value = .map m) (k : Scalar) (v : Value) : (d.set k v).entries = m.set k v :=
  entries_of_view (view_change_start hm)

theorem getElem?_parts_set (k : Scalar) (v : Value) {i : Nat} (h : d.value.part? ≠ some i) :
    (d.set k v).parts[i]? = d.parts[i]? := by
  obtain ⟨-, heq⟩ | ⟨n, isMap, hvalue, heq⟩ := change_start_cases (·.set k v) d
  · rw [set, heq]
  · rw [hvalue] at h
    rw [set, heq]
    exact List.getElem?_modify_ne _ _ fun hn => h (congrArg some hn)

theorem view_set (k : Scalar) (w : Value) (h : v.part? = some n) (hne : d.value.part? ≠ some n) :
    (d.set k w).view v = d.view v := by
  cases v with
  | part i isMap =>
    cases h
    rw [view, view, Value.viewIn_part, Value.viewIn_part, getElem?_parts_set k w hne]
  | _ => cases h

theorem expand_set (hroot : ∀ n, d.value.part? = some n → ¬ d.Reaches n (.map m)) (k : Scalar) (v : Value)
    (hw : w.numbers ⊆ (Value.map m).numbers) (depth : Nat) : (d.set k v).expand depth w = d.expand depth w := by
  refine expand_of_not_reaches (fun i hi hreach => ?_) depth
  have hpart : d.value.part? = some i := Classical.not_not.1 fun h => hi (getElem?_parts_set k v h)
  exact hroot i hpart (hreach.of_subset hw)

theorem expanded_set (hm : d.view d.value = .map m) (hroot : ∀ n, d.value.part? = some n → ¬ d.Reaches n (.map m))
    (k : Scalar) (v : Value) (depth : Nat) :
    (d.set k v).expanded depth = (d.expanded depth).set k ((d.set k v).expand depth v) := by
  rw [expanded, entries_set hm, Mapping.map_values_set, expanded, entries_of_view hm]
  refine congrArg (Mapping.set · k _) (List.map_congr_left fun e he => congrArg _ ?_)
  exact expand_set hroot k v (Value.numbers_subset_of_mem he) depth

theorem expand_change_part {ks : List String} {f : Mapping → Mapping} (h : ¬ d.Reaches n v) (depth : Nat) :
    (d.change f ⟨some n, ks⟩).expand depth v = d.expand depth v := by
  refine expand_of_not_reaches (fun i hi hreach => ?_) depth
  have hin : n = i := Classical.not_not.1 fun hne => hi (List.getElem?_modify_ne _ _ hne)
  exact h (hin ▸ hreach)

theorem view_change_part {ks : List String} {f : Mapping → Mapping} (h : v.part? ≠ some n) :
    (d.change f ⟨some n, ks⟩).view v = d.view v :=
  Value.viewIn_modify_of_ne h

theorem view_change_self {f : Mapping → Mapping} (h : v.part? = some n) :
    (d.change f ⟨some n, []⟩).view v = (d.view v).changeAt f [] := by
  cases v with
  | part i isMap =>
    cases h
    rw [view, change_some, Value.viewIn_modify, if_pos rfl, view]
  | _ => cases h

theorem expand_of_part? (h : v.part? = some n) (depth : Nat) :
    d.expand (depth + 1) v = d.expand depth (d.view v) := by
  cases v with
  | part i isMap => rfl
  | _ => cases h

theorem thinner_change_part {f : Mapping → Mapping}
    (hf : ∀ m, d.parts[n]? = some (.map m) → (Value.map (f m)).numbers ⊆ (Value.map m).numbers) :
    (d.change f ⟨some n, []⟩).Thinner d := by
  intro i w' h
  rw [change_some, List.getElem?_modify] at h
  obtain ⟨w, hw, rfl⟩ := Option.map_eq_some_iff.1 h
  refine ⟨w, hw, ?_⟩
  split
  · next hn =>
    cases w with
    | map m => exact hf m (hn ▸ hw)
    | _ => exact fun _ hi => hi
  · exact fun _ hi => hi

theorem thinner_set (hm : d.view d.value = .map m) (hv : v.numbers ⊆ (Value.map m).numbers) (k : Scalar) :
    (d.set k v).Thinner d := by
  obtain ⟨-, heq⟩ | ⟨n, isMap, hvalue, heq⟩ := change_start_cases (·.set k v) d
  · rw [set, heq]
    exact fun i w' h => ⟨w', h, fun _ hi => hi⟩
  · rw [set, heq, ← change_some]
    refine thinner_change_part fun m' hm' => ?_
    rw [view, hvalue, Value.viewIn_part, hm', Option.getD_some] at hm
    cases hm
    exact Value.numbers_set_subset hv k

end Document

/-! Mappings that stand alone. -/

/-- The mapping of a document does not stand in itself, and the mappings under some keys stand neither in
themselves nor under other keys. -/
structure Document.Alone (d : Document) (P : String → Prop) : Prop where
  root : ∀ n, d.value.part? = some n → ¬ d.Reaches n (.map d.entries)
  entry : ∀ name, P name → ∀ v n es, d.entries.get? name = some v → v.part? = some n → d.view v = .map es →
    ¬ d.Reaches n (.map (d.entries.erase name)) ∧ ¬ d.Reaches n (.map es)

variable {d : Document} {m es : Mapping} {v w : Value} {name : String} {P : String → Prop} {f : Mapping → Mapping}
  {n depth : Nat}

theorem Value.changeAt_singleton (hnodup : (m.map (·.1)).Nodup) (hget : m.get? name = some (.map es)) :
    (Value.map m).changeAt f [name] = .map (m.put name (.map (f es))) := by
  have hvalue := hget
  rw [← Mapping.valueOf?_text] at hvalue
  rw [changeAt, Mapping.put, Mapping.set_of_some hvalue]
  refine congrArg _ (List.map_congr_left fun e he => ?_)
  by_cases hkey : e.1 = .text name
  · rw [Mapping.eq_of_mem_of_get? hnodup hget he hkey]
    simp [hkey, changeAt, Scalar.sameKey_refl]
  · simp [hkey, Scalar.sameKey_text]

namespace Document

theorem proper_of_view (hd : d.Sound) (hm : d.view d.value = .map m) : (Value.map m).Proper d.parts.length := by
  rw [← hm]
  exact Value.proper_viewIn hd.proper_parts hd.value

theorem change_under_start (hm : d.view d.value = .map m) (hnodup : (m.map (·.1)).Nodup)
    (hget : m.get? name = some (.map es)) : d.change f (d.start.under name) = d.set (.text name) (.map (f es)) := by
  obtain ⟨value, parts⟩ := d
  cases value with
  | map m' =>
    cases hm
    exact congrArg (Document.mk · parts) (Value.changeAt_singleton hnodup hget)
  | part r isMap =>
    have hpart : parts[r]? = some (.map m) := by
      rw [view, Value.viewIn_part] at hm
      cases hget : parts[r]? with
      | none => simp [hget] at hm
      | some w => simpa [hget] using hm
    have hparts : parts.modify r (changeAt f [name]) =
        parts.modify r (changeAt (·.set (.text name) (.map (f es))) []) := by
      refine List.ext_getElem? fun i => ?_
      rw [List.getElem?_modify, List.getElem?_modify]
      split
      · next hi =>
        rw [← hi, hpart]
        exact congrArg some (Value.changeAt_singleton hnodup hget)
      · rfl
    exact congrArg (Document.mk _) hparts
  | _ => cases hm

/-! What stands alone. -/

theorem Alone.root_of_view (halone : d.Alone P) (hm : d.view d.value = .map m) :
    ∀ n, d.value.part? = some n → ¬ d.Reaches n (.map m) := by
  have hroot := halone.root
  rwa [entries_of_view hm] at hroot

theorem Alone.entry_of_view (halone : d.Alone P) (hm : d.view d.value = .map m) (hP : P name)
    (hget : m.get? name = some v) (hpart : v.part? = some n) (hview : d.view v = .map es) :
    ¬ d.Reaches n (.map (m.erase name)) ∧ ¬ d.Reaches n (.map es) := by
  have hentry := halone.entry name hP v n es
  rw [entries_of_view hm] at hentry
  exact hentry hget hpart hview

theorem Alone.ne_root (halone : d.Alone P) (hm : d.view d.value = .map m) (hget : m.get? name = some v)
    (hpart : v.part? = some n) : d.value.part? ≠ some n := fun hroot =>
  halone.root_of_view hm n hroot (.here (Value.mem_numbers_map.2
    ⟨_, Mapping.mem_of_get? hget, Value.mem_numbers_of_part? hpart⟩))

theorem Alone.set (halone : d.Alone P) (hm : d.view d.value = .map m) (hw : w.part? = none)
    (hnumbers : ∀ i ∈ w.numbers, ∃ e ∈ m, e.1 = .text name ∧ i ∈ e.2.numbers) :
    (d.set (.text name) w).Alone P := by
  have hsub : w.numbers ⊆ (Value.map m).numbers := by
    intro i hi
    obtain ⟨e, he, -, hi⟩ := hnumbers i hi
    exact Value.numbers_subset_of_mem he hi
  have hthinner := thinner_set hm hsub (.text name)
  constructor
  · intro r hr h
    rw [Document.set, part?_value_change] at hr
    rw [entries_set hm] at h
    exact halone.root_of_view hm r hr ((h.of_thinner hthinner).of_subset (Value.numbers_set_subset hsub _))
  · intro other hP v n es hget hpart hview
    rw [entries_set hm, Mapping.get?_set] at hget
    split at hget
    · cases hget
      rw [hw] at hpart
      cases hpart
    · next hother =>
      rw [view_set _ _ hpart (halone.ne_root hm hget hpart)] at hview
      obtain ⟨hothers, hself⟩ := halone.entry_of_view hm hP hget hpart hview
      refine ⟨fun h => hothers ?_, fun h => hself (h.of_thinner hthinner)⟩
      -- what was set stands under another key than `other`, and so did all the parts in it
      rw [entries_set hm] at h
      refine (h.of_thinner hthinner).of_subset (Value.numbers_subset fun e he i hi => ?_)
      obtain ⟨he, hne⟩ := Mapping.mem_erase_iff.1 he
      rcases Mapping.mem_of_mem_set he with he | rfl
      · exact Value.numbers_subset_of_mem (Mapping.mem_erase_iff.2 ⟨he, hne⟩) hi
      · obtain ⟨e', he', hkey, hi⟩ := hnumbers i hi
        exact Value.numbers_subset_of_mem (Mapping.mem_erase_iff.2 ⟨he', hkey ▸ hother⟩) hi

theorem Alone.change_part (halone : d.Alone P) (hm : d.view d.value = .map m) (hne : d.value.part? ≠ some n)
    (hf : ∀ es, (Value.map (f es)).numbers ⊆ (Value.map es).numbers) : (d.change f ⟨some n, []⟩).Alone P := by
  have hthinner : (d.change f ⟨some n, []⟩).Thinner d := thinner_change_part fun es _ => hf es
  have hentries : (d.change f ⟨some n, []⟩).entries = m := entries_of_view ((view_change_part hne).trans hm)
  constructor
  · intro r hr h
    rw [hentries] at h
    exact halone.root_of_view hm r hr (h.of_thinner hthinner)
  · intro name hP v i es hget hpart hview
    rw [hentries] at hget ⊢
    by_cases hin : v.part? = some n
    · rw [view_change_self hin, ← Value.map?_eq_some, Value.map?_changeAt_nil, Option.map_eq_some_iff] at hview
      obtain ⟨es', hold, rfl⟩ := hview
      obtain ⟨hothers, hself⟩ := halone.entry_of_view hm hP hget hpart (Value.map?_eq_some.1 hold)
      exact ⟨fun h => hothers (h.of_thinner hthinner), fun h => hself ((h.of_thinner hthinner).of_subset (hf es'))⟩
    · rw [view_change_part hin] at hview
      obtain ⟨hothers, hself⟩ := halone.entry_of_view hm hP hget hpart hview
      exact ⟨fun h => hothers (h.of_thinner hthinner), fun h => hself (h.of_thinner hthinner)⟩

/-! What shows. -/

theorem get?_expanded (hm : d.view d.value = .map m) (depth : Nat) (name : String) :
    (d.expanded depth).get? name = (m.get? name).map (d.expand depth) := by
  rw [expanded, entries_of_view hm]
  exact Mapping.get?_mapValues (fun _ => d.expand depth) m name

/-- A change of a part shows under the key that it stands under alone. -/
theorem expanded_change_part (hd : d.Sound) (hm : d.view d.value = .map m) (halone : d.Alone P) (hP : P name)
    (hget : m.get? name = some v) (hpart : v.part? = some n) (hview : d.view v = .map es)
    (hf : ∀ (d : Document) depth, (f es).map (fun e => (e.1, d.expand depth e.2)) =
      f (es.map fun e => (e.1, d.expand depth e.2))) (depth : Nat) :
    (d.change f ⟨some n, []⟩).expanded (depth + 1) =
      (d.expanded (depth + 1)).put name (.map (f (es.map fun e => (e.1, d.expand depth e.2)))) := by
  have hnodup := (Value.proper_map_iff.1 (proper_of_view hd hm)).1
  obtain ⟨hothers, hself⟩ := halone.entry_of_view hm hP hget hpart hview
  have hentries : (d.change f ⟨some n, []⟩).entries = m :=
    entries_of_view ((view_change_part (halone.ne_root hm hget hpart)).trans hm)
  have hchanged : (d.change f ⟨some n, []⟩).expand (depth + 1) v =
      .map (f (es.map fun e => (e.1, d.expand depth e.2))) := by
    rw [expand_of_part? hpart, view_change_self hpart, hview, changeAt, expand_map, hf]
    refine congrArg (fun es => Value.map (f es)) (List.map_congr_left fun e he => congrArg _ ?_)
    exact expand_change_part (fun h => hself (h.of_subset (Value.numbers_subset_of_mem he))) depth
  have hvalue : (d.expanded (depth + 1)).valueOf? (.text name) = some (d.expand (depth + 1) v) := by
    rw [Mapping.valueOf?_text, get?_expanded hm, hget, Option.map_some]
  rw [Mapping.put, Mapping.set_of_some hvalue, expanded, hentries, expanded, entries_of_view hm, List.map_map]
  refine List.map_congr_left fun e he => congrArg _ ?_
  dsimp only
  split
  · next hsame => rw [Mapping.eq_of_mem_of_get? hnodup hget he (Scalar.sameKey_text.1 hsame), hchanged]
  · next hother =>
    refine expand_change_part (fun h => hothers (h.of_subset (Value.numbers_subset_of_mem ?_))) _
    exact Mapping.mem_erase_iff.2 ⟨he, fun hkey => hother (Scalar.sameKey_text.2 hkey)⟩

end Document

end FeedOutline.Data
