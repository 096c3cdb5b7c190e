import FeedOutline.Data.Document
import FeedOutline.Proofs.Data.Mapping

/-!
Keys that lead from one mapping down into another. A merge acts on what they lead to, as long as there are
mappings on the way.
-/
namespace FeedOutline.Data

namespace Value

def get? (parts : List Value) (key : String) (v : Value) : Option Value :=
  (v.viewIn parts).map?.bind (Mapping.get? · key)

def at? (parts : List Value) : List String → Value → Option Value
  | [], v => some v
  | k :: ks, v => (v.get? parts k).bind (at? parts ks)

def part? : Value → Option Nat
  | part n _ => some n
  | _ => none

/-- Two values are one list or mapping that is kept elsewhere. -/
def SamePart (v w : Value) : Prop :=
  v.part?.isSome ∧ v.part? = w.part?

instance (v w : Value) : Decidable (v.SamePart w) :=
  inferInstanceAs (Decidable (_ ∧ _))

mutual

def isPlain : Value → Bool
  | list items => allPlain items
  | map es => entriesPlain es
  | pair a b => a.isPlain && b.isPlain
  | part _ _ => false
  | scalar _ | set _ => true

def allPlain : List Value → Bool
  | [] => true
  | v :: vs => v.isPlain && allPlain vs

def entriesPlain : Mapping → Bool
  | [] => true
  | (_, v) :: es => v.isPlain && entriesPlain es

end

mutual

/-- No key stands twice in the value, if it is a mapping, nor in one that its keys lead to, and what stands
elsewhere is one of so many parts. -/
def Proper (bound : Nat) : Value → Prop
  | map es => (es.map (·.1)).Nodup ∧ properEntries bound es
  | part n _ => n < bound
  | _ => True

def properEntries (bound : Nat) : Mapping → Prop
  | [] => True
  | (_, v) :: es => v.Proper bound ∧ properEntries bound es

end

def Maps (parts : List Value) : List String → Value → Prop
  | [], v => (v.viewIn parts).map?.isSome
  | k :: ks, v => (v.viewIn parts).map?.isSome ∧ ∀ w ∈ v.get? parts k, Maps parts ks w

variable {parts : List Value} {bound bound' : Nat} {m base es : Mapping} {key name : String} {v w : Value}
  {ks : List String} {f : Nat → Bool → Value}

theorem samePart_iff : v.SamePart w ↔ ∃ n, v.part? = some n ∧ w.part? = some n := by
  rw [SamePart, Option.isSome_iff_exists]
  constructor
  · rintro ⟨⟨n, hn⟩, heq⟩
    exact ⟨n, hn, heq ▸ hn⟩
  · rintro ⟨n, hv, hw⟩
    exact ⟨⟨n, hv⟩, hv.trans hw.symm⟩

theorem viewIn_nil (v : Value) : v.viewIn [] = v := by
  cases v <;> rfl

theorem viewIn_of_part? (h : v.part? = none) : v.viewIn parts = v := by
  cases v with
  | part n isMap => cases h
  | _ => rfl

theorem get?_map (m : Mapping) (key : String) : (map m).get? parts key = Mapping.get? m key :=
  rfl

theorem at?_singleton (v : Value) (key : String) : v.at? parts [key] = v.get? parts key := by
  rw [at?]
  cases v.get? parts key <;> rfl

theorem at?_append (ks ls : List String) (v : Value) :
    v.at? parts (ks ++ ls) = (v.at? parts ks).bind (at? parts ls) := by
  induction ks generalizing v with
  | nil => rfl
  | cons k ks ih =>
    rw [List.cons_append, at?, at?, Option.bind_assoc]
    exact Option.bind_congr fun w _ => ih w

/-! ### Proper values -/

theorem properEntries_iff : properEntries bound es ↔ ∀ e ∈ es, e.2.Proper bound := by
  induction es with
  | nil => simp [properEntries]
  | cons e es ih => rw [properEntries, ih, List.forall_mem_cons]

theorem proper_map_iff : (map es).Proper bound ↔ (es.map (·.1)).Nodup ∧ ∀ e ∈ es, e.2.Proper bound := by
  rw [Proper, properEntries_iff]

theorem proper_singleton {k : Scalar} (hv : v.Proper bound) : (map [(k, v)]).Proper bound := by
  refine proper_map_iff.2 ⟨List.nodup_cons.2 ⟨List.not_mem_nil, List.nodup_nil⟩, fun e he => ?_⟩
  rw [List.mem_singleton.1 he]
  exact hv

theorem proper_get? (hm : (map m).Proper bound) (h : Mapping.get? m name = some v) : v.Proper bound :=
  (proper_map_iff.1 hm).2 _ (Mapping.mem_of_get? h)

theorem proper_set (hm : (map m).Proper bound) (hv : v.Proper bound) (key : Scalar) :
    (map (m.set key v)).Proper bound := by
  rw [proper_map_iff] at hm ⊢
  refine ⟨Scalar.nodup_keys_setIn hm.1, fun e he => ?_⟩
  rcases Mapping.mem_of_mem_set he with he | heq
  · exact hm.2 e he
  · rw [heq]
    exact hv

theorem proper_erase (hm : (map m).Proper bound) (key : String) : (map (m.erase key)).Proper bound := by
  rw [proper_map_iff] at hm ⊢
  have hsub : (m.erase key).Sublist m := List.filter_sublist
  exact ⟨hm.1.sublist (hsub.map _), fun e he => hm.2 e (hsub.subset he)⟩

theorem proper_of_valueOf? {key : Scalar} (hm : (map m).Proper bound) (h : m.valueOf? key = some v) :
    v.Proper bound := by
  obtain ⟨e, he, rfl⟩ := Option.map_eq_some_iff.1 h
  exact (proper_map_iff.1 hm).2 e (List.mem_of_find?_eq_some he)

mutual

theorem proper_mergeValue (before : Option Value) (hbefore : ∀ b ∈ before, b.Proper bound) :
    (v : Value) → v.Proper bound → (Mapping.mergeValue before v).Proper bound
  | map es, hes => by
    match before with
    | some (map bs) =>
      rw [Mapping.mergeValue]
      exact proper_merge bs (hbefore _ rfl) es hes
    | none | some (scalar _) | some (list _) | some (set _) | some (pair _ _) | some (part _ _) =>
      rwa [Mapping.mergeValue.eq_def]
  | scalar _, h | list _, h | set _, h | pair _ _, h | part _ _, h => by
    rw [Mapping.mergeValue.eq_def]
    cases before with
    | none => exact h
    | some b => cases b <;> exact h

theorem proper_merge (base : Mapping) (hbase : (map base).Proper bound) :
    (es : Mapping) → (map es).Proper bound → (map (Mapping.merge base es)).Proper bound
  | [], _ => by rwa [Mapping.merge]
  | (k, v) :: es, hes => by
    obtain ⟨hnodup, hall⟩ := proper_map_iff.1 hes
    rw [List.map_cons, List.nodup_cons] at hnodup
    rw [List.forall_mem_cons] at hall
    have hv : (Mapping.mergeValue (Mapping.valueOf? base k) v).Proper bound :=
      proper_mergeValue _ (fun b hb => proper_of_valueOf? hbase hb) v hall.1
    rw [Mapping.merge]
    exact proper_merge _ (proper_set hbase hv k) es (proper_map_iff.2 ⟨hnodup.2, hall.2⟩)

end

/-! ### Mappings on the way -/

theorem isSome_of_maps (h : v.Maps parts ks) : (v.viewIn parts).map?.isSome := by
  cases ks with
  | nil => exact h
  | cons k ks => exact h.1

theorem maps_append_singleton (ks : List String) (key : String) : v.Maps parts (ks ++ [key]) ↔
    v.Maps parts ks ∧ ∀ w ∈ v.at? parts (ks ++ [key]), (w.viewIn parts).map?.isSome := by
  induction ks generalizing v with
  | nil =>
    rw [List.nil_append, at?_singleton]
    rfl
  | cons k ks ih =>
    rw [List.cons_append, Maps, Maps, at?, and_assoc]
    refine and_congr_right fun _ => ?_
    cases v.get? parts k with
    | none => simp
    | some w => simpa using ih

/-! ### Merging -/

theorem mergeValue_none (v : Value) : Mapping.mergeValue none v = v := by
  rw [Mapping.mergeValue.eq_def]

theorem mergeValue_scalar (before : Option Value) (s : Scalar) :
    Mapping.mergeValue before (scalar s) = scalar s := by
  rw [Mapping.mergeValue.eq_def]
  cases before with
  | none => rfl
  | some b => cases b <;> rfl

theorem mergeValue_map (bs es : Mapping) : Mapping.mergeValue (some (map bs)) (map es) = map (Mapping.merge bs es) := by
  rw [Mapping.mergeValue]

theorem exists_map_of_isSome (h : (v.viewIn []).map?.isSome) : ∃ m, v = map m := by
  rw [viewIn_nil] at h
  cases v with
  | map m => exact ⟨m, rfl⟩
  | _ => cases h

theorem at?_merge (ks : List String) (hbase : (map base).Maps [] ks) (hes : (map es).Maps [] ks)
    (hproper : (map es).Proper bound) (k : String) : (map (Mapping.merge base es)).at? [] (ks ++ [k]) =
      Mapping.overlay ((map base).at? [] (ks ++ [k])) ((map es).at? [] (ks ++ [k])) := by
  induction ks generalizing base es with
  | nil =>
    simp only [List.nil_append, at?_singleton, get?_map]
    exact Mapping.get?_merge (proper_map_iff.1 hproper).1 base k
  | cons k' ks ih =>
    simp only [List.cons_append, at?, get?_map, Mapping.get?_merge (proper_map_iff.1 hproper).1]
    cases hv : Mapping.get? es k' with
    | none => rfl
    | some v =>
      cases hb : Mapping.get? base k' with
      | none =>
        simp only [Mapping.overlay, Option.bind_none, Option.bind_some, mergeValue_none]
        cases v.at? [] (ks ++ [k]) with
        | none => rfl
        | some w => rfl
      | some b =>
        have hbs := hbase.2 b hb
        have hvs := hes.2 v hv
        obtain ⟨bs, rfl⟩ := exists_map_of_isSome (isSome_of_maps hbs)
        obtain ⟨vs, rfl⟩ := exists_map_of_isSome (isSome_of_maps hvs)
        simp only [Mapping.overlay, Option.bind_some, mergeValue_map]
        exact ih hbs hvs (proper_get? hproper hv)

theorem maps_merge (hbase : (map base).Maps [] ks) (hes : (map es).Maps [] ks) (hproper : (map es).Proper bound) :
    (map (Mapping.merge base es)).Maps [] ks := by
  induction ks generalizing base es with
  | nil => rfl
  | cons k ks ih =>
    refine ⟨rfl, fun w hw => ?_⟩
    rw [get?_map, Mapping.get?_merge (proper_map_iff.1 hproper).1] at hw
    cases hv : Mapping.get? es k with
    | none =>
      rw [hv] at hw
      exact hbase.2 w hw
    | some v =>
      have hvs := hes.2 v hv
      rw [hv] at hw
      cases hw
      cases hb : Mapping.get? base k with
      | none =>
        rw [mergeValue_none]
        exact hvs
      | some b =>
        have hbs := hbase.2 b hb
        obtain ⟨bs, rfl⟩ := exists_map_of_isSome (isSome_of_maps hbs)
        obtain ⟨vs, rfl⟩ := exists_map_of_isSome (isSome_of_maps hvs)
        rw [mergeValue_map]
        exact ih hbs hvs (proper_get? hproper hv)

/-! ### Parts put in their places -/

theorem mapPartsEntries_eq (f : Nat → Bool → Value) (es : Mapping) :
    mapPartsEntries f es = es.map fun e => (e.1, e.2.mapParts f) := by
  induction es with
  | nil => rfl
  | cons e es ih => rw [mapPartsEntries, ih, List.map_cons]

theorem get?_mapPartsEntries (f : Nat → Bool → Value) (m : Mapping) (name : String) :
    Mapping.get? (mapPartsEntries f m) name = (Mapping.get? m name).map (mapParts f) := by
  rw [mapPartsEntries_eq]
  exact Mapping.get?_mapValues (fun _ => mapParts f) m name

mutual

theorem mapParts_of_isPlain (f : Nat → Bool → Value) : (v : Value) → v.isPlain → v.mapParts f = v
  | scalar _, _ | set _, _ => rfl
  | list items, h => congrArg list (mapPartsAll_of_allPlain f items h)
  | map es, h => congrArg map (mapPartsEntries_of_entriesPlain f es h)
  | pair a b, h => by
    rw [isPlain, Bool.and_eq_true] at h
    rw [mapParts, mapParts_of_isPlain f a h.1, mapParts_of_isPlain f b h.2]

theorem mapPartsAll_of_allPlain (f : Nat → Bool → Value) :
    (vs : List Value) → allPlain vs → mapPartsAll f vs = vs
  | [], _ => rfl
  | v :: vs, h => by
    rw [allPlain, Bool.and_eq_true] at h
    rw [mapPartsAll, mapParts_of_isPlain f v h.1, mapPartsAll_of_allPlain f vs h.2]

theorem mapPartsEntries_of_entriesPlain (f : Nat → Bool → Value) :
    (es : Mapping) → entriesPlain es → mapPartsEntries f es = es
  | [], _ => rfl
  | (k, v) :: es, h => by
    rw [entriesPlain, Bool.and_eq_true] at h
    rw [mapPartsEntries, mapParts_of_isPlain f v h.1, mapPartsEntries_of_entriesPlain f es h.2]

end

@[elab_as_elim]
theorem entries_induction {motive : Value → Prop} (map : ∀ es, (∀ e ∈ es, motive e.2) → motive (map es))
    (other : ∀ v, v.map? = none → motive v) : (v : Value) → motive v
  | .map es => map es fun e he =>
    have hlt : sizeOf e.2 < 1 + sizeOf es := by
      have hmem := List.sizeOf_lt_of_mem he
      obtain ⟨k, v⟩ := e
      simp only [Prod.mk.sizeOf_spec] at hmem ⊢
      omega
    entries_induction map other e.2
  | scalar _ | list _ | set _ | pair _ _ | part _ _ => other _ rfl
termination_by v => sizeOf v

theorem proper_mapParts (hf : ∀ n < bound, ∀ isMap, (f n isMap).Proper bound') (hv : v.Proper bound) :
    (v.mapParts f).Proper bound' := by
  induction v using entries_induction with
  | map es ih =>
    obtain ⟨hnodup, hall⟩ := proper_map_iff.1 hv
    rw [mapParts, mapPartsEntries_eq, proper_map_iff, List.map_map]
    refine ⟨hnodup, fun e he => ?_⟩
    obtain ⟨e', he', rfl⟩ := List.mem_map.1 he
    exact ih e' he' (hall e' he')
  | other v hmap =>
    cases v with
    | map es => cases hmap
    | part n isMap => exact hf n hv isMap
    | _ => trivial

theorem proper_mono (h : bound ≤ bound') (hv : v.Proper bound) : v.Proper bound' := by
  induction v using entries_induction with
  | map es ih =>
    obtain ⟨hnodup, hall⟩ := proper_map_iff.1 hv
    exact proper_map_iff.2 ⟨hnodup, fun e he => ih e he (hall e he)⟩
  | other v hmap =>
    cases v with
    | map es => cases hmap
    | part n isMap => exact Nat.lt_of_lt_of_le hv h
    | _ => trivial

end Value

namespace Mapping

def scalarEntries (es : List (Scalar × Scalar)) : Mapping :=
  es.map fun e => (e.1, .scalar e.2)

variable {es : List (Scalar × Scalar)} {key : String} {v : Value}

theorem keys_scalarEntries (es : List (Scalar × Scalar)) : (scalarEntries es).map (·.1) = es.map (·.1) :=
  List.map_map ..

theorem exists_scalar_of_get? (h : (scalarEntries es).get? key = some v) : ∃ s, v = .scalar s := by
  obtain ⟨e, -, he⟩ := List.mem_map.1 (mem_of_get? h)
  exact ⟨e.2, (congrArg Prod.snd he).symm⟩

theorem proper_scalarEntries (bound : Nat) (h : (es.map (·.1)).Nodup) :
    (Value.map (scalarEntries es)).Proper bound := by
  refine Value.proper_map_iff.2 ⟨keys_scalarEntries es ▸ h, fun e he => ?_⟩
  obtain ⟨e', -, rfl⟩ := List.mem_map.1 he
  trivial

theorem get?_merge_scalarEntries (h : (es.map (·.1)).Nodup) (m : Mapping) (key : String) :
    (merge m (scalarEntries es)).get? key = ((scalarEntries es).get? key).or (m.get? key) := by
  rw [get?_merge (keys_scalarEntries es ▸ h)]
  cases hv : (scalarEntries es).get? key with
  | none => rfl
  | some v =>
    obtain ⟨s, rfl⟩ := exists_scalar_of_get? hv
    exact congrArg some (Value.mergeValue_scalar ..)

end Mapping

end FeedOutline.Data
