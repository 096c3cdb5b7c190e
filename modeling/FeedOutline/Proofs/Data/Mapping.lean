import FeedOutline.Data.Merge
import FeedOutline.Proofs.Lookup
import Mathlib.Data.List.Nodup

/-!
Keys of mappings. What stands under a key after a change or after a merge follows from what stood there, if no key
stands twice.
-/
namespace FeedOutline.Data

deriving instance ReflBEq, LawfulBEq for Decimal
deriving instance ReflBEq, LawfulBEq for Date
deriving instance ReflBEq, LawfulBEq for Moment
deriving instance ReflBEq, LawfulBEq for Scalar

namespace Scalar

theorem sameKey_refl (s : Scalar) : s.sameKey s = true := by
  cases s <;> simp [sameKey, Moment.isSame]

theorem sameKey_text {s : Scalar} {key : String} : s.sameKey (.text key) = true ↔ s = .text key := by
  have hnumber : ∀ n : Option Int, ¬ (n.isSome = true ∧ n = none) := by
    rintro n ⟨hsome, rfl⟩
    cases hsome
  cases s <;> simp [sameKey, number?, hnumber]

theorem text_sameKey {s : Scalar} {key : String} : (Scalar.text key).sameKey s = true ↔ s = .text key := by
  cases s <;> simp [sameKey, number?, eq_comm (a := key)]

variable {α : Type} {key : Scalar} {v : α} {m : List (Scalar × α)}

theorem setIn_text (key : String) (v : α) (m : List (Scalar × α)) : (text key).setIn v m =
    if m.any (·.1 == .text key) then m.map fun e => if e.1 == .text key then (.text key, v) else e
    else m ++ [(.text key, v)] := by
  have hsame : ∀ e : Scalar × α, e.1.sameKey (.text key) = (e.1 == .text key) := by
    intro e
    rw [Bool.eq_iff_iff, sameKey_text, beq_iff_eq]
  simp only [setIn, hsame]
  split
  · refine List.map_congr_left fun e _ => ?_
    split
    · next he => rw [beq_iff_eq.1 he]
    · rfl
  · rfl

theorem lookup_map_of_ne {p : Scalar → Bool} {name : Scalar} (h : p name = false) (v : α)
    (m : List (Scalar × α)) :
    List.lookup name (m.map fun e => if p e.1 then (e.1, v) else e) = m.lookup name := by
  induction m with
  | nil => rfl
  | cons e m ih =>
    rw [List.map_cons, lookup_cons_eq, lookup_cons_eq, ih]
    by_cases hp : p e.1 = true
    · have hne : name ≠ e.1 := by
        rintro rfl
        rw [h] at hp
        cases hp
      simp [hp, hne]
    · simp [hp]

theorem lookup_setIn (key : Scalar) (v : α) (m : List (Scalar × α)) (name : String) :
    (key.setIn v m).lookup (.text name) = if key = .text name then some v else m.lookup (.text name) := by
  by_cases hkey : key = .text name
  · subst hkey
    rw [setIn_text, lookup_setEntry]
  · have hname : (Scalar.text name).sameKey key = false :=
      Bool.eq_false_iff.2 fun hsame => hkey (text_sameKey.1 hsame)
    rw [if_neg hkey, setIn]
    split
    · exact lookup_map_of_ne (p := (·.sameKey key)) hname v m
    · rw [List.lookup_append, lookup_cons_eq, if_neg (Ne.symm hkey)]
      simp

theorem keys_map_if (p : Scalar → Bool) (g : α → α) (m : List (Scalar × α)) :
    (m.map fun e => if p e.1 then (e.1, g e.2) else e).map (·.1) = m.map (·.1) := by
  rw [List.map_map]
  refine List.map_congr_left fun e _ => ?_
  dsimp only [Function.comp_apply]
  split <;> rfl

theorem keys_setIn (key : Scalar) (v : α) (m : List (Scalar × α)) : (key.setIn v m).map (·.1) =
    if m.any (·.1.sameKey key) then m.map (·.1) else m.map (·.1) ++ [key] := by
  unfold setIn
  split
  · exact keys_map_if (·.sameKey key) (fun _ => v) m
  · rw [List.map_append, List.map_singleton]

theorem nodup_keys_setIn (h : (m.map (·.1)).Nodup) : ((key.setIn v m).map (·.1)).Nodup := by
  rw [keys_setIn]
  split
  · exact h
  · next hnew =>
    rw [List.nodup_append]
    refine ⟨h, by simp, ?_⟩
    rintro k hk k' hk' rfl
    obtain ⟨e, he, rfl⟩ := List.mem_map.1 hk
    rw [List.mem_singleton] at hk'
    refine hnew (List.any_eq_true.2 ⟨e, he, ?_⟩)
    rw [hk']
    exact sameKey_refl key

end Scalar

variable {m es : Mapping} {key name : String} {v : Value}

namespace Mapping

theorem get?_cons (e : Scalar × Value) (m : Mapping) (name : String) :
    get? (e :: m) name = if e.1 = .text name then some e.2 else m.get? name := by
  rw [get?, lookup_cons_eq]
  simp only [eq_comm (a := Scalar.text name), get?]

theorem get?_singleton (key : String) (v : Value) (name : String) :
    get? [(.text key, v)] name = if name = key then some v else none := by
  rw [get?_cons]
  simp only [Scalar.text.injEq, eq_comm (a := key)]
  rfl

theorem get?_append (m es : Mapping) (name : String) : get? (m ++ es) name = (m.get? name).or (es.get? name) :=
  List.lookup_append ..

theorem get?_mapValues (g : Scalar → Value → Value) (m : Mapping) (name : String) :
    get? (m.map fun e => (e.1, g e.1 e.2)) name = (m.get? name).map (g (.text name)) := by
  induction m with
  | nil => rfl
  | cons e m ih =>
    rw [List.map_cons, get?_cons, get?_cons, ih]
    split
    · next he => rw [he, Option.map_some]
    · rfl

theorem get?_set (m : Mapping) (key : Scalar) (v : Value) (name : String) :
    (m.set key v).get? name = if key = .text name then some v else m.get? name :=
  Scalar.lookup_setIn key v m name

theorem get?_put (m : Mapping) (key : String) (v : Value) (name : String) :
    (m.put key v).get? name = if name = key then some v else m.get? name := by
  rw [put, get?_set]
  simp only [Scalar.text.injEq, eq_comm (a := key)]

theorem get?_put_of_notMem (key : String) (v : Value) :
    ∀ k ∉ [key], ∀ m : Mapping, (m.put key v).get? k = m.get? k := by
  intro k hk m
  rw [get?_put, if_neg fun heq => hk (List.mem_singleton.2 heq)]

theorem get?_erase_of_ne (h : name ≠ key) : (m.erase key).get? name = m.get? name := by
  have hne : Scalar.text name ≠ .text key := by simpa using h
  exact lookup_filter_ne m hne

theorem mem_of_get? (h : m.get? name = some v) : (.text name, v) ∈ m := by
  induction m with
  | nil => cases h
  | cons e m ih =>
    rw [get?_cons] at h
    split at h
    · next he =>
      cases h
      rw [← he]
      exact List.mem_cons_self ..
    · exact List.mem_cons_of_mem _ (ih h)

theorem eq_of_mem_of_get? (hm : (m.map (·.1)).Nodup) (hget : m.get? name = some v) {e : Scalar × Value}
    (he : e ∈ m) (hkey : e.1 = .text name) : e.2 = v :=
  congrArg Prod.snd (List.inj_on_of_nodup_map hm he (mem_of_get? hget) hkey)

theorem mem_of_mem_set {e : Scalar × Value} {k : Scalar} (he : e ∈ m.set k v) : e ∈ m ∨ e.2 = v := by
  unfold set Scalar.setIn at he
  split at he
  · obtain ⟨e', he', rfl⟩ := List.mem_map.1 he
    split
    · exact .inr rfl
    · exact .inl he'
  · exact (List.mem_append.1 he).imp_right fun he => congrArg Prod.snd (List.mem_singleton.1 he)

theorem mem_erase_iff {e : Scalar × Value} : e ∈ m.erase name ↔ e ∈ m ∧ e.1 ≠ .text name := by
  rw [erase, List.mem_filter, bne_iff_ne]

theorem map_values_set (f : Value → Value) (m : Mapping) (k : Scalar) (v : Value) :
    (m.set k v).map (fun e => (e.1, f e.2)) = set (m.map fun e => (e.1, f e.2)) k (f v) := by
  unfold set Scalar.setIn
  rw [List.any_map]
  simp only [Function.comp_def]
  split
  · rw [List.map_map, List.map_map]
    refine List.map_congr_left fun e _ => ?_
    dsimp only [Function.comp_apply]
    split <;> rfl
  · rw [List.map_append, List.map_singleton]

theorem get?_eq_none (h : Scalar.text name ∉ m.map (·.1)) : m.get? name = none := by
  cases hget : m.get? name with
  | none => rfl
  | some v => exact absurd (List.mem_map_of_mem (mem_of_get? hget)) h

theorem valueOf?_text (m : Mapping) (key : String) : m.valueOf? (.text key) = m.get? key := by
  induction m with
  | nil => rfl
  | cons e m ih =>
    rw [valueOf?] at ih ⊢
    rw [List.find?_cons, get?_cons, ← ih]
    by_cases he : e.1 = .text key
    · simp [he, Scalar.sameKey_refl]
    · have hsame : e.1.sameKey (.text key) = false :=
        Bool.eq_false_iff.2 fun hsame => he (Scalar.sameKey_text.1 hsame)
      simp [he, hsame]

def overlay (before : Option Value) : Option Value → Option Value
  | none => before
  | some v => some (mergeValue before v)

theorem get?_merge (hes : (es.map (·.1)).Nodup) (base : Mapping) (name : String) :
    (merge base es).get? name = overlay (base.get? name) (es.get? name) := by
  induction es generalizing base with
  | nil => rw [merge]; rfl
  | cons e es ih =>
    obtain ⟨k, v⟩ := e
    rw [List.map_cons, List.nodup_cons] at hes
    rw [merge, ih hes.2, get?_set, get?_cons]
    dsimp only
    split
    · next hk =>
      subst hk
      rw [get?_eq_none hes.1, valueOf?_text]
      rfl
    · rfl

end Mapping

end FeedOutline.Data
