import FeedOutline.Proofs.Data.Document

/-!
Mappings all of whose keys are texts. Whether the mapping of a document is one does not depend on what is
put under texts, wherever in the document that is done.
-/
namespace FeedOutline.Data

@[simp] theorem Scalar.ofText_whole (s : String) : Scalar.ofText s = .text s := rfl

@[simp] theorem Scalar.ofText_torn (t : Text.Torn) : Scalar.ofText (.torn t) = .torn t := rfl

def Mapping.TextKeys (m : Mapping) : Prop :=
  ∀ k ∈ m.map (·.1), ∃ s, k = .ofText s

variable {m : Mapping} {f : Mapping → Mapping} {d : Document}

namespace Mapping

theorem textKeys_congr {es : Mapping} (h : es.map (·.1) = m.map (·.1)) : es.TextKeys ↔ m.TextKeys := by
  rw [TextKeys, TextKeys, h]

theorem textKeys_put (m : Mapping) (key : String) (v : Value) : (m.put key v).TextKeys ↔ m.TextKeys := by
  rw [TextKeys, put, set, Scalar.keys_setIn]
  split
  · rfl
  · simp only [List.forall_mem_append, List.forall_mem_singleton, TextKeys]
    exact and_iff_left ⟨key, rfl⟩

end Mapping

theorem Value.textKeys_changeAt (hf : ∀ m, (f m).TextKeys ↔ m.TextKeys) (ks : List String) (v : Value) :
    ((v.changeAt f ks).map?.getD []).TextKeys ↔ (v.map?.getD []).TextKeys := by
  cases v with
  | map m =>
    cases ks with
    | nil => exact hf m
    | cons k ks => exact Mapping.textKeys_congr (Scalar.keys_map_if (· == .text k) (changeAt f ks) m)
  | _ => cases ks <;> rfl

namespace Document

theorem textKeys_change (hf : ∀ m, (f m).TextKeys ↔ m.TextKeys) (p : Place) (d : Document) :
    (d.change f p).entries.TextKeys ↔ d.entries.TextKeys := by
  obtain ⟨_ | n, ks⟩ := p
  · rw [change_none, entries, entries, view, view]
    by_cases hpart : d.value.part? = none
    · rw [Value.viewIn_of_part? hpart, Value.viewIn_of_part? (Value.part?_changeAt.trans hpart)]
      exact Value.textKeys_changeAt hf ks _
    · -- the mapping is kept in a part, and only that could be changed
      have hsame : d.value.changeAt f ks = d.value := by
        cases hvalue : d.value with
        | part n isMap => cases ks <;> rfl
        | _ => simp [hvalue, Value.part?] at hpart
      rw [hsame]
  · rw [change_some, entries, entries, view, view]
    cases hvalue : d.value with
    | part i isMap =>
      rw [Value.viewIn_modify]
      split
      · exact Value.textKeys_changeAt hf ks _
      · rfl
    | _ => rfl

theorem textKeys_expand (hd : d.Sound) (depth : Nat) :
    ((d.expand (depth + 2) d.value).map?.getD []).TextKeys ↔ d.entries.TextKeys := by
  have hview (depth : Nat) (v : Value) (hpart : v.part? = none) :
      ((d.expand (depth + 1) v).map?.getD []).TextKeys ↔ (v.map?.getD []).TextKeys := by
    rw [expand, Value.map?_mapParts hpart]
    cases v.map? with
    | none => rfl
    | some m =>
      refine Mapping.textKeys_congr ?_
      rw [Option.map_some, Option.getD_some, Option.getD_some, Value.mapPartsEntries_eq, List.map_map]
      rfl
  by_cases hpart : d.value.part? = none
  · rw [hview _ _ hpart, entries, view, Value.viewIn_of_part? hpart]
  · cases hvalue : d.value with
    | part n isMap =>
      have hn : n < d.parts.length := by
        have hproper := hd.value
        rw [hvalue] at hproper
        exact hproper
      rw [expand_part hn, hview _ _ (hd.parts _ (List.getElem_mem hn)).2, entries, view, hvalue,
        Value.viewIn_of_lt hn]
    | _ => simp [hvalue, Value.part?] at hpart

end Document

end FeedOutline.Data
