import FeedOutline.Proofs.Data.Document
import FeedOutline.Proofs.Yaml.Construct
import FeedOutline.Yaml.Load

/-!
What is loaded is sound: no mapping has a key twice, and each number is that of a part.
-/
namespace FeedOutline.Yaml

open Data (Value Document)
open Text (Bytes)

namespace Objects

def Proper (os : Objects) : Prop :=
  ∀ (n : Nat) (o : Object), os.all.getD n none = some o → o.Proper

variable {os : Objects} {o : Object}

theorem part?_contentOf (os : Objects) (fuel : Nat) (o : Object) : (os.contentOf fuel o).part? = none := by
  cases fuel with
  | zero => rfl
  | succ fuel => cases o <;> rfl

theorem proper_contentOf {fuel : Nat} (hvalue : ∀ n, (os.valueOf fuel n).Proper os.shared.length)
    (ho : o.Proper) : (os.contentOf (fuel + 1) o).Proper os.shared.length := by
  cases o with
  | map entries =>
    rw [contentOf, Value.proper_map_iff, List.map_map]
    refine ⟨ho, fun e he => ?_⟩
    obtain ⟨e', -, rfl⟩ := List.mem_map.1 he
    exact hvalue e'.2
  | _ => trivial

theorem proper_valueOf (hos : os.Proper) (fuel : Nat) : ∀ n, (os.valueOf fuel n).Proper os.shared.length := by
  induction fuel using Nat.strongRecOn with
  | ind fuel ih =>
    intro n
    unfold valueOf
    split
    · trivial
    · next fuel =>
      split
      · trivial
      · next hobject =>
        split
        · next number hnumber =>
          obtain ⟨hlt, -⟩ := List.findIdx?_eq_some_iff_getElem.1 hnumber
          exact hlt
        · cases fuel with
          | zero => trivial
          | succ fuel => exact proper_contentOf (ih fuel (by omega)) (hos n _ hobject)
      · trivial

theorem sound_toDocument (hos : os.Proper) (root : Nat) : (toDocument root os).Sound := by
  have hlength : (toDocument root os).parts.length = os.shared.length := List.length_map ..
  refine ⟨?_, fun v hv => ?_⟩
  · rw [hlength]
    exact proper_valueOf hos _ root
  · obtain ⟨n, -, rfl⟩ := List.mem_map.1 hv
    rw [hlength]
    refine ⟨proper_contentOf (proper_valueOf hos _) ?_, part?_contentOf _ _ _⟩
    cases hn : os.all.getD n none with
    | none => trivial
    | some o => exact hos n o hn

end Objects

theorem sound_of_load {bytes : Bytes} {d : Document} (h : load bytes = .ok d) : d.Sound := by
  obtain ⟨g, -, h⟩ := bind_eq_ok.1 h
  cases g with
  | none =>
    cases h
    exact ⟨trivial, fun _ hv => absurd hv List.not_mem_nil⟩
  | some g =>
    obtain ⟨objects, hobjects, h⟩ := bind_eq_ok.1 h
    cases h
    refine Objects.sound_toDocument (fun n o hn => proper_of_objectsOf hobjects (n := n) ?_) _
    rw [Objects.ofGraph, Array.getD_eq_getD_getElem?] at hn
    cases hget : objects[n]? with
    | none =>
      rw [hget] at hn
      cases hn
    | some o' =>
      rw [hget] at hn
      exact congrArg some hn

end FeedOutline.Yaml
