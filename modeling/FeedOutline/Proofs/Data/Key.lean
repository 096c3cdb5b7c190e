import FeedOutline.Proofs.Data.Path

/-!
Keys of any kind. Different scalars can be one key, as the number one and true are, so that a key stands for all
scalars that are the same key.
-/
namespace FeedOutline.Data

namespace Scalar

def instant? : Scalar → Option (Int × Nat)
  | moment m => m.epochSeconds?.map (·, m.micro)
  | _ => none

variable {a b c : Scalar}

theorem instant?_eq_none {n : Int} (h : a.number? = some n) : a.instant? = none := by
  cases a with
  | moment m => cases h
  | _ => rfl

theorem isSame_iff {m n : Moment} : m.isSame n = true ↔
    m = n ∨ ∃ i, (moment m).instant? = some i ∧ (moment n).instant? = some i := by
  have hoffset : m.offset.isSome = m.epochSeconds?.isSome := by
    rw [Moment.epochSeconds?, Option.isSome_map]
  rw [Moment.isSame, hoffset]
  cases hm : m.epochSeconds? with
  | none => simp [instant?, hm]
  | some s =>
    cases hn : n.epochSeconds? with
    | none => simp [instant?, hm, hn]
    | some s' => simp [instant?, hm, hn, eq_comm (a := s), eq_comm (a := m.micro)]

/-- Scalars are the same key if they are equal, or are the same number or the same time. -/
theorem sameKey_iff : a.sameKey b = true ↔ a = b ∨ (∃ n, a.number? = some n ∧ b.number? = some n) ∨
    ∃ i, a.instant? = some i ∧ b.instant? = some i := by
  by_cases h : ∃ m n, a = moment m ∧ b = moment n
  · obtain ⟨m, n, rfl, rfl⟩ := h
    rw [sameKey, isSame_iff]
    simp [number?]
  · have hsame : a.sameKey b = (a == b || (a.number?.isSome && a.number? == b.number?)) := by
      unfold sameKey
      split
      · exact absurd ⟨_, _, rfl, rfl⟩ h
      · rfl
    have hinstant : ¬ ∃ i, a.instant? = some i ∧ b.instant? = some i := by
      rintro ⟨i, ha, hb⟩
      cases a <;> cases b <;> simp [instant?] at h ha hb
    rw [hsame]
    cases ha : a.number? <;> simp [hinstant, eq_comm (b := b.number?)]

theorem sameKey_comm (a b : Scalar) : a.sameKey b = b.sameKey a := by
  rw [Bool.eq_iff_iff, sameKey_iff, sameKey_iff, eq_comm]
  simp only [and_comm]

theorem sameKey_trans (h : a.sameKey b = true) (h' : b.sameKey c = true) : a.sameKey c = true := by
  rw [sameKey_iff] at h h' ⊢
  rcases h with rfl | ⟨n, ha, hb⟩ | ⟨i, ha, hb⟩
  · exact h'
  · rcases h' with rfl | ⟨n', hb', hc⟩ | ⟨i, hb', -⟩
    · exact .inr (.inl ⟨n, ha, hb⟩)
    · exact .inr (.inl ⟨n, ha, hc.trans (hb'.symm.trans hb)⟩)
    · exact nomatch hb'.symm.trans (instant?_eq_none hb)
  · rcases h' with rfl | ⟨n, hb', -⟩ | ⟨i', hb', hc⟩
    · exact .inr (.inr ⟨i, ha, hb⟩)
    · exact nomatch hb.symm.trans (instant?_eq_none hb')
    · exact .inr (.inr ⟨i, ha, hc.trans (hb'.symm.trans hb)⟩)

theorem sameKey_congr (h : a.sameKey b = true) (c : Scalar) : a.sameKey c = b.sameKey c := by
  rw [Bool.eq_iff_iff]
  exact ⟨sameKey_trans (sameKey_comm a b ▸ h), sameKey_trans h⟩

end Scalar

variable {m es : Mapping} {k key : Scalar} {v w : Value} {e : Scalar × Value}

namespace Mapping

theorem valueOf?_cons (e : Scalar × Value) (m : Mapping) (k : Scalar) :
    valueOf? (e :: m) k = if e.1.sameKey k then some e.2 else m.valueOf? k := by
  rw [valueOf?, List.find?_cons]
  split <;> simp_all [valueOf?]

theorem valueOf?_append (m es : Mapping) (k : Scalar) :
    valueOf? (m ++ es) k = (m.valueOf? k).or (es.valueOf? k) := by
  rw [valueOf?, List.find?_append, Option.map_or]
  rfl

theorem valueOf?_congr (h : k.sameKey key = true) (m : Mapping) : m.valueOf? k = m.valueOf? key := by
  have hsame : ∀ s : Scalar, s.sameKey k = s.sameKey key := by
    intro s
    rw [Scalar.sameKey_comm s k, Scalar.sameKey_comm s key, Scalar.sameKey_congr h]
  simp only [valueOf?, hsame]

theorem valueOf?_eq_none : m.valueOf? k = none ↔ ∀ e ∈ m, e.1.sameKey k = false := by
  simp [valueOf?]

theorem exists_of_valueOf? (h : m.valueOf? k = some v) : ∃ e ∈ m, e.1.sameKey k = true ∧ e.2 = v := by
  obtain ⟨e, he, rfl⟩ := Option.map_eq_some_iff.1 h
  have hkey : e.1.sameKey k = true := List.find?_some (p := fun e : Scalar × Value => e.1.sameKey k) he
  exact ⟨e, List.mem_of_find?_eq_some he, hkey, rfl⟩

theorem valueOf?_mapValues (g : Scalar → Value → Value) (hg : ∀ k k' v, k.sameKey k' = true → g k v = g k' v)
    (m : Mapping) (k : Scalar) : valueOf? (m.map fun e => (e.1, g e.1 e.2)) k = (m.valueOf? k).map (g k) := by
  induction m with
  | nil => rfl
  | cons e m ih =>
    rw [List.map_cons, valueOf?_cons, valueOf?_cons, ih]
    split
    · next he => rw [Option.map_some, hg e.1 k e.2 he]
    · rfl

theorem set_of_none (h : m.valueOf? key = none) (v : Value) : m.set key v = m ++ [(key, v)] := by
  rw [set, Scalar.setIn, if_neg]
  simpa using valueOf?_eq_none.1 h

theorem set_of_some (h : m.valueOf? key = some w) (v : Value) :
    m.set key v = m.map fun e => (e.1, if e.1.sameKey key then v else e.2) := by
  obtain ⟨e, he, hkey, -⟩ := exists_of_valueOf? h
  rw [set, Scalar.setIn, if_pos (List.any_eq_true.2 ⟨e, he, hkey⟩)]
  refine List.map_congr_left fun e _ => ?_
  split <;> rfl

theorem valueOf?_set (m : Mapping) (key : Scalar) (v : Value) (k : Scalar) :
    (m.set key v).valueOf? k = if key.sameKey k then some v else m.valueOf? k := by
  cases hkey : m.valueOf? key with
  | none =>
    rw [set_of_none hkey, valueOf?_append, valueOf?_cons]
    split
    · next hk => rw [← valueOf?_congr hk, hkey, Option.none_or]
    · exact Option.or_none
  | some w =>
    rw [set_of_some hkey, valueOf?_mapValues (fun k old => if k.sameKey key then v else old)
      (fun k k' old h => by rw [Scalar.sameKey_congr h]), Scalar.sameKey_comm key k]
    split
    · next hk => rw [valueOf?_congr hk, hkey, Option.map_some]
    · exact Option.map_id' ..

end Mapping

namespace Value

def under? (parts : List Value) (key : Scalar) (v : Value) : Option Value :=
  (v.viewIn parts).map?.bind (Mapping.valueOf? · key)

def down? (parts : List Value) : List Scalar → Value → Option Value
  | [], v => some v
  | k :: ks, v => (v.under? parts k).bind (down? parts ks)

theorem under?_map (parts : List Value) (m : Mapping) (key : Scalar) : (map m).under? parts key = m.valueOf? key :=
  rfl

theorem down?_singleton (parts : List Value) (k : Scalar) (v : Value) : v.down? parts [k] = v.under? parts k := by
  rw [down?]
  cases v.under? parts k <;> rfl

theorem down?_append (parts : List Value) (ks ls : List Scalar) (v : Value) :
    v.down? parts (ks ++ ls) = (v.down? parts ks).bind (down? parts ls) := by
  induction ks generalizing v with
  | nil => rfl
  | cons k ks ih =>
    rw [List.cons_append, down?, down?, Option.bind_assoc]
    exact Option.bind_congr fun w _ => ih w

end Value

end FeedOutline.Data
