import FeedOutline.Proofs.Data.Copy
import FeedOutline.Proofs.Data.Key

/-!
Deep merging. A merge gives the entries of the first mapping their new values and puts the entries with new keys
behind them. From this follow its laws: the empty mapping is neutral, merging again changes nothing, what stands at
the end of a path is the second side's or else the first one's, and merges can be grouped in any way if no path leads
to a mapping on one side and to something else on another.
-/
namespace FeedOutline.Data

/-- No key stands twice, whatever scalars it is written as. -/
def Mapping.Distinct (m : Mapping) : Prop :=
  m.Pairwise fun e e' => e.1.sameKey e'.1 = false

namespace Value

mutual

def Keyed : Value → Prop
  | map es => Mapping.Distinct es ∧ keyedEntries es
  | _ => True

def keyedEntries : Mapping → Prop
  | [] => True
  | (_, v) :: es => v.Keyed ∧ keyedEntries es

end

/-- No path leads to a mapping in one value and to something else in the other. -/
def Compatible (v w : Value) : Prop :=
  ∀ path x y, v.down? [] path = some x → w.down? [] path = some y → (x.map?.isSome ↔ y.map?.isSome)

end Value

open Value (mergeValue_none mergeValue_map)

variable {m base es a b c : Mapping} {k key : Scalar} {v w x y z : Value} {e : Scalar × Value}
  {path : List Scalar}

namespace Mapping

theorem distinct_cons : Distinct (e :: m) ↔ m.valueOf? e.1 = none ∧ m.Distinct := by
  rw [Distinct, List.pairwise_cons, valueOf?_eq_none]
  simp only [Scalar.sameKey_comm e.1]
  rfl

theorem valueOf?_of_mem (hm : m.Distinct) (he : e ∈ m) (hk : e.1.sameKey k = true) : m.valueOf? k = some e.2 := by
  induction m with
  | nil => exact absurd he List.not_mem_nil
  | cons e' m ih =>
    obtain ⟨hnone, hm⟩ := distinct_cons.1 hm
    rw [valueOf?_cons]
    rcases List.mem_cons.1 he with rfl | he
    · rw [if_pos hk]
    · rw [if_neg, ih hm he]
      intro hk'
      have hsame := Scalar.sameKey_trans hk (Scalar.sameKey_comm e'.1 k ▸ hk')
      rw [valueOf?_eq_none.1 hnone e he] at hsame
      cases hsame

theorem valueOf?_self (hm : m.Distinct) (he : e ∈ m) : m.valueOf? e.1 = some e.2 :=
  valueOf?_of_mem hm he (Scalar.sameKey_refl e.1)

theorem distinct_set (hm : m.Distinct) (key : Scalar) (v : Value) : (m.set key v).Distinct := by
  cases hkey : m.valueOf? key with
  | none =>
    rw [set_of_none hkey, Distinct, List.pairwise_append]
    refine ⟨hm, List.pairwise_singleton .., fun e he e' he' => ?_⟩
    rw [List.mem_singleton.1 he']
    exact valueOf?_eq_none.1 hkey e he
  | some w =>
    rw [set_of_some hkey, Distinct, List.pairwise_map]
    exact hm

theorem distinct_merge (hbase : base.Distinct) (es : Mapping) : (merge base es).Distinct := by
  induction es generalizing base with
  | nil => rwa [merge]
  | cons e es ih =>
    rw [merge]
    exact ih (distinct_set hbase e.1 _)

theorem valueOf?_merge (hes : es.Distinct) (base : Mapping) (k : Scalar) :
    (merge base es).valueOf? k = overlay (base.valueOf? k) (es.valueOf? k) := by
  induction es generalizing base with
  | nil => rw [merge]; rfl
  | cons e es ih =>
    obtain ⟨hnone, hes⟩ := distinct_cons.1 hes
    rw [merge, ih hes, valueOf?_set, valueOf?_cons]
    split
    · next hk =>
      rw [← valueOf?_congr hk, ← valueOf?_congr hk, hnone]
      rfl
    · rfl

/-! ### Entry by entry -/

/-- The value of a key with that of a mapping over it. -/
def renew (es : Mapping) (k : Scalar) (v : Value) : Value :=
  match es.valueOf? k with
  | none => v
  | some w => mergeValue (some v) w

theorem renew_of_none (h : es.valueOf? k = none) (v : Value) : es.renew k v = v := by
  rw [renew, h]

theorem renew_of_some (h : es.valueOf? k = some w) (v : Value) : es.renew k v = mergeValue (some v) w := by
  rw [renew, h]

theorem renew_cons_of_same (h : e.1.sameKey k = true) (v : Value) : renew (e :: es) k v = mergeValue (some v) e.2 :=
  renew_of_some (by rw [valueOf?_cons, if_pos h]) v

theorem renew_cons_of_not_same (h : e.1.sameKey k = false) (v : Value) : renew (e :: es) k v = es.renew k v := by
  rw [renew, renew, valueOf?_cons, h]
  rfl

theorem merge_eq (hbase : base.Distinct) (hes : es.Distinct) : merge base es =
    (base.map fun e => (e.1, es.renew e.1 e.2)) ++ es.filter fun e => (base.valueOf? e.1).isNone := by
  induction es generalizing base with
  | nil =>
    rw [merge, List.filter_nil, List.append_nil]
    exact (List.map_id' base).symm
  | cons e es ih =>
    obtain ⟨hnone, hes⟩ := distinct_cons.1 hes
    have hother : ∀ e' ∈ es, e.1.sameKey e'.1 = false := by
      intro e' he'
      rw [Scalar.sameKey_comm]
      exact valueOf?_eq_none.1 hnone e' he'
    have hlacks : ∀ v, es.filter (fun e' => ((base.set e.1 v).valueOf? e'.1).isNone) =
        es.filter fun e' => (base.valueOf? e'.1).isNone := by
      intro v
      refine List.filter_congr fun e' he' => ?_
      rw [valueOf?_set, hother e' he']
      rfl
    rw [merge, ih (distinct_set hbase e.1 _) hes, hlacks, List.filter_cons]
    -- `e` goes behind the others or renews the one entry with its key, and no later entry of `es` has that key
    cases hkey : base.valueOf? e.1 with
    | none =>
      rw [set_of_none hkey, List.map_append, List.map_singleton, renew_of_none hnone, mergeValue_none,
        List.append_assoc]
      refine congrArg (· ++ _) (List.map_congr_left fun e' he' => ?_)
      have hsame : e.1.sameKey e'.1 = false := by
        rw [Scalar.sameKey_comm]
        exact valueOf?_eq_none.1 hkey e' he'
      rw [renew_cons_of_not_same hsame]
    | some w =>
      rw [set_of_some hkey, List.map_map]
      refine congrArg (· ++ _) (List.map_congr_left fun e' he' => ?_)
      dsimp only [Function.comp_apply]
      by_cases hsame : e.1.sameKey e'.1 = true
      · have hw : base.valueOf? e.1 = some e'.2 := (valueOf?_congr hsame base).trans (valueOf?_self hbase he')
        cases hkey.symm.trans hw
        rw [renew_cons_of_same hsame, renew_of_none ((valueOf?_congr hsame es).symm.trans hnone),
          if_pos (Scalar.sameKey_comm e.1 e'.1 ▸ hsame)]
      · rw [Bool.not_eq_true] at hsame
        rw [renew_cons_of_not_same hsame, Scalar.sameKey_comm e'.1 e.1, hsame]
        rfl

theorem merge_nil (hes : es.Distinct) : merge [] es = es := by
  rw [merge_eq List.Pairwise.nil hes, List.map_nil, List.nil_append]
  exact List.filter_eq_self.2 fun _ _ => rfl

theorem merge_eq_self (hbase : base.Distinct) (hes : es.Distinct) (hall : ∀ e ∈ es, (base.valueOf? e.1).isSome)
    (hsame : ∀ e ∈ base, ∀ w, es.valueOf? e.1 = some w → mergeValue (some e.2) w = e.2) : merge base es = base := by
  have hnew : es.filter (fun e => (base.valueOf? e.1).isNone) = [] := by
    rw [List.filter_eq_nil_iff]
    intro e he
    rw [Option.isNone_iff_eq_none]
    exact Option.isSome_iff_ne_none.1 (hall e he)
  rw [merge_eq hbase hes, hnew, List.append_nil]
  refine (List.map_congr_left fun e he => ?_).trans (List.map_id' base)
  cases hw : es.valueOf? e.1 with
  | none => rw [renew_of_none hw]
  | some w => rw [renew_of_some hw, hsame e he w hw]

end Mapping

namespace Value

theorem keyedEntries_iff : keyedEntries es ↔ ∀ e ∈ es, e.2.Keyed := by
  induction es with
  | nil => simp [keyedEntries]
  | cons e es ih => rw [keyedEntries, ih, List.forall_mem_cons]

theorem keyed_map_iff : (map es).Keyed ↔ Mapping.Distinct es ∧ ∀ e ∈ es, e.2.Keyed := by
  rw [Keyed, keyedEntries_iff]

theorem keyed_valueOf? (hm : (map m).Keyed) (h : m.valueOf? k = some v) : v.Keyed := by
  obtain ⟨e, he, -, rfl⟩ := Mapping.exists_of_valueOf? h
  exact (keyed_map_iff.1 hm).2 e he

theorem mergeValue_of_map? (h : v.map? = none) (before : Option Value) : Mapping.mergeValue before v = v := by
  rw [Mapping.mergeValue.eq_def]
  split
  · cases h
  · rfl

theorem mergeValue_over (h : w.map? = none) (v : Value) : Mapping.mergeValue (some w) v = v := by
  rw [Mapping.mergeValue.eq_def]
  split
  · next hw =>
    cases hw
    cases h
  · rfl

theorem exists_merge (before : Option Value) (hbefore : ∀ b ∈ before, b.Keyed) (hes : Mapping.Distinct es) :
    ∃ bs, (map bs).Keyed ∧ Mapping.mergeValue before (map es) = map (Mapping.merge bs es) := by
  have hnil : (map []).Keyed := keyed_map_iff.2 ⟨List.Pairwise.nil, fun _ he => absurd he List.not_mem_nil⟩
  cases before with
  | none => exact ⟨[], hnil, by rw [mergeValue_none, Mapping.merge_nil hes]⟩
  | some v =>
    cases hv : v.map? with
    | none => exact ⟨[], hnil, by rw [mergeValue_over hv, Mapping.merge_nil hes]⟩
    | some bs =>
      obtain rfl := map?_eq_some.1 hv
      exact ⟨bs, hbefore _ rfl, mergeValue_map bs es⟩

/-! ### Merging again -/

theorem mergeValue_again (hv : v.Keyed) (before : Option Value) (hbefore : ∀ b ∈ before, b.Keyed) :
    Mapping.mergeValue (some (Mapping.mergeValue before v)) v = Mapping.mergeValue before v := by
  induction v using entries_induction generalizing before with
  | other v hmap => rw [mergeValue_of_map? hmap, mergeValue_of_map? hmap]
  | map es ih =>
    obtain ⟨hes, hall⟩ := keyed_map_iff.1 hv
    obtain ⟨bs, hbs, heq⟩ := exists_merge before hbefore hes
    have hmerged := Mapping.distinct_merge (keyed_map_iff.1 hbs).1 es
    rw [heq, mergeValue_map, Mapping.merge_eq_self hmerged hes]
    · intro e he
      rw [Mapping.valueOf?_merge hes, Mapping.valueOf?_self hes he]
      rfl
    · intro e he w hw
      have hvalue := Mapping.valueOf?_self hmerged he
      rw [Mapping.valueOf?_merge hes, hw] at hvalue
      obtain ⟨e', he', -, rfl⟩ := Mapping.exists_of_valueOf? hw
      rw [← Option.some.inj hvalue]
      exact ih e' he' (hall e' he') _ fun b hb => keyed_valueOf? hbs hb

end Value

theorem Mapping.merge_again (ha : (Value.map a).Keyed) (hb : (Value.map b).Keyed) :
    merge (merge a b) b = merge a b := by
  have hagain := Value.mergeValue_again hb (some (.map a)) fun v hv => by cases hv; exact ha
  rw [mergeValue_map, mergeValue_map] at hagain
  exact Value.map.inj hagain

/-! ### Grouping -/

theorem Mapping.merge_assoc_of (ha : a.Distinct) (hb : b.Distinct) (hc : c.Distinct)
    (h : ∀ e ∈ a, ∀ y z, b.valueOf? e.1 = some y → c.valueOf? e.1 = some z →
      mergeValue (some (mergeValue (some e.2) y)) z = mergeValue (some e.2) (mergeValue (some y) z)) :
    merge (merge a b) c = merge a (merge b c) := by
  have hnew : c.filter (fun e => ((merge a b).valueOf? e.1).isNone) =
      (c.filter fun e => (b.valueOf? e.1).isNone).filter fun e => (a.valueOf? e.1).isNone := by
    rw [List.filter_filter]
    refine List.filter_congr fun e _ => ?_
    rw [valueOf?_merge hb]
    cases b.valueOf? e.1 <;> simp [overlay]
  rw [merge_eq (distinct_merge ha b) hc, hnew, merge_eq ha hb, merge_eq ha (distinct_merge hb c), merge_eq hb hc,
    List.map_append, List.filter_append, List.map_map, List.filter_map, List.append_assoc]
  refine congrArg (· ++ _) (List.map_congr_left fun e he => ?_)
  have hvalue := valueOf?_merge hc b e.1
  rw [← merge_eq hb hc]
  dsimp only [Function.comp_apply]
  cases hy : b.valueOf? e.1 with
  | none =>
    rw [hy] at hvalue
    cases hz : c.valueOf? e.1 with
    | none =>
      rw [hz] at hvalue
      rw [renew_of_none hy, renew_of_none hz, renew_of_none hvalue]
    | some z =>
      rw [hz] at hvalue
      rw [renew_of_none hy, renew_of_some hz, renew_of_some hvalue, mergeValue_none]
  | some y =>
    rw [hy] at hvalue
    cases hz : c.valueOf? e.1 with
    | none =>
      rw [hz] at hvalue
      rw [renew_of_some hy, renew_of_none hz, renew_of_some hvalue]
    | some z =>
      rw [hz] at hvalue
      rw [renew_of_some hy, renew_of_some hz, renew_of_some hvalue, h e he y z hy hz]

namespace Value

theorem compatible_valueOf? (h : (map a).Compatible (map b)) (hx : a.valueOf? k = some x)
    (hy : b.valueOf? k = some y) : x.Compatible y := by
  intro path x' y' hx' hy'
  refine h (k :: path) x' y' ?_ ?_
  · rw [down?, under?, viewIn_nil]
    exact Option.bind_eq_some_iff.2 ⟨x, hx, hx'⟩
  · rw [down?, under?, viewIn_nil]
    exact Option.bind_eq_some_iff.2 ⟨y, hy, hy'⟩

theorem compatible_map (h : ∀ e ∈ a, ∀ y, b.valueOf? e.1 = some y → e.2.Compatible y) :
    (map a).Compatible (map b) := by
  intro path x y hx hy
  cases path with
  | nil =>
    cases hx
    cases hy
    rfl
  | cons k ks =>
    obtain ⟨x', hx', hx⟩ := Option.bind_eq_some_iff.1 hx
    obtain ⟨y', hy', hy⟩ := Option.bind_eq_some_iff.1 hy
    obtain ⟨e, he, hsame, rfl⟩ := Mapping.exists_of_valueOf? hx'
    exact h e he y' ((Mapping.valueOf?_congr hsame b).trans hy') ks x y hx hy

theorem compatible_of_map? (hv : v.map? = none) (hw : w.map? = none) : v.Compatible w := by
  intro path x y hx hy
  cases path with
  | nil =>
    cases hx
    cases hy
    rw [hv, hw]
  | cons k ks =>
    rw [down?, under?, viewIn_nil, hv] at hx
    cases hx

theorem Compatible.exists_map (h : (map m).Compatible w) : ∃ m', w = map m' := by
  obtain ⟨m', hm'⟩ := Option.isSome_iff_exists.1 ((h [] _ w rfl rfl).1 rfl)
  exact ⟨m', map?_eq_some.1 hm'⟩

theorem Compatible.map?_eq_none (h : v.Compatible w) (hv : v.map? = none) : w.map? = none := by
  rw [← Option.not_isSome_iff_eq_none, ← h [] v w rfl rfl, hv]
  exact Bool.false_ne_true

theorem mergeValue_assoc (hx : x.Keyed) (hy : y.Keyed) (hz : z.Keyed) (hxy : x.Compatible y) (hxz : x.Compatible z)
    (hyz : y.Compatible z) : Mapping.mergeValue (some (Mapping.mergeValue (some x) y)) z =
      Mapping.mergeValue (some x) (Mapping.mergeValue (some y) z) := by
  induction x using entries_induction generalizing y z with
  | other x hmap =>
    have hznone := hxz.map?_eq_none hmap
    rw [mergeValue_of_map? hznone, mergeValue_of_map? hznone, mergeValue_of_map? hznone]
  | map as ih =>
    obtain ⟨bs, rfl⟩ := hxy.exists_map
    obtain ⟨cs, rfl⟩ := hxz.exists_map
    obtain ⟨has, hall⟩ := keyed_map_iff.1 hx
    simp only [mergeValue_map]
    refine congrArg map (Mapping.merge_assoc_of has (keyed_map_iff.1 hy).1 (keyed_map_iff.1 hz).1
      fun e he v w hv hw => ?_)
    have hself := Mapping.valueOf?_self has he
    exact ih e he (hall e he) (keyed_valueOf? hy hv) (keyed_valueOf? hz hw) (compatible_valueOf? hxy hself hv)
      (compatible_valueOf? hxz hself hw) (compatible_valueOf? hyz hv hw)

end Value

theorem Mapping.merge_assoc (ha : (Value.map a).Keyed) (hb : (Value.map b).Keyed) (hc : (Value.map c).Keyed)
    (hab : (Value.map a).Compatible (.map b)) (hac : (Value.map a).Compatible (.map c))
    (hbc : (Value.map b).Compatible (.map c)) : merge (merge a b) c = merge a (merge b c) := by
  have hassoc := Value.mergeValue_assoc ha hb hc hab hac hbc
  simp only [mergeValue_map] at hassoc
  exact Value.map.inj hassoc

/-! ### Paths -/

namespace Value

theorem down?_map_cons (m : Mapping) (k : Scalar) (ks : List Scalar) :
    (map m).down? [] (k :: ks) = (m.valueOf? k).bind (down? [] ks) :=
  rfl

/-- What stands at the end of a path of the second mapping, if it is no mapping, stands there after a merge. -/
theorem down?_merge_of_some (hbase : (map base).Keyed) (hes : (map es).Keyed)
    (hv : (map es).down? [] path = some v) (hmap : v.map? = none) :
    (map (Mapping.merge base es)).down? [] path = some v := by
  induction path generalizing base es with
  | nil =>
    cases hv
    cases hmap
  | cons k ks ih =>
    rw [down?_map_cons] at hv ⊢
    obtain ⟨w, hw, hv⟩ := Option.bind_eq_some_iff.1 hv
    have hwkeyed := keyed_valueOf? hes hw
    rw [Mapping.valueOf?_merge (keyed_map_iff.1 hes).1, hw]
    change (Mapping.mergeValue (base.valueOf? k) w).down? [] ks = some v
    cases hwmap : w.map? with
    | none => rwa [mergeValue_of_map? hwmap]
    | some ws =>
      obtain rfl := map?_eq_some.1 hwmap
      obtain ⟨bs, hbs, heq⟩ := exists_merge (base.valueOf? k) (fun b hb => keyed_valueOf? hbase hb)
        (keyed_map_iff.1 hwkeyed).1
      rw [heq]
      exact ih hbs hwkeyed hv

/-- What stands at the end of a path of the first mapping stays there, unless the second one has something there or
has something else than a mapping on the way. -/
theorem down?_merge_of_none (hes : (map es).Keyed) (hv : (map base).down? [] path = some v)
    (hnone : (map es).down? [] path = none)
    (hway : ∀ p w, p <+: path → (map es).down? [] p = some w → w.map?.isSome) :
    (map (Mapping.merge base es)).down? [] path = some v := by
  induction path generalizing base es with
  | nil => cases hnone
  | cons k ks ih =>
    rw [down?_map_cons] at hv hnone ⊢
    obtain ⟨w, hw, hv⟩ := Option.bind_eq_some_iff.1 hv
    rw [Mapping.valueOf?_merge (keyed_map_iff.1 hes).1, hw]
    cases hu : es.valueOf? k with
    | none => exact hv
    | some u =>
      rw [hu, Option.bind_some] at hnone
      change (Mapping.mergeValue (some w) u).down? [] ks = some v
      obtain ⟨us, hus⟩ := Option.isSome_iff_exists.1 (hway [k] u (List.prefix_append [k] ks) (by
        rw [down?_map_cons, hu]
        rfl))
      obtain rfl := map?_eq_some.1 hus
      cases hwmap : w.map? with
      | none =>
        -- nothing stands below what is no mapping
        cases ks with
        | nil => cases hnone
        | cons k' ks =>
          rw [down?, under?, viewIn_nil, hwmap] at hv
          cases hv
      | some ws =>
        obtain rfl := map?_eq_some.1 hwmap
        rw [mergeValue_map]
        refine ih (keyed_valueOf? hes hu) hv hnone fun p u' hp hu' => hway (k :: p) u' ?_ ?_
        · exact List.cons_prefix_cons.2 ⟨rfl, hp⟩
        · rw [down?_map_cons, hu]
          exact hu'

end Value

/-! ### Documents without parts -/

namespace Value

theorem entriesPlain_iff : entriesPlain es = true ↔ ∀ e ∈ es, e.2.isPlain = true := by
  induction es with
  | nil => simp [entriesPlain]
  | cons e es ih => rw [entriesPlain, Bool.and_eq_true, ih, List.forall_mem_cons]

theorem entriesPlain_set (hm : entriesPlain m = true) (hv : v.isPlain = true) (key : Scalar) :
    entriesPlain (m.set key v) = true := by
  rw [entriesPlain_iff] at hm ⊢
  intro e he
  rcases Mapping.mem_of_mem_set he with he | heq
  · exact hm e he
  · rw [heq]
    exact hv

theorem isPlain_valueOf? (hm : entriesPlain m = true) (h : m.valueOf? k = some v) : v.isPlain = true := by
  obtain ⟨e, he, -, rfl⟩ := Mapping.exists_of_valueOf? h
  exact entriesPlain_iff.1 hm e he

mutual

theorem isPlain_mergeValue (before : Option Value) (hbefore : ∀ b ∈ before, b.isPlain = true) :
    (v : Value) → v.isPlain = true → (Mapping.mergeValue before v).isPlain = true
  | map es, hes => by
    cases before with
    | none => rwa [mergeValue_none]
    | some w =>
      cases hw : w.map? with
      | none => rwa [mergeValue_over hw]
      | some bs =>
        obtain rfl := map?_eq_some.1 hw
        rw [mergeValue_map]
        exact entriesPlain_merge bs (hbefore _ rfl) es hes
  | scalar _, h | list _, h | set _, h | pair _ _, h => by rwa [mergeValue_of_map? rfl]

theorem entriesPlain_merge (base : Mapping) (hbase : entriesPlain base = true) :
    (es : Mapping) → entriesPlain es = true → entriesPlain (Mapping.merge base es) = true
  | [], _ => by rwa [Mapping.merge]
  | (k, v) :: es, hes => by
    rw [entriesPlain, Bool.and_eq_true] at hes
    have hv := isPlain_mergeValue (base.valueOf? k) (fun b hb => isPlain_valueOf? hbase hb) v hes.1
    rw [Mapping.merge]
    exact entriesPlain_merge _ (entriesPlain_set hbase hv k) es hes.2

end

end Value

namespace Document

theorem copy_of_isPlain (h : v.isPlain = true) : copy ⟨v, []⟩ = ⟨v, []⟩ := by
  rw [copy, Value.shiftParts, Value.mapParts_of_isPlain _ v h]
  rfl

mutual

theorem mergeUnder_of_isPlain (m : Mapping) (hm : Value.entriesPlain m = true) (key : Scalar) :
    (v : Value) → v.isPlain = true →
      mergeUnder ⟨.map m, []⟩ key v = ⟨.map (m.set key (Mapping.mergeValue (m.valueOf? key) v)), []⟩
  | .map es, hes => by
    rw [mergeUnder]
    have hentries : entries ⟨.map m, []⟩ = m := rfl
    dsimp only
    rw [hentries, view, Value.viewIn_nil]
    cases hkey : m.valueOf? key with
    | none => rw [mergeValue_none]; rfl
    | some before =>
      rw [Option.getD_some]
      cases hmap : before.map? with
      | none =>
        rw [Value.mergeValue_over hmap]
        cases before with
        | map bs => cases hmap
        | _ => rfl
      | some bs =>
        obtain rfl := Value.map?_eq_some.1 hmap
        have hbs := Value.isPlain_valueOf? hm hkey
        dsimp only
        rw [copy_of_isPlain hbs, mergeAll_of_isPlain bs hbs es hes, mergeValue_map]
        rfl
  | .scalar _, _ | .list _, _ | .set _, _ | .pair _ _, _ => by
    rw [Value.mergeValue_of_map? rfl]
    rfl

theorem mergeAll_of_isPlain (m : Mapping) (hm : Value.entriesPlain m = true) :
    (es : Mapping) → Value.entriesPlain es = true → mergeAll ⟨.map m, []⟩ es = ⟨.map (Mapping.merge m es), []⟩
  | [], _ => by rw [mergeAll, Mapping.merge]
  | (k, v) :: es, hes => by
    rw [Value.entriesPlain, Bool.and_eq_true] at hes
    have hv := Value.isPlain_mergeValue (m.valueOf? k) (fun b hb => Value.isPlain_valueOf? hm hb) v hes.1
    rw [mergeAll, mergeUnder_of_isPlain m hm k v hes.1, mergeAll_of_isPlain _ (Value.entriesPlain_set hm hv k) es hes.2,
      Mapping.merge]

end

/-- A document without parts is merged as its value is. -/
theorem merge_of_isPlain (hm : Value.entriesPlain m = true) (hes : Value.entriesPlain es = true) :
    merge ⟨.map m, []⟩ es = ⟨.map (Mapping.merge m es), []⟩ := by
  have hcopy : copy ⟨.map m, []⟩ = ⟨.map m, []⟩ := copy_of_isPlain hm
  rw [merge, hcopy, mergeAll_of_isPlain m hm es hes]

end Document

/-- The laws of merging: the empty mapping changes nothing on either side, and a second merge of the same mapping
nothing more. What is no mapping stands where the second side has it, and what the second side neither has nor
replaces on the way stays. Merges can be grouped in any way if no path leads to a mapping in one of three mappings and
to something else in another. -/
theorem Mapping.merge_laws (ha : (Value.map a).Keyed) (hb : (Value.map b).Keyed) (hc : (Value.map c).Keyed) :
    merge [] b = b ∧ merge a [] = a ∧ merge (merge a b) b = merge a b ∧
    (∀ path v, (Value.map b).down? [] path = some v → v.map? = none →
      (Value.map (merge a b)).down? [] path = some v) ∧
    (∀ path v, (Value.map a).down? [] path = some v → (Value.map b).down? [] path = none →
      (∀ p w, p <+: path → (Value.map b).down? [] p = some w → w.map?.isSome) →
      (Value.map (merge a b)).down? [] path = some v) ∧
    ((Value.map a).Compatible (.map b) → (Value.map a).Compatible (.map c) → (Value.map b).Compatible (.map c) →
      merge (merge a b) c = merge a (merge b c)) := by
  refine ⟨merge_nil (Value.keyed_map_iff.1 hb).1, rfl, merge_again ha hb, fun path v hv hmap => ?_,
    fun path v hv hnone hway => ?_, fun hab hac hbc => merge_assoc ha hb hc hab hac hbc⟩
  · exact Value.down?_merge_of_some ha hb hv hmap
  · exact Value.down?_merge_of_none hb hv hnone hway

theorem Mapping.merge_laws_of_handlers :
    let a : Mapping := [(.text "level", .text "INFO"),
      (.text "console", .map [(.text "enabled", .bool true), (.text "stream", .text "stderr")])]
    let b : Mapping := [(.text "file", .map [(.text "path", .text "a.log")]), (.bool true, .text "on")]
    let c : Mapping := [(.int 1, .text "off"), (.text "console", .map [(.text "enabled", .bool false)])]
    (Value.map a).Keyed ∧ (Value.map b).Keyed ∧ (Value.map c).Keyed ∧
      (Value.map a).Compatible (.map b) ∧ (Value.map a).Compatible (.map c) ∧ (Value.map b).Compatible (.map c) ∧
      merge (merge a b) c = merge a (merge b c) ∧ merge (merge a b) b = merge a b ∧
      merge a (merge b c) = [(.text "level", .text "INFO"),
        (.text "console", .map [(.text "enabled", .bool false), (.text "stream", .text "stderr")]),
        (.text "file", .map [(.text "path", .text "a.log")]), (.bool true, .text "off")] := by
  intro a b c
  have hkeyed : (Value.map a).Keyed ∧ (Value.map b).Keyed ∧ (Value.map c).Keyed := by
    simp [a, b, c, Value.Keyed, Value.keyedEntries, Distinct, Scalar.sameKey, Scalar.number?]
  obtain ⟨ha, hb, hc⟩ := hkeyed
  have hscalar : ∀ s t, (Value.scalar s).Compatible (.scalar t) := fun s t => Value.compatible_of_map? rfl rfl
  have hconsole : (Value.map [(.text "enabled", .bool true), (.text "stream", .text "stderr")]).Compatible
      (.map [(.text "enabled", .bool false)]) :=
    Value.compatible_map (by simp [valueOf?, Scalar.sameKey, Scalar.number?, hscalar])
  have hab : (Value.map a).Compatible (.map b) :=
    Value.compatible_map (by simp [a, b, valueOf?, Scalar.sameKey, Scalar.number?])
  have hac : (Value.map a).Compatible (.map c) :=
    Value.compatible_map (by simp [a, c, valueOf?, Scalar.sameKey, Scalar.number?, hconsole])
  have hbc : (Value.map b).Compatible (.map c) :=
    Value.compatible_map (by simp [b, c, valueOf?, Scalar.sameKey, Scalar.number?, hscalar])
  obtain ⟨-, -, hagain, -, -, hassoc⟩ := merge_laws ha hb hc
  exact ⟨ha, hb, hc, hab, hac, hbc, hassoc hab hac hbc, hagain, rfl⟩

end FeedOutline.Data
