import FeedOutline.Proofs.Data.Document

/-!
Places in a document. A change of the mapping at one place is seen by those keys that lead to it, and by no
others.
-/
namespace FeedOutline.Data

open Value (changeAt)

/-- Whether what stands at one place is the other or holds it, with no part of its own between them. -/
def Place.Covers (p q : Place) : Prop :=
  p.part? = q.part? ∧ p.keys <+: q.keys

instance (p q : Place) : Decidable (p.Covers q) :=
  inferInstanceAs (Decidable (_ ∧ _))

namespace Document

def root? (d : Document) : Option Nat → Option Value
  | none => some d.value
  | some n => d.parts[n]?

def stored? (d : Document) (p : Place) : Option Value :=
  (d.root? p.part?).bind (Value.at? [] p.keys)

def follow (d : Document) : List String → Place → Option Place
  | [], p => some p
  | k :: ks, p => (d.stored? (p.under k)).bind fun v => d.follow ks (placeOf (p.under k) v)

end Document

variable {changed ks ls : List String} {k : String} {m : Mapping} {v w : Value} {p q : Place} {d : Document}
  {f : Mapping → Mapping}

theorem Mapping.get?_map_of_key (g : Value → Value) (key : String) (m : Mapping) (k : String) :
    Mapping.get? (m.map fun e => if e.1 == .text key then (e.1, g e.2) else e) k =
      if k = key then (Mapping.get? m k).map g else Mapping.get? m k := by
  induction m with
  | nil => split <;> rfl
  | cons e m ih =>
    rw [List.map_cons, Mapping.get?_cons, Mapping.get?_cons, ih]
    by_cases he : e.1 = .text key
    · by_cases hk : key = k
      · subst hk
        simp [he]
      · simp [he, hk, Ne.symm hk]
    · by_cases hk : k = key
      · subst hk
        simp [he]
      · simp [he, hk]

theorem Value.at?_changeAt (hf : ∀ k ∉ changed, ∀ m, Mapping.get? (f m) k = Mapping.get? m k)
    (h : ∀ k ∈ changed, ¬ ks ++ [k] <+: ls) : (v.changeAt f ks).at? [] ls =
      (v.at? [] ls).map fun w => if ls <+: ks then w.changeAt f (ks.drop ls.length) else w := by
  induction ls generalizing ks v with
  | nil => simp [at?]
  | cons l ls ih =>
    cases v with
    | map m =>
      cases ks with
      | nil =>
        have hl : l ∉ changed := fun hl => h l hl (by simp)
        rw [changeAt, at?, at?, get?_map, get?_map, hf l hl]
        simp
      | cons k ks =>
        rw [changeAt, at?, at?, get?_map, get?_map, Mapping.get?_map_of_key]
        split
        · next hlk =>
          subst hlk
          cases Mapping.get? m l with
          | none => rfl
          | some w =>
            have hbelow : ∀ k' ∈ changed, ¬ ks ++ [k'] <+: ls := fun k' hk' hprefix =>
              h k' hk' (List.cons_prefix_cons.2 ⟨rfl, hprefix⟩)
            rw [Option.map_some, Option.bind_some, Option.bind_some, ih hbelow]
            simp [List.cons_prefix_cons]
        · next hlk => simp [List.cons_prefix_cons, hlk]
    | _ => cases ks <;> rfl

namespace Document

theorem placeOf_eq (here : Place) (v : Value) : placeOf here v = (v.part?.map fun n => ⟨some n, []⟩).getD here := by
  cases v <;> rfl

theorem follow_append (d : Document) (ks ls : List String) (q : Place) :
    d.follow (ks ++ ls) q = (d.follow ks q).bind (d.follow ls) := by
  induction ks generalizing q with
  | nil => rfl
  | cons k ks ih =>
    rw [List.cons_append, follow, follow, Option.bind_assoc]
    exact Option.bind_congr fun v _ => ih _

theorem stored?_start (d : Document) : d.stored? {} = some d.value :=
  rfl

theorem stored?_under (d : Document) (p : Place) (k : String) :
    d.stored? (p.under k) = (d.stored? p).bind (Value.get? [] k) := by
  rw [stored?, stored?, Option.bind_assoc, Place.under]
  refine Option.bind_congr fun v _ => ?_
  rw [Value.at?_append]
  exact Option.bind_congr fun w _ => Value.at?_singleton w k

theorem stored?_part (d : Document) (q : Place) (n : Nat) (isMap : Bool) :
    d.stored? (placeOf q (.part n isMap)) = d.parts[n]? := by
  rw [placeOf, stored?, root?]
  cases d.parts[n]? <;> rfl

theorem notMem_placeOf (hq : ∀ k ∈ changed, k ∉ q.keys) (v : Value) :
    ∀ k ∈ changed, k ∉ (placeOf q v).keys := by
  rw [placeOf_eq]
  cases v.part? with
  | none => exact hq
  | some n => exact fun _ _ hmem => List.not_mem_nil hmem

theorem notMem_under (hq : ∀ k ∈ changed, k ∉ q.keys) (hk : k ∉ changed) :
    ∀ k' ∈ changed, k' ∉ (q.under k).keys := by
  intro k' hk' hmem
  rcases List.mem_append.1 hmem with hmem | hmem
  · exact hq k' hk' hmem
  · rw [List.mem_singleton.1 hmem] at hk'
    exact hk hk'

theorem get?_eq_stored? (h : d.stored? q = some v) (k : String) :
    v.get? d.parts k = d.stored? ((placeOf q v).under k) := by
  rw [stored?_under]
  cases hpart : v.part? with
  | none =>
    rw [placeOf_of_part? hpart, h, Option.bind_some, Value.get?, Value.get?, Value.viewIn_of_part? hpart,
      Value.viewIn_nil]
  | some n =>
    cases v with
    | part i isMap =>
      rw [stored?_part, Value.get?, Value.viewIn_part]
      cases d.parts[i]? with
      | none => rfl
      | some w =>
        rw [Option.getD_some, Option.bind_some, Value.get?, Value.viewIn_nil]
    | _ => cases hpart

/-- The last key is looked up at the place to which the others lead. -/
theorem at?_eq_follow (h : d.stored? q = some v) (ks : List String) (k : String) :
    v.at? d.parts (ks ++ [k]) = (d.follow ks (placeOf q v)).bind fun p => d.stored? (p.under k) := by
  induction ks generalizing q v with
  | nil =>
    rw [List.nil_append, Value.at?_singleton, get?_eq_stored? h]
    rfl
  | cons k' ks ih =>
    rw [List.cons_append, Value.at?, follow, get?_eq_stored? h, Option.bind_assoc]
    exact Option.bind_congr fun w hw => ih hw

theorem exists_of_follow (ks : List String) (h : d.follow (ks ++ [k]) d.start = some p) :
    ∃ q v, d.follow ks d.start = some q ∧ d.at? (ks ++ [k]) = some v ∧ p = placeOf (q.under k) v := by
  rw [follow_append] at h
  obtain ⟨q, hq, h⟩ := Option.bind_eq_some_iff.1 h
  obtain ⟨v, hv, h⟩ := Option.bind_eq_some_iff.1 h
  cases h
  refine ⟨q, v, hq, ?_, rfl⟩
  rw [at?, at?_eq_follow (stored?_start d)]
  exact Option.bind_eq_some_iff.2 ⟨q, hq, hv⟩

theorem keys_follow (h : d.follow ks q = some p) : ∀ k ∈ p.keys, k ∈ q.keys ∨ k ∈ ks := by
  induction ks generalizing q with
  | nil =>
    cases h
    exact fun k hk => .inl hk
  | cons k' ks ih =>
    obtain ⟨v, -, hfollow⟩ := Option.bind_eq_some_iff.1 h
    intro k hk
    rcases ih hfollow k hk with hk | hk
    · rw [placeOf_eq] at hk
      cases hpart : v.part? with
      | none =>
        rw [hpart] at hk
        rcases List.mem_append.1 hk with hk | hk
        · exact .inl hk
        · exact .inr (List.mem_cons.2 (.inl (List.mem_singleton.1 hk)))
      | some n =>
        rw [hpart] at hk
        cases hk
    · exact .inr (List.mem_cons_of_mem _ hk)

theorem child?_eq_none (h : d.child? p m k = none) : Mapping.get? m k = none :=
  Option.map_eq_none_iff.1 h

theorem map?_viewIn (h : d.stored? q = some v) :
    (v.viewIn d.parts).map? = (d.stored? (placeOf q v)).bind Value.map? := by
  cases v with
  | part n isMap =>
    rw [stored?_part, Value.viewIn_part]
    cases d.parts[n]? <;> rfl
  | _ => exact (congrArg (Option.bind · Value.map?) h).symm

theorem child?_eq_map {sub : Mapping} (hp : d.stored? p = some (.map m)) (h : d.child? p m k = some (q, .map sub)) :
    d.follow [k] p = some q ∧ d.stored? q = some (.map sub) := by
  obtain ⟨v, hv, heq⟩ := Option.map_eq_some_iff.1 h
  rw [Prod.mk.injEq] at heq
  obtain ⟨rfl, hview⟩ := heq
  have hstored : d.stored? (p.under k) = some v := by
    rw [stored?_under, hp]
    exact hv
  refine ⟨Option.bind_eq_some_iff.2 ⟨v, hstored, rfl⟩, ?_⟩
  have hmap := map?_viewIn hstored
  rw [← view, hview] at hmap
  obtain ⟨w, hw, hsub⟩ := Option.bind_eq_some_iff.1 hmap.symm
  rw [hw, Value.map?_eq_some.1 hsub]

theorem follow_ne_start (ks : List String) (h : d.follow (ks ++ [k]) q = some p) : p ≠ {} := by
  rw [follow_append] at h
  obtain ⟨r, -, h⟩ := Option.bind_eq_some_iff.1 h
  obtain ⟨v, -, h⟩ := Option.bind_eq_some_iff.1 h
  cases h
  rw [placeOf_eq]
  intro heq
  cases hpart : v.part? with
  | some n =>
    rw [hpart] at heq
    cases heq
  | none =>
    rw [hpart] at heq
    exact List.cons_ne_nil _ _ (List.append_eq_nil_iff.1 (congrArg Place.keys heq)).2

/-! ### Changes at a place -/

theorem start_change (d : Document) (f : Mapping → Mapping) (p : Place) : (d.change f p).start = d.start := by
  obtain ⟨_ | n, ks⟩ := p
  · rw [start, start, placeOf_eq, placeOf_eq, change_none, Value.part?_changeAt]
  · rfl

theorem stored?_change (hf : ∀ k ∉ changed, ∀ m, Mapping.get? (f m) k = Mapping.get? m k)
    (h : ∀ k ∈ changed, ¬ (p.under k).Covers q) : (d.change f p).stored? q =
      (d.stored? q).map fun w => if q.Covers p then w.changeAt f (p.keys.drop q.keys.length) else w := by
  obtain ⟨n, ks⟩ := p
  obtain ⟨i, ls⟩ := q
  have hroot : (d.change f ⟨n, ks⟩).root? i = (d.root? i).map fun v => if n = i then v.changeAt f ks else v := by
    cases n with
    | none => cases i <;> simp [change_none, root?]
    | some n =>
      cases i with
      | none => simp [change_some, root?]
      | some i => simp [change_some, root?, List.getElem?_modify]
  rw [stored?, stored?, hroot, Option.bind_map, Option.map_bind]
  refine Option.bind_congr fun v _ => ?_
  dsimp only [Function.comp_apply]
  by_cases hi : n = i
  · subst hi
    have hbelow : ∀ k ∈ changed, ¬ ks ++ [k] <+: ls := fun k hk hprefix => h k hk ⟨rfl, hprefix⟩
    rw [if_pos rfl, Value.at?_changeAt hf hbelow]
    simp [Place.Covers]
  · have hcovers : ¬ Place.Covers ⟨i, ls⟩ ⟨n, ks⟩ := fun hc => hi hc.1.symm
    simp [hi, hcovers]

theorem not_covers_of_notMem (h : k ∉ q.keys) : ¬ (p.under k).Covers q :=
  fun hc => h (hc.2.subset (List.mem_append_right _ (List.mem_singleton_self k)))

theorem follow_change (hf : ∀ k ∉ changed, ∀ m, Mapping.get? (f m) k = Mapping.get? m k)
    (hq : ∀ k ∈ changed, k ∉ q.keys) (hks : ∀ k ∈ changed, k ∉ ks) :
    (d.change f p).follow ks q = d.follow ks q := by
  induction ks generalizing q with
  | nil => rfl
  | cons k ks ih =>
    have hunder := notMem_under hq fun hk => hks k hk (List.mem_cons_self ..)
    rw [follow, follow, stored?_change hf fun k' hk' => not_covers_of_notMem (hunder k' hk'), Option.bind_map]
    refine Option.bind_congr fun v _ => ?_
    have hplace : ∀ w : Value, w.part? = v.part? → placeOf (q.under k) w = placeOf (q.under k) v := by
      intro w hw
      rw [placeOf_eq, placeOf_eq, hw]
    dsimp only [Function.comp_apply]
    rw [hplace]
    · exact ih (notMem_placeOf hunder v) fun k' hk' hmem => hks k' hk' (List.mem_cons_of_mem _ hmem)
    · split
      · exact Value.part?_changeAt
      · rfl

theorem isSome_viewIn_change {v' : Value} (hf : ∀ k ∉ changed, ∀ m, Mapping.get? (f m) k = Mapping.get? m k)
    (hq : ∀ k ∈ changed, k ∉ q.keys) (hv : d.stored? q = some v) (hv' : (d.change f p).stored? q = some v')
    (hpart : v'.part? = v.part?) :
    (v'.viewIn (d.change f p).parts).map?.isSome = (v.viewIn d.parts).map?.isSome := by
  have hplace : placeOf q v' = placeOf q v := by
    rw [placeOf_eq, placeOf_eq, hpart]
  rw [map?_viewIn hv', map?_viewIn hv, hplace,
    stored?_change hf fun k hk => not_covers_of_notMem (notMem_placeOf hq v k hk), Option.bind_map]
  cases d.stored? (placeOf q v) with
  | none => rfl
  | some w =>
    dsimp only [Option.bind_some, Function.comp_apply]
    split
    · exact Value.isSome_map?_changeAt
    · rfl

theorem maps_change_from {v' : Value} (hf : ∀ k ∉ changed, ∀ m, Mapping.get? (f m) k = Mapping.get? m k)
    (hq : ∀ k ∈ changed, k ∉ q.keys) (hks : ∀ k ∈ changed, k ∉ ks) (hv : d.stored? q = some v)
    (hv' : (d.change f p).stored? q = some v') (hpart : v'.part? = v.part?) (h : v.Maps d.parts ks) :
    v'.Maps (d.change f p).parts ks := by
  induction ks generalizing q v v' with
  | nil => exact (isSome_viewIn_change hf hq hv hv' hpart).trans h
  | cons k ks ih =>
    refine ⟨(isSome_viewIn_change hf hq hv hv' hpart).trans h.1, fun w' hw' => ?_⟩
    have hunder := notMem_under (notMem_placeOf hq v) fun hk => hks k hk (List.mem_cons_self ..)
    have hplace : placeOf q v' = placeOf q v := by
      rw [placeOf_eq, placeOf_eq, hpart]
    have hstored : (d.change f p).stored? ((placeOf q v).under k) = some w' := by
      rw [← hplace, ← get?_eq_stored? hv']
      exact hw'
    have hchange := hstored
    rw [stored?_change hf fun k' hk' => not_covers_of_notMem (hunder k' hk')] at hchange
    obtain ⟨w, hw, hsame⟩ := Option.map_eq_some_iff.1 hchange
    have hwpart : w'.part? = w.part? := by
      rw [← hsame]
      split
      · exact Value.part?_changeAt
      · rfl
    exact ih hunder (fun k' hk' hmem => hks k' hk' (List.mem_cons_of_mem _ hmem)) hw hstored hwpart
      (h.2 w ((get?_eq_stored? hv k).trans hw))

theorem maps_change (hf : ∀ k ∉ changed, ∀ m, Mapping.get? (f m) k = Mapping.get? m k)
    (hks : ∀ k ∈ changed, k ∉ ks) (h : d.Maps ks) : (d.change f p).Maps ks :=
  maps_change_from (q := {}) hf (fun _ _ => List.not_mem_nil) hks (stored?_start d) (stored?_start _)
    (part?_value_change f p d) h

theorem at?_change (ks : List String) (hp : d.stored? p = some (.map m))
    (hf : ∀ k ∉ changed, ∀ m, Mapping.get? (f m) k = Mapping.get? m k) (hks : ∀ k ∈ changed, k ∉ ks)
    (hk : k ∉ p.keys) : (d.change f p).at? (ks ++ [k]) =
      if d.follow ks d.start = some p then Mapping.get? (f m) k else d.at? (ks ++ [k]) := by
  have hstart : ∀ k ∈ changed, k ∉ d.start.keys := notMem_placeOf (fun _ _ => List.not_mem_nil) d.value
  rw [at?, at?_eq_follow (stored?_start _), at?, at?_eq_follow (stored?_start _)]
  change ((d.change f p).follow ks (d.change f p).start).bind _ = if _ then _ else (d.follow ks d.start).bind _
  rw [start_change, follow_change hf hstart hks]
  cases hfollow : d.follow ks d.start with
  | none => simp
  | some r =>
    rw [Option.bind_some, Option.bind_some]
    by_cases hr : r = p
    · subst hr
      have hself : ∀ k ∈ changed, ¬ (r.under k).Covers r := by
        rintro k - ⟨-, hprefix⟩
        have hle := hprefix.length_le
        rw [Place.under, List.length_append, List.length_singleton] at hle
        omega
      have hcovers : r.Covers r := ⟨rfl, List.prefix_rfl⟩
      rw [if_pos rfl, stored?_under, stored?_change hf hself, hp, Option.map_some, if_pos hcovers, List.drop_length,
        Option.bind_some]
      rfl
    · -- a place below the changed mapping would have a changed key on its way
      have hkeys := keys_follow hfollow
      have hother : ∀ k' ∈ changed, ¬ (p.under k').Covers (r.under k) := by
        rintro k' hk' ⟨hpart, hprefix⟩
        rcases List.prefix_concat_iff.1 hprefix with heq | hprefix
        · refine hr ?_
          obtain ⟨pn, pks⟩ := p
          obtain ⟨rn, rks⟩ := r
          cases hpart
          exact congrArg (Place.mk pn) (List.append_inj' heq rfl).1.symm
        · have hmem : k' ∈ r.keys := hprefix.subset (List.mem_append_right _ (List.mem_singleton_self k'))
          exact (hkeys k' hmem).elim (hstart k' hk') (hks k' hk')
      have hcovers : ¬ (r.under k).Covers p := fun hc =>
        hk (hc.2.subset (List.mem_append_right _ (List.mem_singleton_self k)))
      rw [if_neg (by simpa using hr), stored?_change hf hother]
      simp [hcovers]

theorem at?_change_singleton (hp : d.stored? p = some (.map m))
    (hf : ∀ k ∉ changed, ∀ m, Mapping.get? (f m) k = Mapping.get? m k) (hne : p ≠ d.start) (hk : k ∉ p.keys) :
    (d.change f p).at? [k] = d.at? [k] := by
  have hchange := at?_change [] hp hf (fun _ _ => List.not_mem_nil) hk
  rwa [if_neg (by rintro ⟨⟩; exact hne rfl)] at hchange

theorem exists_map_change (h : ∃ m, d.value = .map m) : ∃ m, (d.change f p).value = .map m := by
  obtain ⟨m, hm⟩ := h
  obtain ⟨_ | n, _ | ⟨k, ks⟩⟩ := p
  · exact ⟨f m, by rw [change_none, hm]; rfl⟩
  · exact ⟨_, by rw [change_none, hm]; rfl⟩
  · exact ⟨m, hm⟩
  · exact ⟨m, hm⟩

end Document

end FeedOutline.Data
