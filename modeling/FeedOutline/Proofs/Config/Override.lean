import FeedOutline.Proofs.Config.Escape
import FeedOutline.Proofs.Config.Variable
import FeedOutline.Proofs.Data.Sharing

/-!
What the environment makes of a configuration, key by key. Where no section that a variable names stands
elsewhere too, each variable changes its own key alone, in whatever order they come.
-/
namespace FeedOutline.Config

open Data (Value Mapping Scalar Document)

def sectionOf (m : Mapping) (name : String) : Mapping :=
  ((m.get? name).bind Value.map?).getD []

/-- Sets a key of a section in a mapping that shares nothing. -/
def Override.put (m : Mapping) (o : Override) : Mapping :=
  Mapping.put m o.sectionName (.map (Mapping.put (sectionOf m o.sectionName) o.key o.value))

variable {d : Document} {m es : Mapping} {v : Value} {name : String} {o : Override} {os : List Override}
  {P : String → Prop} {n depth k : Nat}

/-! One override. -/

theorem apply_cases (hd : d.Sound) (hm : d.view d.value = .map m) (o : Override) :
    (∃ es, (Mapping.get? m o.sectionName = some (.map es) ∨
        es = [] ∧ ∀ v, Mapping.get? m o.sectionName = some v → (d.view v).map? = none) ∧
      Override.apply d o = d.set (.text o.sectionName) (.map (Mapping.put es o.key o.value))) ∨
    ∃ v n es, Mapping.get? m o.sectionName = some v ∧ v.part? = some n ∧ d.view v = .map es ∧
      Override.apply d o = d.change (·.put o.key o.value) ⟨some n, []⟩ := by
  have hnodup := (Value.proper_map_iff.1 (Document.proper_of_view hd hm)).1
  unfold Override.apply Document.child?
  rw [Document.entries_of_view hm]
  cases hget : Mapping.get? m o.sectionName with
  | none => exact .inl ⟨[], .inr ⟨rfl, nofun⟩, rfl⟩
  | some v =>
    rw [Option.map_some]
    split
    · next place es heq =>
      rw [Option.some.injEq, Prod.mk.injEq] at heq
      obtain ⟨rfl, hview⟩ := heq
      cases hpart : v.part? with
      | none =>
        obtain rfl : v = .map es := (Value.viewIn_of_part? hpart).symm.trans hview
        exact .inl ⟨es, .inl rfl, Document.change_under_start hm hnodup hget⟩
      | some n =>
        refine .inr ⟨v, n, es, rfl, hpart, hview, ?_⟩
        rw [Document.placeOf_eq, hpart]
        rfl
    · next hnotMap =>
      refine .inl ⟨[], .inr ⟨rfl, ?_⟩, rfl⟩
      rintro _ ⟨⟩
      cases hview : d.view v with
      | map es => exact absurd (by rw [hview]) (hnotMap _ es)
      | _ => rfl

theorem exists_view_apply (hd : d.Sound) (hm : d.view d.value = .map m) (halone : d.Alone P) (o : Override) :
    ∃ m', (Override.apply d o).view (Override.apply d o).value = .map m' := by
  obtain ⟨es, -, heq⟩ | ⟨v, n, es, hget, hpart, -, heq⟩ := apply_cases hd hm o
  · rw [heq]
    exact ⟨_, Document.view_change_start hm⟩
  · rw [heq]
    exact ⟨m, (Document.view_change_part (halone.ne_root hm hget hpart)).trans hm⟩

theorem part?_value_apply (d : Document) (o : Override) : (Override.apply d o).value.part? = d.value.part? := by
  unfold Override.apply
  split
  · exact Document.part?_value_change ..
  · exact Document.part?_value_change ..

theorem numbers_put_subset (h : o.value.isPlain) (es : Mapping) :
    (Value.map (Mapping.put es o.key o.value)).numbers ⊆ (Value.map es).numbers :=
  Value.numbers_set_subset (by rw [Value.numbers_of_isPlain _ h]; exact List.nil_subset _) _

theorem alone_apply (hd : d.Sound) (hm : d.view d.value = .map m) (halone : d.Alone P)
    (hplain : o.value.isPlain) : (Override.apply d o).Alone P := by
  obtain ⟨es, hes, heq⟩ | ⟨v, n, es, hget, hpart, hview, heq⟩ := apply_cases hd hm o
  · rw [heq]
    refine halone.set hm rfl fun i hi => ?_
    rcases hes with hget | ⟨rfl, -⟩
    · exact ⟨_, Mapping.mem_of_get? hget, rfl, numbers_put_subset hplain es hi⟩
    · obtain ⟨e, he, -⟩ := Value.mem_numbers_map.1 (numbers_put_subset hplain [] hi)
      cases he
  · rw [heq]
    exact halone.change_part hm (halone.ne_root hm hget hpart) (numbers_put_subset hplain)

theorem expand_put (hplain : o.value.isPlain) (es : Mapping) (d : Document) (depth : Nat) :
    (Mapping.put es o.key o.value).map (fun e => (e.1, d.expand depth e.2)) =
      Mapping.put (es.map fun e => (e.1, d.expand depth e.2)) o.key o.value := by
  rw [Mapping.put, Mapping.map_values_set, Document.expand_of_isPlain hplain]
  rfl

theorem sectionOf_expanded (hm : d.view d.value = .map m) (hget : Mapping.get? m name = some v)
    (h : (d.expand depth v).map? = some (es.map fun e => (e.1, d.expand k e.2))) :
    sectionOf (d.expanded depth) name = es.map fun e => (e.1, d.expand k e.2) := by
  rw [sectionOf, Document.get?_expanded hm, hget, Option.map_some, Option.bind_some, h, Option.getD_some]

theorem sectionOf_expanded_eq_nil (hd : d.Sound) (hm : d.view d.value = .map m)
    (h : ∀ v, Mapping.get? m name = some v → (d.view v).map? = none) (depth : Nat) :
    sectionOf (d.expanded (depth + 1)) name = [] := by
  rw [sectionOf, Document.get?_expanded hm]
  cases hget : Mapping.get? m name with
  | none => rfl
  | some v =>
    have hproper := Value.proper_get? (Document.proper_of_view hd hm) hget
    rw [Option.map_some, Option.bind_some, Document.map?_expand hd hproper, h v hget]
    rfl

/-- An override shows under its own key, and nowhere else. -/
theorem expanded_apply (hd : d.Sound) (hm : d.view d.value = .map m) (halone : d.Alone P) (hP : P o.sectionName)
    (hplain : o.value.isPlain) (depth : Nat) :
    (Override.apply d o).expanded (depth + 1) = Override.put (d.expanded (depth + 1)) o := by
  have hroot := halone.root_of_view hm
  obtain ⟨es, hes, heq⟩ | ⟨v, n, es, hget, hpart, hview, heq⟩ := apply_cases hd hm o
  · have hsection : es.map (fun e => (e.1, (Override.apply d o).expand (depth + 1) e.2)) =
        sectionOf (d.expanded (depth + 1)) o.sectionName := by
      rcases hes with hget | ⟨rfl, hnotMap⟩
      · have hsub := Value.numbers_subset_of_mem (Mapping.mem_of_get? hget)
        rw [sectionOf_expanded hm hget (by rw [Document.expand_map]; rfl), heq]
        refine List.map_congr_left fun e he => congrArg _ (Document.expand_set hroot _ _ ?_ _)
        exact fun i hi => hsub (Value.numbers_subset_of_mem he hi)
      · exact (sectionOf_expanded_eq_nil hd hm hnotMap depth).symm
    rw [heq, Document.expanded_set hm hroot, ← heq, Document.expand_map, expand_put hplain, hsection]
    rfl
  · have hsection : sectionOf (d.expanded (depth + 1)) o.sectionName = es.map fun e => (e.1, d.expand depth e.2) := by
      refine sectionOf_expanded hm hget ?_
      rw [Document.expand_of_part? hpart, hview, Document.expand_map]
      rfl
    rw [heq, Override.put, hsection]
    exact Document.expanded_change_part hd hm halone hP hget hpart hview (expand_put hplain es) depth

/-! Many overrides. -/

theorem expanded_overrides (hd : d.Sound) (hm : d.view d.value = .map m) (halone : d.Alone P)
    (hos : ∀ o ∈ os, P o.sectionName ∧ o.value.isPlain ∧ ∀ bound, o.value.Proper bound) (depth : Nat) :
    let d' := os.foldl Override.apply d
    d'.expanded (depth + 1) = os.foldl Override.put (d.expanded (depth + 1)) ∧ d'.Sound ∧
      d'.value.part? = d.value.part? ∧ ∃ m', d'.view d'.value = .map m' := by
  induction os generalizing d m with
  | nil => exact ⟨rfl, hd, rfl, m, hm⟩
  | cons o os ih =>
    rw [List.forall_mem_cons] at hos
    obtain ⟨⟨hP, hplain, hproper⟩, hos⟩ := hos
    obtain ⟨m', hm'⟩ := exists_view_apply hd hm halone o
    obtain ⟨hexpanded, hsound, hpart, hview⟩ := ih (sound_apply hd hproper) hm' (alone_apply hd hm halone hplain) hos
    rw [expanded_apply hd hm halone hP hplain] at hexpanded
    exact ⟨hexpanded, hsound, hpart.trans (part?_value_apply d o), hview⟩

theorem sectionOf_put (m : Mapping) (o : Override) (name : String) : sectionOf (Override.put m o) name =
    if name = o.sectionName then Mapping.put (sectionOf m name) o.key o.value else sectionOf m name := by
  rw [sectionOf, Override.put, Mapping.get?_put]
  split
  · next h =>
    rw [h]
    rfl
  · rfl

theorem valueOf?_overrides {k : Scalar} (h : ∀ o ∈ os, k ≠ .text o.sectionName) (m : Mapping) :
    Mapping.valueOf? (os.foldl Override.put m) k = Mapping.valueOf? m k := by
  induction os generalizing m with
  | nil => rfl
  | cons o os ih =>
    rw [List.forall_mem_cons] at h
    rw [List.foldl_cons, ih h.2, Override.put, Mapping.put, Mapping.valueOf?_set,
      if_neg fun hsame => h.1 (Scalar.text_sameKey.1 hsame)]

theorem valueOf?_sectionOf_overrides {k : Scalar} (h : ∀ o ∈ os, o.sectionName = name → k ≠ .text o.key)
    (m : Mapping) : Mapping.valueOf? (sectionOf (os.foldl Override.put m) name) k =
      Mapping.valueOf? (sectionOf m name) k := by
  induction os generalizing m with
  | nil => rfl
  | cons o os ih =>
    rw [List.forall_mem_cons] at h
    rw [List.foldl_cons, ih h.2, sectionOf_put]
    split
    · next hname =>
      rw [Mapping.put, Mapping.valueOf?_set, if_neg fun hsame => h.1 hname.symm (Scalar.text_sameKey.1 hsame)]
    · rfl

theorem valueOf?_sectionOf_of_mem (hos : os.Pairwise fun o o' => o.sectionName = o'.sectionName → o.key ≠ o'.key)
    (ho : o ∈ os) (m : Mapping) :
    Mapping.valueOf? (sectionOf (os.foldl Override.put m) o.sectionName) (.text o.key) = some o.value := by
  induction os generalizing m with
  | nil => cases ho
  | cons o' os ih =>
    rw [List.pairwise_cons] at hos
    rcases List.mem_cons.1 ho with rfl | ho
    · have hafter : ∀ o' ∈ os, o'.sectionName = o.sectionName → Scalar.text o.key ≠ .text o'.key :=
        fun o' ho' hname hkey => hos.1 o' ho' hname.symm (Scalar.text.inj hkey)
      rw [List.foldl_cons, valueOf?_sectionOf_overrides hafter, sectionOf_put, if_pos rfl, Mapping.put,
        Mapping.valueOf?_set, if_pos (Scalar.sameKey_refl _)]
    · exact ih hos.2 ho _

theorem down?_pair (m : Mapping) (name : String) (k : Scalar) :
    (Value.map m).down? [] [.text name, k] = Mapping.valueOf? (sectionOf m name) k := by
  rw [Value.down?, Value.under?_map, Mapping.valueOf?_text, sectionOf]
  cases Mapping.get? m name with
  | none => rfl
  | some v =>
    rw [Option.bind_some, Value.down?_singleton, Value.under?, Value.viewIn_nil, Option.bind_some]
    cases v.map? <;> rfl

/-! The environment. -/

theorem isPlain_overrideValue (name key value : String) : (overrideValue name key value).isPlain := by
  unfold overrideValue
  split
  · change Value.allPlain ((splitList value).map Value.text)
    induction splitList value with
    | nil => rfl
    | cons s ss ih => exact ih
  · rfl

/-- A section that some variable names. -/
def Named (vars : Variables) (name : String) : Prop :=
  ∃ x ∈ vars, ∃ key, Names x.1 name key

variable {vars vars' : Variables}

theorem named_of_mem_overridesOf (ho : o ∈ overridesOf vars) : Named vars o.sectionName := by
  obtain ⟨x, hx, hname, -⟩ := mem_overridesOf_iff.1 ho
  exact ⟨x, hx, o.key, hname⟩

theorem expand_applyOverrides (hd : d.Sound) (hm : d.view d.value = .map m) (halone : d.Alone (Named vars))
    (depth : Nat) :
    d.expand (depth + 2) d.value = .map (d.expanded (Document.depthIn d.value (depth + 1))) ∧
    (applyOverrides vars d).expand (depth + 2) (applyOverrides vars d).value =
      .map ((overridesOf vars).foldl Override.put (d.expanded (Document.depthIn d.value (depth + 1)))) := by
  have hos : ∀ o ∈ overridesOf vars, Named vars o.sectionName ∧ o.value.isPlain ∧ ∀ bound, o.value.Proper bound := by
    intro o ho
    refine ⟨named_of_mem_overridesOf ho, ?_, proper_of_mem_overridesOf ho⟩
    obtain ⟨x, -, -, hvalue⟩ := mem_overridesOf_iff.1 ho
    rw [hvalue]
    exact isPlain_overrideValue ..
  obtain ⟨k, hk⟩ : ∃ k, Document.depthIn d.value (depth + 1) = k + 1 := by
    unfold Document.depthIn
    split
    · exact ⟨depth, rfl⟩
    · exact ⟨depth + 1, rfl⟩
  obtain ⟨hexpanded, hsound, hpart, m', hm'⟩ := expanded_overrides hd hm halone hos k
  refine ⟨Document.expand_value hd hm (depth + 1), ?_⟩
  have hsame : Document.depthIn (applyOverrides vars d).value (depth + 1) = k + 1 := by
    rw [← hk, Document.depthIn, Document.depthIn, applyOverrides, hpart]
  have hexpand := Document.expand_value (d := applyOverrides vars d) hsound hm' (depth + 1)
  rw [hsame] at hexpand
  rw [hexpand, hk, ← hexpanded]
  rfl

/-- What some keys lead to in the mapping that the environment makes of a document's. -/
def overridden (vars : Variables) (d : Document) (depth : Nat) (path : List Scalar) : Option Value :=
  ((applyOverrides vars d).expand (depth + 2) (applyOverrides vars d).value).down? [] path

section

variable (hd : d.Sound) (hm : d.view d.value = .map m) (halone : d.Alone (Named vars)) (depth : Nat)
include hd hm halone

theorem overridden_of_names (hvars : Unambiguous vars) {x : String × String} (hx : x ∈ vars) {key : String}
    (hname : Names x.1 name key) :
    overridden vars d depth [.text name, .text key] = some (overrideValue name key x.2) := by
  rw [overridden, (expand_applyOverrides hd hm halone depth).2, down?_pair]
  have ho : ⟨name, key, overrideValue name key x.2⟩ ∈ overridesOf vars :=
    mem_overridesOf_iff.2 ⟨x, hx, hname, rfl⟩
  exact valueOf?_sectionOf_of_mem hvars.pairwise ho _

theorem overridden_of_not_names {key : Scalar} (hkey : ∀ x ∈ vars, ∀ k, Names x.1 name k → key ≠ .text k) :
    overridden vars d depth [.text name, key] = (d.expand (depth + 2) d.value).down? [] [.text name, key] := by
  obtain ⟨hraw, hresult⟩ := expand_applyOverrides hd hm halone depth
  rw [overridden, hresult, hraw, down?_pair, down?_pair]
  refine valueOf?_sectionOf_overrides (fun o ho hsection => ?_) _
  obtain ⟨x, hx, hname, -⟩ := mem_overridesOf_iff.1 ho
  exact hkey x hx o.key (hsection ▸ hname)

theorem overridden_of_not_named {key : Scalar} (hkey : ∀ name, Named vars name → key ≠ .text name) :
    overridden vars d depth [key] = (d.expand (depth + 2) d.value).down? [] [key] := by
  obtain ⟨hraw, hresult⟩ := expand_applyOverrides hd hm halone depth
  rw [overridden, hresult, hraw, Value.down?_singleton, Value.down?_singleton, Value.under?_map, Value.under?_map]
  exact valueOf?_overrides (fun o ho => hkey _ (named_of_mem_overridesOf ho)) _

theorem overridden_perm (hvars : Unambiguous vars) (hperm : vars'.Perm vars) (path : List Scalar) (hpath : path ≠ [])
    (hsections : ∀ name, Named vars name → path ≠ [.text name]) :
    overridden vars' d depth path = overridden vars d depth path := by
  have hnamed : ∀ name, Named vars' name ↔ Named vars name := fun name => by simp only [Named, hperm.mem_iff]
  have halone' : d.Alone (Named vars') := ⟨halone.root, fun name h => halone.entry name ((hnamed name).1 h)⟩
  have hbelow (vars : Variables) (ks ls : List Scalar) : overridden vars d depth (ks ++ ls) =
      (overridden vars d depth ks).bind (Value.down? [] ls) := Value.down?_append [] ks ls _
  obtain ⟨k, path, rfl⟩ := List.exists_cons_of_ne_nil hpath
  -- a path goes through a key of some section, or through a key that is no section; both are known in either order
  by_cases hk : ∃ name, Named vars name ∧ k = .text name
  · obtain ⟨name, hname, rfl⟩ := hk
    cases path with
    | nil => exact absurd rfl (hsections name hname)
    | cons key path =>
      have hpair : overridden vars' d depth [.text name, key] = overridden vars d depth [.text name, key] := by
        by_cases hkey : ∃ x ∈ vars, ∃ k, Names x.1 name k ∧ key = .text k
        · obtain ⟨x, hx, k, hnames, rfl⟩ := hkey
          rw [overridden_of_names hd hm halone depth hvars hx hnames,
            overridden_of_names hd hm halone' depth (hvars.perm hperm) (hperm.mem_iff.2 hx) hnames]
        · have hother : ∀ x ∈ vars, ∀ k, Names x.1 name k → key ≠ .text k :=
            fun x hx k hnames heq => hkey ⟨x, hx, k, hnames, heq⟩
          rw [overridden_of_not_names hd hm halone depth hother,
            overridden_of_not_names hd hm halone' depth fun x hx => hother x (hperm.mem_iff.1 hx)]
      change overridden vars' d depth ([.text name, key] ++ path) = overridden vars d depth ([.text name, key] ++ path)
      rw [hbelow, hbelow, hpair]
  · have hother : ∀ name, Named vars name → k ≠ .text name := fun name hname heq => hk ⟨name, hname, heq⟩
    change overridden vars' d depth ([k] ++ path) = overridden vars d depth ([k] ++ path)
    rw [hbelow, hbelow, overridden_of_not_named hd hm halone depth hother,
      overridden_of_not_named hd hm halone' depth fun name hname => hother name ((hnamed name).1 hname)]

end

/-- Variables with other names do nothing. If no two variables name one key, and the document's mapping and the
sections that they name stand alone, each sets its key, while the other keys of its section and what is in no such
section stay as they were, and the order of the variables shows in the order of keys alone. -/
theorem overrides_by_key (hd : d.Sound) (hm : d.view d.value = .map m) (hvars : Unambiguous vars) :
    (∀ before x after, vars = before ++ x :: after → (∀ name key, ¬ Names x.1 name key) →
      applyOverrides vars d = applyOverrides (before ++ after) d) ∧
    (d.Alone (Named vars) → ∀ depth,
      (∀ x ∈ vars, ∀ name key, Names x.1 name key →
        overridden vars d depth [.text name, .text key] = some (overrideValue name key x.2)) ∧
      (∀ name, Named vars name → ∀ key, (∀ x ∈ vars, ∀ k, Names x.1 name k → key ≠ .text k) →
        overridden vars d depth [.text name, key] =
          (d.expand (depth + 2) d.value).down? [] [.text name, key]) ∧
      (∀ key, (∀ name, Named vars name → key ≠ .text name) →
        overridden vars d depth [key] = (d.expand (depth + 2) d.value).down? [] [key]) ∧
      ∀ vars', vars'.Perm vars → ∀ path, path ≠ [] → (∀ name, Named vars name → path ≠ [.text name]) →
        overridden vars' d depth path = overridden vars d depth path) := by
  constructor
  · rintro before x after rfl hx
    rw [applyOverrides, overridesOf_of_not_names hx]
    rfl
  · intro halone depth
    exact ⟨fun x hx name key hname => overridden_of_names hd hm halone depth hvars hx hname,
      fun name _ key hkey => overridden_of_not_names hd hm halone depth hkey,
      fun key hkey => overridden_of_not_named hd hm halone depth hkey,
      fun vars' hperm path => overridden_perm hd hm halone depth hvars hperm path⟩

theorem overrides_by_key_of_shared_list :
    let d : Document := ⟨.map [(.text "outline", .part 0 true), (.text "x", .part 1 false),
      (.text "logging", .list [.part 1 false])], [.map [(.text "tree_id", .text "a"), (.int 1, .part 1 false)],
        .list [.text "b"]]⟩
    let vars : Variables := [("ORGFEED_OUTLINE_Files", "a.org, b.org"), ("ORGFEED_LOGGING_LEVEL", "debug"),
      ("ORGFEED_OUTLINE", "c")]
    d.Sound ∧ Unambiguous vars ∧ d.Alone (Named vars) ∧
      overridden vars d 1 [.text "outline", .text "files"] = some (.list [.text "a.org", .text "b.org"]) ∧
      overridden vars d 1 [.text "outline", .text "tree_id"] = some (.text "a") ∧
      overridden vars d 1 [.text "logging", .text "level"] = some (.text "debug") ∧
      overridden vars d 1 [.text "x"] = some (.list [.text "b"]) ∧
      overridden vars.reverse d 1 [.text "logging", .text "level"] = some (.text "debug") := by
  intro d vars
  have hd : d.Sound := by
    constructor <;> simp [d, Value.Proper, Value.properEntries, Value.part?]
  have hfiles : Names "ORGFEED_OUTLINE_Files" "outline" "files" := ⟨_, "Files", .outline, rfl, by decide +kernel⟩
  have hlevel : Names "ORGFEED_LOGGING_LEVEL" "logging" "level" := ⟨_, "LEVEL", .logging, rfl, by decide +kernel⟩
  have hnone (name key : String) : ¬ Names "ORGFEED_OUTLINE" name key := by
    intro h
    cases (overrideOf?_eq_some_iff (x := ("ORGFEED_OUTLINE", "")) (o := ⟨name, key, overrideValue name key ""⟩)).2
      ⟨h, rfl⟩
  have hnames : ∀ x ∈ vars, ∀ name key, Names x.1 name key →
      (name, key) = ("outline", "files") ∨ (name, key) = ("logging", "level") := by
    simp only [vars, List.forall_mem_cons, Prod.mk.injEq]
    exact ⟨fun _ _ h => .inl (hfiles.unique h), fun _ _ h => .inr (hlevel.unique h),
      fun _ _ h => absurd h (hnone _ _), List.forall_mem_nil _⟩
  have hvars : Unambiguous vars := by
    simp only [Unambiguous, vars, List.pairwise_cons, List.forall_mem_cons]
    refine ⟨⟨fun name key h h' => ?_, fun _ _ _ => hnone _ _, List.forall_mem_nil _⟩,
      ⟨fun _ _ _ => hnone _ _, List.forall_mem_nil _⟩, List.forall_mem_nil _, .nil⟩
    cases (hfiles.unique h).1
    exact absurd (hlevel.unique h').1 (by decide)
  have hnamed (name : String) (h : Named vars name) : name = "outline" ∨ name = "logging" := by
    obtain ⟨x, hx, key, hname⟩ := h
    simpa using (hnames x hx name key hname).imp (congrArg Prod.fst) (congrArg Prod.fst)
  have halone : d.Alone (Named vars) := by
    refine ⟨fun n hn => (by cases hn), fun name hname v n es hget hpart hview => ?_⟩
    rcases hnamed name hname with rfl | rfl
    · cases hget
      cases hpart
      cases hview
      have hparts : ∀ i w, i = 1 → d.parts[i]? = some w → ∀ j ∈ w.numbers, j = 1 := by
        rintro i w rfl hw
        cases hw
        simp [Value.numbers, Value.numbersAll]
      exact ⟨Document.not_reaches (R := (· = 1)) (by decide) hparts (by decide),
        Document.not_reaches (R := (· = 1)) (by decide) hparts (by decide)⟩
    · cases hget
      cases hpart
  obtain ⟨-, hlaws⟩ := overrides_by_key hd (m := d.entries) rfl hvars
  obtain ⟨hset, hkept, hrest, hperm⟩ := hlaws halone 1
  have hlevelSet := hset ("ORGFEED_LOGGING_LEVEL", "debug") (by simp [vars]) _ _ hlevel
  refine ⟨hd, hvars, halone, ?_, ?_, hlevelSet, ?_, ?_⟩
  · exact (hset ("ORGFEED_OUTLINE_Files", "a.org, b.org") (by simp [vars]) _ _ hfiles).trans (by rfl)
  · refine (hkept "outline" ⟨_, List.mem_cons_self .., _, hfiles⟩ (.text "tree_id") fun x hx key h heq => ?_).trans rfl
    cases heq
    simpa using hnames x hx _ _ h
  · refine (hrest (.text "x") fun name h heq => ?_).trans rfl
    cases heq
    simpa using hnamed _ h
  · exact (hperm vars.reverse vars.reverse_perm _ (by simp) (by simp)).trans hlevelSet

/-- One mapping is both sections, so that a variable for the one changes the other; and of two variables for one
key in both, the last one counts for both. -/
theorem section_changed_through_alias :
    let files : Disk.FileTree :=
      { entries := [(["c.yaml"], .file (Text.encodeUtf8 "outline: &s {tree_id: x}\nlogging: *s\n"))] }
    let level (vars : Variables) := (load files { vars } "c.yaml").toOption.map (·.logging.level)
    Names "ORGFEED_OUTLINE_LEVEL" "outline" "level" ∧ level [] = some "INFO" ∧
      level [("ORGFEED_OUTLINE_LEVEL", "debug")] = some "DEBUG" ∧
      level [("ORGFEED_OUTLINE_LEVEL", "debug"), ("ORGFEED_LOGGING_LEVEL", "error")] = some "ERROR" ∧
      level [("ORGFEED_LOGGING_LEVEL", "error"), ("ORGFEED_OUTLINE_LEVEL", "debug")] = some "DEBUG" := by
  refine ⟨⟨_, "LEVEL", .outline, rfl, by decide +kernel⟩, ?_⟩
  decide +kernel

end FeedOutline.Config
