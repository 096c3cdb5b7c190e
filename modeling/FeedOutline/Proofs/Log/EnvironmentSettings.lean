import FeedOutline.Proofs.Log.FileSettings

/-!
Settings of the environment over those of a file. They change the mappings of the handlers where these stand,
so that they say what they should if no two handlers share one.
-/
namespace FeedOutline.Log

open Data (Value Mapping Scalar Document Place)
open Data.Mapping (scalarEntries)
open Text

/-- What the environment gives as a setting. A log file is switched on with its path. -/
def environmentSetting (env : Environment) : List String → Option Value
  | ["level"] => (env.get? "LOG_LEVEL").map fun s => .text (upperString s)
  | ["format"] => (env.get? "LOG_FORMAT").map fun s => .text (lowerString s)
  | ["handlers", "file", "path"] => (env.get? "LOG_FILE").map .text
  | ["handlers", "file", "enabled"] => (env.get? "LOG_FILE").map fun _ => .bool true
  | ["handlers", "console", "enabled"] =>
    (env.get? "LOG_CONSOLE").map fun s => .bool (truthWords.contains (lowerString s))
  | _ => none

variable {d d' : Document} {given : List String → Option Value} {m entries : Mapping} {name other key : String}
  {es : List (Scalar × Scalar)} {path : List String} {p : Place} {env : Environment}

theorem setHandler_cases (hvalue : d.value = .map m) (h : setHandler name entries d = .ok d') :
    (Mapping.get? m "handlers" = none ∧
      d' = d.set (.text "handlers") (.map [(.text name, .map entries)])) ∨
    (∃ p hm, d.follow ["handlers"] d.start = some p ∧ d.stored? p = some (.map hm) ∧
      Mapping.get? hm name = none ∧ d' = d.change (·.put name (.map entries)) p) ∨
    ∃ p nm, d.follow ["handlers", name] d.start = some p ∧ d.stored? p = some (.map nm) ∧
      d' = d.change (Mapping.merge · entries) p := by
  have hstart : d.start = {} := by
    rw [Document.start, hvalue]
    rfl
  have hentries : d.entries = m := Document.entries_of_view (Document.view_of_value hvalue)
  have hstored : d.stored? d.start = some (.map d.entries) := by
    rw [hstart, Document.stored?_start, hvalue, hentries]
  unfold setHandler at h
  split at h
  · next hchild =>
    cases h
    refine .inl ⟨?_, rfl⟩
    rw [← hentries]
    exact Document.child?_eq_none hchild
  · next handlers hm hchild =>
    obtain ⟨hfollow, hhandlers⟩ := Document.child?_eq_map hstored hchild
    split at h
    · next hname =>
      cases h
      exact .inr (.inl ⟨handlers, hm, hfollow, hhandlers, Document.child?_eq_none hname, rfl⟩)
    · next handler nm hname =>
      obtain ⟨hfollow', hhandler⟩ := Document.child?_eq_map hhandlers hname
      cases h
      refine .inr (.inr ⟨handler, nm, ?_, hhandler, rfl⟩)
      rw [← List.singleton_append, Document.follow_append, hfollow]
      exact hfollow'
    · cases h
  · cases h

/-- The document, in a mapping of its own, gives the settings some values, and has its handlers apart. -/
structure Holds (d : Document) (given : List String → Option Value) : Prop where
  tells : Tells d given
  apart : Separate d
  value : ∃ m, d.value = .map m

theorem Holds.start (h : Holds d given) : d.start = {} := by
  obtain ⟨m, hm⟩ := h.value
  rw [Document.start, hm]
  rfl

theorem Holds.keys_follow (h : Holds d given) {ks : List String} (hp : d.follow ks d.start = some p) :
    ∀ k ∈ p.keys, k ∈ ks := by
  intro k hk
  have hmem := Document.keys_follow hp k hk
  rw [h.start] at hmem
  exact hmem.resolve_left List.not_mem_nil

theorem at?_of_follow {ks : List String} (hp : d.follow ks d.start = some p)
    (hm : d.stored? p = some (.map m)) (k : String) : d.at? (ks ++ [k]) = Mapping.get? m k := by
  rw [Document.at?, Document.at?_eq_follow (Document.stored?_start d)]
  change (d.follow ks d.start).bind _ = _
  rw [hp, Option.bind_some, Document.stored?_under, hm]
  rfl

theorem Holds.follow_change {changed : List String} {f : Mapping → Mapping} (h : Holds d given)
    (hf : ∀ k ∉ changed, ∀ m, Mapping.get? (f m) k = Mapping.get? m k) {ks : List String}
    (hks : ∀ k ∈ changed, k ∉ ks) : (d.change f p).follow ks (d.change f p).start = d.follow ks d.start := by
  rw [Document.start_change]
  refine Document.follow_change hf (fun _ _ => ?_) hks
  rw [h.start]
  exact List.not_mem_nil

/-! ### A handler among the others -/

section

variable (h : Holds d given) (hname : name ∈ handlerNames) (hp : d.follow ["handlers"] d.start = some p)
  (hm : d.stored? p = some (.map m))
include h hname hp hm

theorem Holds.at?_put (v : Value) : (d.change (·.put name v) p).at? ["handlers", name] = some v := by
  have hpkeys : name ∉ p.keys := fun hk =>
    name_notMem_handlers hname name (List.mem_singleton_self _) (h.keys_follow hp name hk)
  refine (Document.at?_change ["handlers"] hm (Mapping.get?_put_of_notMem name v) (name_notMem_handlers hname)
    hpkeys).trans ?_
  rw [if_pos hp, Mapping.get?_put, if_pos rfl]

theorem Holds.at?_put_of_ne {v : Value} (hne : other ≠ name) (hkey : key ∈ handlerKeys) :
    (d.change (·.put name v) p).at? ["handlers", other, key] = d.at? ["handlers", other, key] := by
  have hkeys : ∀ name ∈ handlerNames, ∀ key ∈ handlerKeys, key ∉ ["handlers"] ∧ key ∉ [name] := by decide
  obtain ⟨hhandlers, hnew⟩ := hkeys name hname key hkey
  have hf := Mapping.get?_put_of_notMem name v
  refine (Document.at?_change ["handlers", other] hm hf (name_notMem_handler hname hne)
    fun hk => hhandlers (h.keys_follow hp key hk)).trans ?_
  split
  · next hfollow =>
    rw [hf key hnew]
    exact (at?_of_follow hfollow hm key).symm
  · rfl

theorem Holds.separate_put {v : Value} (hv : v.part? = none) : Separate (d.change (·.put name v) p) := by
  have hsame := fun other (hne : other ≠ name) =>
    h.follow_change (p := p) (Mapping.get?_put_of_notMem name v) (name_notMem_handler hname hne)
  have hin : ∀ q, (d.change (·.put name v) p).follow ["handlers", name] (d.change (·.put name v) p).start =
      some q → name ∈ q.keys := by
    intro q hq
    obtain ⟨r, w, -, hw, rfl⟩ := Document.exists_of_follow ["handlers"] hq
    cases (h.at?_put hname hp hm v).symm.trans hw
    rw [Document.placeOf_of_part? hv]
    exact List.mem_append_right _ (List.mem_singleton_self _)
  have hout : ∀ other, other ≠ name → ∀ q, (d.change (·.put name v) p).follow ["handlers", other]
      (d.change (·.put name v) p).start = some q → name ∉ q.keys := by
    intro other hne q hq hk
    rw [hsame other hne] at hq
    exact name_notMem_handler hname hne name (List.mem_singleton_self _) (h.keys_follow hq _ hk)
  intro n hn n' hn' hne q hq hq'
  by_cases hnew : n = name
  · subst hnew
    exact hout n' (Ne.symm hne) q hq' (hin q hq)
  · by_cases hnew' : n' = name
    · subst hnew'
      exact hout n hnew q hq (hin q hq')
    · rw [hsame n hnew] at hq
      rw [hsame n' hnew'] at hq'
      exact h.apart n hn n' hn' hne q hq hq'

end

/-! ### The settings of a handler -/

section

variable (hname : name ∈ handlerNames) (hes : (es.map (·.1)).Nodup)
include hname hes

theorem Holds.mergeEntries {nm : Mapping} (h : Holds d given)
    (hkeys : ∀ key ∉ handlerKeys, Mapping.get? (scalarEntries es) key = none)
    (hp : d.follow ["handlers", name] d.start = some p) (hnm : d.stored? p = some (.map nm)) :
    Holds (d.change (Mapping.merge · (scalarEntries es)) p)
      fun path => (handlerEntry name (scalarEntries es) path).or (given path) := by
  have hf : ∀ k ∉ handlerKeys, ∀ m, Mapping.get? (Mapping.merge m (scalarEntries es)) k = Mapping.get? m k := by
    intro k hk m
    rw [Mapping.get?_merge_scalarEntries hes, hkeys k hk]
    rfl
  have hstart : p ≠ d.start := by
    rw [h.start]
    exact Document.follow_ne_start ["handlers"] hp
  have hfollow := fun other (hother : other ∈ handlerNames) => h.follow_change (p := p) hf (notMem_handlerKeys hother)
  have htop := notMem_top hname
  refine ⟨⟨Document.sound_change h.tells.sound fun m hm => ?_, fun other hother => ?_, fun path hpath => ?_⟩, ?_,
    Document.exists_map_change h.value⟩
  · exact Value.proper_merge m hm _ (Mapping.proper_scalarEntries _ hes)
  · exact Document.maps_change hf (notMem_handlerKeys hother) (h.tells.maps other hother)
  · have hgiven := h.tells.settings path hpath
    rcases mem_settingPaths.1 hpath with rfl | rfl | ⟨other, hother, key, hkey, rfl⟩
    · exact (Document.at?_change_singleton hnm hf hstart fun hmem => htop.1 (h.keys_follow hp _ hmem)).trans hgiven
    · exact (Document.at?_change_singleton hnm hf hstart fun hmem => htop.2 (h.keys_follow hp _ hmem)).trans hgiven
    · have hkeyp : key ∉ p.keys := fun hmem => notMem_handlerKeys hname key hkey (h.keys_follow hp _ hmem)
      refine (Document.at?_change ["handlers", other] hnm hf (notMem_handlerKeys hother) hkeyp).trans ?_
      rw [handlerEntry]
      by_cases hsame : other = name
      · subst hsame
        rw [if_pos hp, if_pos rfl, Mapping.get?_merge_scalarEntries hes, ← hgiven]
        exact congrArg _ (at?_of_follow hp hnm key).symm
      · rw [if_neg (h.apart name hname other hother (Ne.symm hsame) p hp), if_neg hsame]
        exact hgiven
  · intro n hn n' hn' hne q hq hq'
    rw [hfollow n hn] at hq
    rw [hfollow n' hn'] at hq'
    exact h.apart n hn n' hn' hne q hq hq'

theorem Holds.putHandler {hm : Mapping} (h : Holds d given) (hp : d.follow ["handlers"] d.start = some p)
    (hhm : d.stored? p = some (.map hm)) (hnone : Mapping.get? hm name = none) :
    Holds (d.change (·.put name (.map (scalarEntries es))) p)
      fun path => (handlerEntry name (scalarEntries es) path).or (given path) := by
  have hf := Mapping.get?_put_of_notMem name (.map (scalarEntries es))
  have hstart : p ≠ d.start := by
    rw [h.start]
    exact Document.follow_ne_start [] hp
  have hpkeys : ∀ k ∈ p.keys, k = "handlers" := fun k hk => List.mem_singleton.1 (h.keys_follow hp k hk)
  have hnew := h.at?_put hname hp hhm (.map (scalarEntries es))
  refine ⟨⟨Document.sound_change h.tells.sound fun m hm => ?_, fun other hmem => ?_, fun path hpath => ?_⟩,
    h.separate_put hname hp hhm rfl, Document.exists_map_change h.value⟩
  · exact Value.proper_set hm (Mapping.proper_scalarEntries _ hes) _
  · have hmaps := h.tells.maps other hmem
    by_cases hsame : other = name
    · subst hsame
      refine (Value.maps_append_singleton ["handlers"] _).2 ⟨?_, fun w hw => ?_⟩
      · exact Document.maps_change hf (name_notMem_handlers hname)
          ((Value.maps_append_singleton ["handlers"] _).1 hmaps).1
      · cases hnew.symm.trans hw
        rfl
    · exact Document.maps_change hf (name_notMem_handler hname hsame) hmaps
  · have hgiven := h.tells.settings path hpath
    rcases mem_settingPaths.1 hpath with rfl | rfl | ⟨other, hmem, key, hkey, rfl⟩
    · exact (Document.at?_change_singleton hhm hf hstart fun hk => absurd (hpkeys _ hk) (by decide)).trans hgiven
    · exact (Document.at?_change_singleton hhm hf hstart fun hk => absurd (hpkeys _ hk) (by decide)).trans hgiven
    · rw [handlerEntry]
      by_cases hsame : other = name
      · subst hsame
        have hold : d.at? ["handlers", other] = none := (at?_of_follow hp hhm other).trans hnone
        have hgivennone : given ["handlers", other, key] = none := by
          rw [← hgiven]
          exact (d.at?_append ["handlers", other] [key]).trans (by rw [hold]; rfl)
        rw [if_pos rfl, hgivennone, Option.or_none]
        refine (Document.at?_append _ ["handlers", other] [key]).trans ?_
        rw [hnew, Option.bind_some, Value.at?_singleton]
        rfl
      · rw [if_neg hsame, Option.none_or]
        exact (h.at?_put_of_ne hname hp hhm hsame hkey).trans hgiven

omit hname in
theorem Holds.putHandlers {m : Mapping} (h : Holds d given) (hvalue : d.value = .map m)
    (hnone : Mapping.get? m "handlers" = none) :
    Holds (d.set (.text "handlers") (.map [(.text name, .map (scalarEntries es))]))
      fun path => (handlerEntry name (scalarEntries es) path).or (given path) := by
  have hview := Document.view_of_value hvalue
  refine ⟨⟨Document.sound_set h.tells.sound ?_ _, fun other hmem => ?_, fun path hpath => ?_⟩, ?_,
    Document.exists_map_change h.value⟩
  · exact Value.proper_singleton (Mapping.proper_scalarEntries _ hes)
  · refine Document.maps_set_self hview (handlers_notMem_name hmem) ⟨rfl, fun w hw => ?_⟩
    rw [Value.get?_map, Mapping.get?_singleton] at hw
    split at hw
    · cases hw
      rfl
    · cases hw
  · have hgiven := h.tells.settings path hpath
    rcases mem_settingPaths.1 hpath with rfl | rfl | ⟨other, hmem, key, hkey, rfl⟩
    · exact (Document.at?_set_of_notMem (by decide)).trans hgiven
    · exact (Document.at?_set_of_notMem (by decide)).trans hgiven
    · have hgivennone : given ["handlers", other, key] = none := by
        rw [← hgiven, Document.at?_cons_of_view hview, hnone]
        rfl
      refine (Document.at?_set_self hview (handlers_notMem_setting hmem hkey)).trans ?_
      rw [handlerEntry, hgivennone, Option.or_none, Value.at?, Value.get?_map, Mapping.get?_singleton]
      split
      · rw [Option.bind_some, Value.at?_singleton]
        rfl
      · rfl
  · have honly : ∀ other p, (d.set (.text "handlers") (.map [(.text name, .map (scalarEntries es))])).follow
        ["handlers", other] (d.set (.text "handlers") (.map [(.text name, .map (scalarEntries es))])).start =
          some p → "handlers" ∉ [other] → other = name := by
      intro other p hp hmem
      obtain ⟨r, v, -, hv, rfl⟩ := Document.exists_of_follow ["handlers"] hp
      have hself := (Document.at?_set_self hview hmem).symm.trans hv
      rw [Value.at?_singleton, Value.get?_map, Mapping.get?_singleton] at hself
      split at hself
      · assumption
      · cases hself
    intro n hn n' hn' hne q hq hq'
    exact hne ((honly n q hq (handlers_notMem_name hn)).trans (honly n' q hq' (handlers_notMem_name hn')).symm)

end

theorem Holds.setHandler (h : Holds d given) (hname : name ∈ handlerNames) (hes : (es.map (·.1)).Nodup)
    (hkeys : ∀ key ∉ handlerKeys, Mapping.get? (scalarEntries es) key = none)
    (hset : setHandler name (scalarEntries es) d = .ok d') :
    Holds d' fun path => (handlerEntry name (scalarEntries es) path).or (given path) := by
  obtain ⟨m, hm⟩ := h.value
  rcases setHandler_cases hm hset with ⟨hnone, rfl⟩ | ⟨p, hm, hp, hhm, hnone, rfl⟩ | ⟨p, nm, hp, hnm, rfl⟩
  · exact h.putHandlers hes hm hnone
  · exact h.putHandler hname hes hp hhm hnone
  · exact h.mergeEntries hname hes hkeys hp hnm

/-! ### The level and the format -/

theorem tells_set (h : Tells d given) (hvalue : d.value = .map m)
    (hkey : ∀ name ∈ handlerNames, key ∉ ["handlers", name]) (s : Scalar) : Tells (d.set (.text key) (.scalar s))
      fun path => (if path = [key] then some (Value.scalar s) else none).or (given path) := by
  have hview := Document.view_of_value hvalue
  have hne : "handlers" ≠ key := fun heq => hkey "console" (by decide) (heq ▸ List.mem_cons_self ..)
  refine ⟨Document.sound_set h.sound (show (Value.scalar s).Proper _ from trivial) _, fun name hname => ?_,
    fun path hpath => ?_⟩
  · exact Document.maps_set_of_notMem (hkey name hname) (h.maps name hname)
  · have hgiven := h.settings path hpath
    have htop : ∀ k, (d.set (.text key) (.scalar s)).at? [k] =
        (if [k] = [key] then some (Value.scalar s) else none).or (d.at? [k]) := by
      intro k
      rw [Document.at?_set_singleton hview]
      by_cases hk : k = key
      · rw [if_pos (by rw [hk]), if_pos (by rw [hk])]
        rfl
      · rw [if_neg (by rintro ⟨⟩; exact hk rfl), if_neg (by rintro ⟨⟩; exact hk rfl)]
        rfl
    rcases mem_settingPaths.1 hpath with rfl | rfl | ⟨name, hname, k, hk, rfl⟩
    · exact (htop _).trans (congrArg _ hgiven)
    · exact (htop _).trans (congrArg _ hgiven)
    · rw [Document.at?_set_of_ne hvalue hne, if_neg (by rintro ⟨⟩), Option.none_or]
      exact hgiven

theorem separate_set (h : Separate d) (hkey : ∀ name ∈ handlerNames, key ∉ ["handlers", name]) (v : Value) :
    Separate (d.set (.text key) v) := by
  have hf : ∀ k ∉ [key], ∀ m : Mapping, Mapping.get? (m.set (.text key) v) k = Mapping.get? m k := by
    intro k hk m
    have hne : key ∉ [k] := fun hmem => hk (List.mem_singleton.2 (List.mem_singleton.1 hmem).symm)
    exact Document.get?_set_of_notMem hne v k (List.mem_singleton_self k) m
  have hfollow : ∀ name ∈ handlerNames,
      (d.set (.text key) v).follow ["handlers", name] (d.set (.text key) v).start =
        d.follow ["handlers", name] d.start := by
    intro name hname
    rw [Document.set, Document.start_change]
    refine Document.follow_change hf (Document.notMem_placeOf (fun _ _ => List.not_mem_nil) d.value) fun k hk => ?_
    rw [List.mem_singleton.1 hk]
    exact hkey name hname
  intro name hname other hother hne p hp hp'
  rw [hfollow name hname] at hp
  rw [hfollow other hother] at hp'
  exact h name hname other hother hne p hp hp'

theorem tells_top (key : String) (h : Tells d given) (hkey : ∀ name ∈ handlerNames, key ∉ ["handlers", name])
    (hvalue : ∃ m, d.value = .map m) (o : Option String) (f : String → String) :
    let d' := match o with
      | some s => d.set (.text key) (.text (f s))
      | none => d
    (Tells d' fun path => (if path = [key] then o.map fun s => Value.text (f s) else none).or (given path)) ∧
      (∃ m, d'.value = .map m) ∧ (Separate d → Separate d') := by
  cases o with
  | none =>
    refine ⟨h.congr fun path _ => ?_, hvalue, id⟩
    split <;> rfl
  | some s =>
    obtain ⟨m, hm⟩ := hvalue
    exact ⟨tells_set h hm hkey _, Document.exists_map_change ⟨m, hm⟩, fun hapart => separate_set hapart hkey _⟩

theorem Holds.setHandler? (h : Holds d given) (hname : name ∈ handlerNames) {o : Option String}
    {entries : String → List (Scalar × Scalar)} (hes : ∀ s, ((entries s).map (·.1)).Nodup)
    (hkeys : ∀ s, ∀ key ∉ handlerKeys, Mapping.get? (scalarEntries (entries s)) key = none)
    (hset : (match o with
      | some s => Log.setHandler name (scalarEntries (entries s)) d
      | none => pure d) = .ok d') :
    Holds d' fun path => (o.bind fun s => handlerEntry name (scalarEntries (entries s)) path).or (given path) := by
  cases o with
  | none =>
    cases hset
    exact h
  | some s => exact h.setHandler hname (hes s) (hkeys s) hset

/-! ### The environment -/

def withTop (env : Environment) (d : Document) : Document :=
  let d := match env.get? "LOG_LEVEL" with
    | some s => d.set (.text "level") (.text (upperString s))
    | none => d
  match env.get? "LOG_FORMAT" with
  | some s => d.set (.text "format") (.text (lowerString s))
  | none => d

def fileEntries (path : String) : List (Scalar × Scalar) :=
  [(.text "path", .text path), (.text "enabled", .bool true)]

def consoleEntries (word : String) : List (Scalar × Scalar) :=
  [(.text "enabled", .bool (truthWords.contains (lowerString word)))]

theorem withEnvironment_eq (env : Environment) (d : Document) : withEnvironment env d =
    ((match env.get? "LOG_FILE" with
      | some s => setHandler "file" (scalarEntries (fileEntries s)) (withTop env d)
      | none => pure (withTop env d)) >>= fun d =>
    match env.get? "LOG_CONSOLE" with
    | some s => setHandler "console" (scalarEntries (consoleEntries s)) d
    | none => pure d) := by
  unfold withEnvironment
  cases env.get? "LOG_FILE" <;> rfl

theorem get?_fileEntries (path key : String) : Mapping.get? (scalarEntries (fileEntries path)) key =
    if key = "path" then some (.text path) else if key = "enabled" then some (.bool true) else none := by
  rw [scalarEntries, fileEntries, List.map_cons, List.map_cons, Mapping.get?_cons, Mapping.get?_cons]
  simp only [Scalar.text.injEq, eq_comm (b := key)]
  rfl

theorem get?_consoleEntries (word key : String) : Mapping.get? (scalarEntries (consoleEntries word)) key =
    if key = "enabled" then some (.bool (truthWords.contains (lowerString word))) else none := by
  rw [scalarEntries, consoleEntries, List.map_cons, Mapping.get?_cons]
  simp only [Scalar.text.injEq, eq_comm (b := key)]
  rfl

theorem nodup_fileEntries (path : String) : ((fileEntries path).map (·.1)).Nodup := by
  simp [fileEntries]

theorem nodup_consoleEntries (word : String) : ((consoleEntries word).map (·.1)).Nodup := by
  simp [consoleEntries]

theorem get?_fileEntries_of_notMem (path : String) :
    ∀ key ∉ handlerKeys, Mapping.get? (scalarEntries (fileEntries path)) key = none := by
  intro key hkey
  have hne : ∀ key' ∈ handlerKeys, key ≠ key' := fun key' hmem heq => hkey (heq ▸ hmem)
  rw [get?_fileEntries, if_neg (hne "path" (by decide)), if_neg (hne "enabled" (by decide))]

theorem get?_consoleEntries_of_notMem (word : String) :
    ∀ key ∉ handlerKeys, Mapping.get? (scalarEntries (consoleEntries word)) key = none := by
  intro key hkey
  have hne : ∀ key' ∈ handlerKeys, key ≠ key' := fun key' hmem heq => hkey (heq ▸ hmem)
  rw [get?_consoleEntries, if_neg (hne "enabled" (by decide))]

theorem environmentSetting_eq (env : Environment) (hpath : path ∈ settingPaths) :
    ((env.get? "LOG_CONSOLE").bind fun s => handlerEntry "console" (scalarEntries (consoleEntries s)) path).or
      (((env.get? "LOG_FILE").bind fun s => handlerEntry "file" (scalarEntries (fileEntries s)) path).or
        ((if path = ["format"] then (env.get? "LOG_FORMAT").map fun s => Value.text (lowerString s) else none).or
          (if path = ["level"] then (env.get? "LOG_LEVEL").map fun s => Value.text (upperString s) else none))) =
      environmentSetting env path := by
  have hbind : ∀ {α : Type} (o : Option α), (o.bind fun _ => (none : Option Value)) = none := fun o => by
    cases o <;> rfl
  have hmap : ∀ (o : Option String) (f : String → Value), (o.bind fun s => some (f s)) = o.map f := fun o f => by
    cases o <;> rfl
  rcases mem_settingPaths.1 hpath with rfl | rfl | ⟨name, hname, key, hkey, rfl⟩
  · simp [handlerEntry, environmentSetting]
  · simp [handlerEntry, environmentSetting]
  · simp only [handlerEntry, get?_consoleEntries, get?_fileEntries]
    simp only [handlerNames, handlerKeys, List.mem_cons, List.not_mem_nil, or_false] at hname hkey
    rcases hname with rfl | rfl <;> rcases hkey with rfl | rfl | rfl | rfl | rfl | rfl <;>
      simp [environmentSetting, hbind, hmap]

theorem tells_withEnvironment (h : Tells d given) (hvalue : ∃ m, d.value = .map m)
    (hapart : (env.get? "LOG_FILE").isSome ∨ (env.get? "LOG_CONSOLE").isSome → Separate d)
    (hd' : withEnvironment env d = .ok d') :
    Tells d' fun path => (environmentSetting env path).or (given path) := by
  rw [withEnvironment_eq] at hd'
  obtain ⟨d₃, hfile, hconsole⟩ := bind_eq_ok.1 hd'
  obtain ⟨hlevel, hlevelvalue, hlevelapart⟩ :=
    tells_top "level" h (by decide) hvalue (env.get? "LOG_LEVEL") upperString
  obtain ⟨hformat, hformatvalue, hformatapart⟩ :=
    tells_top "format" hlevel (by decide) hlevelvalue (env.get? "LOG_FORMAT") lowerString
  -- handlers may be one if no variable changes any of them
  by_cases hneeds : (env.get? "LOG_FILE").isSome ∨ (env.get? "LOG_CONSOLE").isSome
  · have htop : Holds (withTop env d) _ := ⟨hformat, hformatapart (hlevelapart (hapart hneeds)), hformatvalue⟩
    have hfileholds := htop.setHandler? (by decide) nodup_fileEntries get?_fileEntries_of_notMem hfile
    have hholds := hfileholds.setHandler? (by decide) nodup_consoleEntries get?_consoleEntries_of_notMem hconsole
    refine hholds.tells.congr fun path hpath => ?_
    rw [← environmentSetting_eq env hpath]
    simp only [Option.or_assoc]
  · rw [not_or, Bool.not_eq_true, Bool.not_eq_true, Option.isSome_eq_false_iff, Option.isSome_eq_false_iff,
      Option.isNone_iff_eq_none, Option.isNone_iff_eq_none] at hneeds
    rw [hneeds.1] at hfile
    cases hfile
    rw [hneeds.2] at hconsole
    cases hconsole
    refine Tells.congr (d := withTop env d) hformat fun path hpath => ?_
    rw [← environmentSetting_eq env hpath, hneeds.1, hneeds.2]
    simp only [Option.or_assoc, Option.bind_none, Option.none_or]

end FeedOutline.Log
