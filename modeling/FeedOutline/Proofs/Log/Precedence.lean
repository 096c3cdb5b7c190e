import FeedOutline.Proofs.Log.EnvironmentSettings
import FeedOutline.Proofs.Log.Setup

/-!
Which of the sources of the settings counts for which of them: the caller's own settings, the environment, the
configuration file and the defaults, in this order. Only the level of a handler has a say of its own: where no
source gives one, the level of the logger is taken before the default.
-/
namespace FeedOutline.Log

open Data (Value Mapping Scalar Document)
open Data.Mapping (overlay)
open Disk (FileTree)
open Text

def loadedFrom : Option Bytes → Except Yaml.Fault Document
  | none => .ok .empty
  | some bytes => Yaml.load bytes

/-- What the sources give as a setting: the caller's own, over that of the environment, or else of the file. Only
where both are mappings, the one is merged into the other. -/
def SetupSource.given (source : SetupSource) (d : Document) (path : List String) : Option Value :=
  overlay ((environmentSetting source.env path).or (fileSetting d path)) (source.overrides.at? [] path)

def defaultSetting (path : List String) : Option Value :=
  (Value.map defaults).at? [] path

def SetupSource.chosen (source : SetupSource) (d : Document) : List String → Option Value
  | ["handlers", name, "level"] =>
    ((source.given d ["handlers", name, "level"]).or (source.given d ["level"])).or
      (defaultSetting ["handlers", name, "level"])
  | path => (source.given d path).or (defaultSetting path)

def entriesFor (keys : List String) (value? : String → Option Value) : Mapping :=
  keys.filterMap fun key => (value? key).map fun v => (.text key, v)

def settingsFor (chosen : List String → Option Value) : Mapping :=
  entriesFor ["level", "format"] (fun key => chosen [key]) ++
    [(.text "handlers", .map (entriesFor handlerNames fun name =>
      some (.map (entriesFor handlerKeys fun key => chosen ["handlers", name, key]))))]

variable {d d' : Document} {given : List String → Option Value} {m settings : Mapping} {name key : String}
  {path : List String} {source : SetupSource} {files : FileTree} {old : Logger} {bound : Nat}

/-! ### Settings as a mapping -/

theorem get?_entriesFor (keys : List String) (value? : String → Option Value) (key : String) :
    Mapping.get? (entriesFor keys value?) key = if key ∈ keys then value? key else none := by
  induction keys with
  | nil => rfl
  | cons k keys ih =>
    rw [entriesFor, List.filterMap_cons]
    by_cases hk : key = k
    · subst hk
      rw [if_pos (List.mem_cons_self ..)]
      cases hv : value? key with
      | none =>
        change Mapping.get? (entriesFor keys value?) key = none
        rw [ih, hv, ite_self]
      | some v =>
        dsimp only [Option.map_some]
        rw [Mapping.get?_cons, if_pos rfl]
    · have hmem : key ∈ k :: keys ↔ key ∈ keys := by
        rw [List.mem_cons, or_iff_right hk]
      rw [if_congr hmem rfl rfl, ← ih]
      cases value? k with
      | none => rfl
      | some v =>
        dsimp only [Option.map_some]
        rw [Mapping.get?_cons, if_neg (by rintro ⟨⟩; exact hk rfl)]
        rfl

structure Has (settings : Mapping) (chosen : List String → Option Value) : Prop where
  maps : ∀ name ∈ handlerNames, (Value.map settings).Maps [] ["handlers", name]
  settings : ∀ path ∈ settingPaths, (Value.map settings).at? [] path = chosen path

theorem get?_settingsFor (chosen : List String → Option Value) :
    Mapping.get? (settingsFor chosen) "level" = chosen ["level"] ∧
      Mapping.get? (settingsFor chosen) "format" = chosen ["format"] ∧
      Mapping.get? (settingsFor chosen) "handlers" = some (.map (entriesFor handlerNames fun name =>
        some (.map (entriesFor handlerKeys fun key => chosen ["handlers", name, key])))) := by
  simp only [settingsFor, Mapping.get?_append, get?_entriesFor, Mapping.get?_singleton]
  refine ⟨?_, ?_, ?_⟩
  · rw [if_pos (by decide), if_neg (by decide), Option.or_none]
  · rw [if_pos (by decide), if_neg (by decide), Option.or_none]
  · rw [if_neg (by decide), if_pos trivial, Option.none_or]

theorem has_settingsFor (chosen : List String → Option Value) : Has (settingsFor chosen) chosen := by
  obtain ⟨hlevel, hformat, hhandlers⟩ := get?_settingsFor chosen
  refine ⟨fun name hname => ⟨rfl, fun w hw => ?_⟩, fun path hpath => ?_⟩
  · cases hhandlers.symm.trans hw
    refine ⟨rfl, fun w hw => ?_⟩
    rw [Value.get?_map, get?_entriesFor, if_pos hname] at hw
    cases hw
    rfl
  · rcases mem_settingPaths.1 hpath with rfl | rfl | ⟨name, hname, key, hkey, rfl⟩
    · exact (Value.at?_singleton ..).trans hlevel
    · exact (Value.at?_singleton ..).trans hformat
    · rw [Value.at?, Value.get?_map, hhandlers, Option.bind_some, Value.at?, Value.get?_map, get?_entriesFor,
        if_pos hname, Option.bind_some, Value.at?_singleton, Value.get?_map, get?_entriesFor, if_pos hkey]

theorem exists_asMapping_entry (m : Mapping) (key : String)
    (h : ∀ v ∈ Mapping.get? m key, (v.viewIn []).map?.isSome) :
    ∃ es, asMapping (entry m key (.map [])) = .ok es ∧
      ∀ k, Mapping.get? es k = (Mapping.get? m key).bind (Value.get? [] k) := by
  rw [entry]
  cases hv : Mapping.get? m key with
  | none => exact ⟨[], rfl, fun _ => rfl⟩
  | some v =>
    obtain ⟨es, rfl⟩ := Value.exists_map_of_isSome (h v hv)
    exact ⟨es, rfl, fun _ => rfl⟩

theorem exists_handlerSettings {chosen : List String → Option Value} (name : String) (h : Has settings chosen)
    (hname : name ∈ handlerNames) : ∃ handler, handlerSettings settings name = .ok handler ∧
      ∀ key ∈ handlerKeys, Mapping.get? handler key = chosen ["handlers", name, key] := by
  have hmaps := (h.maps name hname).2
  obtain ⟨handlers, hhandlers, hget⟩ := exists_asMapping_entry settings "handlers" fun v hv => (hmaps v hv).1
  have hhandlermap : ∀ v ∈ Mapping.get? handlers name, (v.viewIn []).map?.isSome := by
    intro v hv
    rw [hget] at hv
    obtain ⟨hs, hhs, hv⟩ := Option.bind_eq_some_iff.1 hv
    exact (hmaps hs hhs).2 v hv
  obtain ⟨handler, hhandler, hkeys⟩ := exists_asMapping_entry handlers name hhandlermap
  refine ⟨handler, ?_, fun key hkey => ?_⟩
  · rw [handlerSettings, hhandlers]
    exact hhandler
  · have hpath := mem_settingPaths.2 (.inr (.inr ⟨name, hname, key, hkey, rfl⟩))
    rw [hkeys, hget, ← h.settings _ hpath, Value.at?, Value.get?_map, Option.bind_assoc]
    exact Option.bind_congr fun hs _ => Option.bind_congr fun _ _ => (Value.at?_singleton ..).symm

theorem exists_handlerSettings_congr {other : Mapping} {chosen : List String → Option Value} (name : String)
    (h : Has settings chosen) (hother : Has other chosen) (hname : name ∈ handlerNames) :
    ∃ handler handler', handlerSettings settings name = .ok handler ∧ handlerSettings other name = .ok handler' ∧
      ∀ key ∈ handlerKeys, ∀ v, entry handler key v = entry handler' key v := by
  obtain ⟨handler, hhandler, hkeys⟩ := exists_handlerSettings name h hname
  obtain ⟨handler', hhandler', hkeys'⟩ := exists_handlerSettings name hother hname
  refine ⟨handler, handler', hhandler, hhandler', fun key hkey v => ?_⟩
  rw [entry, entry, hkeys key hkey, hkeys' key hkey]

theorem wanted_congr {other : Mapping} {chosen : List String → Option Value} (h : Has settings chosen)
    (hother : Has other chosen) (here : List String) : wanted here settings = wanted here other := by
  have htop : ∀ key, [key] ∈ settingPaths → ∀ v, entry settings key v = entry other key v := by
    intro key hkey v
    have hget := (h.settings [key] hkey).trans (hother.settings [key] hkey).symm
    rw [Value.at?_singleton, Value.at?_singleton, Value.get?_map, Value.get?_map] at hget
    rw [entry, entry, hget]
  have hlevel := htop "level" (by decide)
  have hformat : formatOf settings = formatOf other := by
    rw [formatOf, formatOf, htop "format" (by decide)]
  have hconsole : consoleHandler settings = consoleHandler other := by
    obtain ⟨console, console', hsettings, hsettings', hkeys⟩ :=
      exists_handlerSettings_congr "console" h hother (by decide)
    rw [consoleHandler, consoleHandler, hsettings, hsettings']
    simp only [levelEntry, hlevel, hformat, hkeys "enabled" (by decide), hkeys "stream" (by decide),
      hkeys "level" (by decide), bind, Except.bind]
  have hfile : filePlan settings = filePlan other := by
    obtain ⟨file, file', hsettings, hsettings', hkeys⟩ := exists_handlerSettings_congr "file" h hother (by decide)
    rw [filePlan, filePlan, hsettings, hsettings']
    simp only [levelEntry, hlevel, hformat, hkeys "enabled" (by decide), hkeys "path" (by decide),
      hkeys "max_bytes" (by decide), hkeys "backup_count" (by decide), hkeys "level" (by decide), bind, Except.bind]
  rw [wanted, wanted, wantedFile, wantedFile, topLevel, topLevel, hlevel, hconsole, hfile]

/-! ### Merging the sources -/

theorem overlay_eq_or {before : Option Value} (h : ∀ b ∈ before, ∃ s, b = .scalar s) (o : Option Value) :
    overlay before o = o.or before := by
  cases o with
  | none => rfl
  | some v =>
    cases before with
    | none => exact congrArg some (Value.mergeValue_none v)
    | some b =>
      obtain ⟨s, rfl⟩ := h b rfl
      rw [overlay, Mapping.mergeValue.eq_def]
      rfl

theorem has_merge {above : Mapping} {base top : List String → Option Value} (h : Has settings base)
    (hover : Has above top) (hproper : (Value.map above).Proper bound) :
    Has (Mapping.merge settings above) fun path => overlay (base path) (top path) := by
  refine ⟨fun name hname => Value.maps_merge (h.maps name hname) (hover.maps name hname) hproper,
    fun path hpath => ?_⟩
  rw [← h.settings path hpath, ← hover.settings path hpath]
  rcases mem_settingPaths.1 hpath with rfl | rfl | ⟨name, hname, key, -, rfl⟩
  · exact Value.at?_merge [] rfl rfl hproper _
  · exact Value.at?_merge [] rfl rfl hproper _
  · exact Value.at?_merge ["handlers", name] (h.maps name hname) (hover.maps name hname) hproper key

theorem Has.congr {chosen chosen' : List String → Option Value} (h : Has settings chosen)
    (heq : ∀ path ∈ settingPaths, chosen path = chosen' path) : Has settings chosen' :=
  ⟨h.maps, fun path hpath => (h.settings path hpath).trans (heq path hpath)⟩

theorem get?_entriesOf (hview : d.view d.value = .map m) (key : String) : Mapping.get? (entriesOf d) key =
    (Mapping.get? m key).map fun v => if key = "level" ∨ key = "format" then d.unfold v else d.expand 4 v := by
  have hentries : entriesOf d = m.map fun e => (e.1,
      if e.1 == .text "level" || e.1 == .text "format" then d.unfold e.2 else d.expand 4 e.2) := by
    rw [entriesOf, Document.entries_of_view hview]
  rw [hentries, Mapping.get?_mapValues fun k v =>
    if k == .text "level" || k == .text "format" then d.unfold v else d.expand 4 v]
  simp

theorem proper_entriesOf (hd : d.Sound) (hview : d.view d.value = .map m) :
    (Value.map (entriesOf d)).Proper d.parts.length := by
  have hproper := Value.proper_viewIn hd.proper_parts hd.value
  rw [← Document.view, hview] at hproper
  obtain ⟨hnodup, hall⟩ := Value.proper_map_iff.1 hproper
  rw [entriesOf, Document.entries_of_view hview, Value.proper_map_iff, List.map_map]
  refine ⟨hnodup, fun e he => ?_⟩
  obtain ⟨e', he', rfl⟩ := List.mem_map.1 he
  dsimp only
  split
  · exact Document.proper_expandOnce hd (hall e' he') _ _
  · exact Document.proper_expand hd (hall e' he') _

theorem has_entriesOf (h : Tells d given) (hplain : ∀ path ∈ settingPaths, ∀ w ∈ given path, w.isPlain) :
    Has (entriesOf d) given := by
  obtain ⟨m, hview⟩ := h.view
  have hget : ∀ k, Mapping.get? m k = d.value.get? d.parts k := fun k => by
    rw [d.get?_value, Document.entries_of_view hview]
  have hproper : ∀ {k v}, d.value.get? d.parts k = some v → v.Proper d.parts.length :=
    Value.proper_child h.sound.proper_parts h.sound.value
  have htop : ∀ key, key = "level" ∨ key = "format" → [key] ∈ settingPaths →
      (Value.map (entriesOf d)).at? [] [key] = given [key] := by
    intro key hkey hpath
    have hgiven := h.settings [key] hpath
    rw [Document.at?, Value.at?_singleton] at hgiven
    rw [Value.at?_singleton, Value.get?_map, get?_entriesOf hview, hget, hgiven]
    cases hv : given [key] with
    | none => rfl
    | some v =>
      rw [Option.map_some, if_pos hkey]
      exact congrArg some (Value.mapParts_of_isPlain _ v (hplain [key] hpath v hv))
  refine ⟨fun name hname => ⟨rfl, fun w hw => ?_⟩, fun path hpath => ?_⟩
  · rw [Value.get?_map, get?_entriesOf hview, hget] at hw
    obtain ⟨v, hv, rfl⟩ := Option.map_eq_some_iff.1 hw
    rw [if_neg (by decide)]
    exact Document.maps_expand h.sound (hproper hv) ((h.maps name hname).2 v hv) (Nat.le_succ 1)
  · rcases mem_settingPaths.1 hpath with rfl | rfl | ⟨name, hname, key, hkey, rfl⟩
    · exact htop "level" (.inl rfl) hpath
    · exact htop "format" (.inr rfl) hpath
    · have hgiven := h.settings _ hpath
      rw [Document.at?, Value.at?] at hgiven
      rw [Value.at?, Value.get?_map, get?_entriesOf hview, hget, ← hgiven]
      cases hv : d.value.get? d.parts "handlers" with
      | none => rfl
      | some v =>
        rw [hv, Option.bind_some] at hgiven
        rw [Option.map_some, if_neg (by decide), Option.bind_some, Option.bind_some]
        refine Document.at?_expand h.sound (hproper hv) (fun w hw => ?_) (Nat.le_succ 2)
        exact hplain _ hpath w (hgiven ▸ hw)

theorem exists_scalar_of_environmentSetting {env : Environment} :
    ∀ v ∈ environmentSetting env path, ∃ s, v = .scalar s := by
  intro v hv
  unfold environmentSetting at hv
  split at hv
  iterate 5
    · obtain ⟨s, -, rfl⟩ := Option.map_eq_some_iff.1 hv
      exact ⟨_, rfl⟩
  · cases hv

theorem has_over {explicit : Mapping} (h : Tells d given) (hvalue : ∃ m, d.value = .map m)
    (hseparate : (source.env.get? "LOG_FILE").isSome ∨ (source.env.get? "LOG_CONSOLE").isSome → Separate d)
    (hplain : ∀ path ∈ settingPaths, ∀ w ∈ given path, w.isPlain)
    (hoverrides : Formed [] source.overrides) (hproper : source.overrides.Proper 0)
    (hover : source.over d = .ok explicit) :
    (Has explicit fun path => overlay ((environmentSetting source.env path).or (given path))
      (source.overrides.at? [] path)) ∧ ∃ bound, (Value.map explicit).Proper bound := by
  obtain ⟨d', hd', hover⟩ := bind_eq_ok.1 hover
  have htells := tells_withEnvironment h hvalue hseparate hd'
  obtain ⟨m, hview⟩ := htells.view
  have hentries := proper_entriesOf htells.sound hview
  have hhas := has_entriesOf htells fun path hpath w hw => by
    rcases Option.or_eq_some_iff.1 hw with hw | ⟨-, hw⟩
    · obtain ⟨s, rfl⟩ := exists_scalar_of_environmentSetting w hw
      rfl
    · exact hplain path hpath w hw
  dsimp only at hover
  split at hover
  · next hempty =>
    -- settings of the caller that are empty are left out, whatever they are
    cases hover
    refine ⟨hhas.congr fun path hpath => ?_, _, hentries⟩
    have hnone := get?_of_isEmpty (v := source.overrides) [] (by rwa [Value.viewIn_nil])
    have hat : source.overrides.at? [] path = none := by
      rcases mem_settingPaths.1 hpath with rfl | rfl | ⟨name, -, key, -, rfl⟩ <;> rw [Value.at?, hnone] <;> rfl
    rw [hat]
    rfl
  · split at hover
    · next o ho =>
      cases hover
      rw [ho] at hoverrides hproper ⊢
      have hhaso : Has o fun path => (Value.map o).at? [] path :=
        ⟨fun name hname => hoverrides.maps rfl hname, fun _ _ => rfl⟩
      have hbound := Value.proper_mono (Nat.zero_le d'.parts.length) hproper
      exact ⟨has_merge hhas hhaso hproper, _, Value.proper_merge _ hentries _ hbound⟩
    · cases hover

/-! ### The defaults -/

def levelFor (level : Option Value) : List String → Option Value
  | ["handlers", _, "level"] => level
  | _ => none

theorem has_defaults : Has defaults defaultSetting := by
  refine ⟨fun name hname => ?_, fun path _ => rfl⟩
  have hformed : Formed [] (.map defaults) := by
    refine ⟨fun w hw => ?_, fun name hname w hw => ?_, fun w hw => ?_⟩
    · cases hw
      rfl
    · rcases List.mem_cons.1 hname with rfl | hname
      · cases hw
        rfl
      · rw [List.mem_singleton.1 hname] at hw
        cases hw
        rfl
    · cases hw
      rfl
  exact hformed.maps rfl hname

theorem exists_scalar_of_defaultSetting (hpath : path ∈ settingPaths) :
    ∀ v ∈ defaultSetting path, ∃ s, v = .scalar s := by
  intro v hv
  rcases mem_settingPaths.1 hpath with rfl | rfl | ⟨name, hname, key, hkey, rfl⟩
  · exact ⟨_, (Option.some.inj hv).symm⟩
  · exact ⟨_, (Option.some.inj hv).symm⟩
  · simp only [handlerNames, handlerKeys, List.mem_cons, List.not_mem_nil, or_false] at hname hkey
    rcases hname with rfl | rfl <;> rcases hkey with rfl | rfl | rfl | rfl | rfl | rfl <;> cases hv <;> exact ⟨_, rfl⟩

def levels (v : Value) : Mapping :=
  [(.text "handlers", .map
    [(.text "console", .map [(.text "level", v)]), (.text "file", .map [(.text "level", v)])])]

theorem has_levels (v : Value) : Has (levels v) (levelFor (some v)) := by
  refine ⟨fun name hname => ⟨rfl, fun w hw => ?_⟩, fun path hpath => ?_⟩
  · cases hw
    refine ⟨rfl, fun w hw => ?_⟩
    rcases List.mem_cons.1 hname with rfl | hname
    · cases hw
      rfl
    · rw [List.mem_singleton.1 hname] at hw
      cases hw
      rfl
  · rcases mem_settingPaths.1 hpath with rfl | rfl | ⟨name, hname, key, hkey, rfl⟩
    · rfl
    · rfl
    · simp only [handlerNames, handlerKeys, List.mem_cons, List.not_mem_nil, or_false] at hname hkey
      rcases hname with rfl | rfl <;> rcases hkey with rfl | rfl | rfl | rfl | rfl | rfl <;> rfl

theorem has_defaultsAt {level : Option Value} (hlevel : ∀ v ∈ level, ∃ s, v = .scalar s) :
    Has (defaultsAt level) fun path => (levelFor level path).or (defaultSetting path) := by
  cases level with
  | none =>
    refine has_defaults.congr fun path _ => ?_
    have hnone : levelFor none path = none := by
      unfold levelFor
      split <;> rfl
    rw [hnone, Option.none_or]
  | some v =>
    obtain ⟨s, rfl⟩ := hlevel v rfl
    have hproper : (Value.map (levels (.scalar s))).Proper 0 := by
      simp [levels, Value.Proper, Data.Value.properEntries]
    exact (has_merge has_defaults (has_levels _) hproper).congr fun path hpath =>
      overlay_eq_or (exists_scalar_of_defaultSetting hpath) _

theorem has_settingsOf {explicit : Mapping} {chosen : List String → Option Value} (h : Has explicit chosen)
    (hproper : (Value.map explicit).Proper bound) (hlevel : ∀ v ∈ chosen ["level"], ∃ s, v = .scalar s) :
    Has (settingsOf explicit) fun path =>
      (chosen path).or ((levelFor (chosen ["level"]) path).or (defaultSetting path)) := by
  have hget : Mapping.get? explicit "level" = chosen ["level"] :=
    (Value.at?_singleton ..).symm.trans (h.settings ["level"] (by decide))
  rw [settingsOf, hget]
  -- the defaults are scalars, also with the level in them, so that a mapping over one is not merged
  refine (has_merge (has_defaultsAt hlevel) h hproper).congr fun path hpath => overlay_eq_or (fun b hb => ?_) _
  rcases Option.or_eq_some_iff.1 hb with hb | ⟨-, hb⟩
  · unfold levelFor at hb
    split at hb
    · exact hlevel b hb
    · cases hb
  · exact exists_scalar_of_defaultSetting hpath b hb

/-! ### The sources together -/

theorem ofDocument_empty : ofDocument .empty = .ok .empty := by
  have hempty : (Document.empty.view Document.empty.value).isEmpty = true := rfl
  have hsection : loggingPart .empty = .ok .empty := rfl
  have hpart : ofPart .empty = .ok .empty := rfl
  rw [ofDocument, if_pos hempty, hsection]
  change (ofPart .empty >>= _) = _
  rw [hpart]
  rfl

theorem fromBytes_eq_ok {bytes : Bytes} (h : fromBytes bytes = .ok d') :
    ∃ d, Yaml.load bytes = .ok d ∧ ofDocument d = .ok d' := by
  unfold fromBytes at h
  split at h
  · cases h
  · next d hload => exact ⟨d, hload, h⟩

theorem loadedFrom_some (bytes : Bytes) : loadedFrom (some bytes) = Yaml.load bytes :=
  rfl

theorem documentOf_some (bytes : Bytes) : documentOf (some bytes) = fromBytes bytes :=
  rfl

theorem exists_document_of_documentOf {bytes : Option Bytes} (h : documentOf bytes = .ok d') :
    ∃ d, loadedFrom bytes = .ok d ∧ d.Sound ∧ ofDocument d = .ok d' := by
  cases bytes with
  | none =>
    cases h
    exact ⟨.empty, rfl, Document.sound_empty, ofDocument_empty⟩
  | some bytes =>
    rw [documentOf_some] at h
    obtain ⟨d, hload, hdocument⟩ := fromBytes_eq_ok h
    rw [loadedFrom_some]
    exact ⟨d, hload, Yaml.sound_of_load hload, hdocument⟩

theorem plain_of_fileSetting {env : Environment} (h : Untangled env d) :
    ∀ path ∈ settingPaths, ∀ w ∈ fileSetting d path, w.isPlain := by
  intro path hpath w hw
  rcases Option.or_eq_some_iff.1 hw with hw | ⟨-, hw⟩
  · obtain ⟨name, -, hw⟩ := Option.bind_eq_some_iff.1 hw
    rw [at?_withFile name hpath] at hw
    unfold handlerEntry at hw
    split at hw
    · split at hw
      · obtain ⟨s, rfl⟩ := Mapping.exists_scalar_of_get? hw
        rfl
      · cases hw
    · cases hw
  · exact h.plain path hpath w hw

theorem exists_scalar_of_given (hfile : Formed d.parts (sectionOf d)) (hoverrides : Formed [] source.overrides) :
    ∀ v ∈ source.given d ["level"], ∃ s, v = .scalar s := by
  have htext : ∀ v : Value, v.anyText?.isSome → ∃ s, v = .scalar s := by
    intro v hv
    cases v with
    | scalar s => exact ⟨s, rfl⟩
    | _ => cases hv
  intro v hv
  rw [SetupSource.given] at hv
  cases hown : source.overrides.at? [] ["level"] with
  | none =>
    rw [hown] at hv
    rcases Option.or_eq_some_iff.1 hv with hv | ⟨-, hv⟩
    · exact exists_scalar_of_environmentSetting v hv
    · rcases Option.or_eq_some_iff.1 hv with hv | ⟨-, hv⟩
      · obtain ⟨name, -, hv⟩ := Option.bind_eq_some_iff.1 hv
        cases hv
      · exact htext v (hfile.level v hv)
  | some w =>
    obtain ⟨s, rfl⟩ := htext w (hoverrides.level w hown)
    rw [hown] at hv
    cases hv
    exact ⟨s, Value.mergeValue_scalar ..⟩

theorem chosen_eq (source : SetupSource) (d : Document) (path : List String) : source.chosen d path =
    (source.given d path).or ((levelFor (source.given d ["level"]) path).or (defaultSetting path)) := by
  unfold SetupSource.chosen levelFor
  split
  · exact Option.or_assoc
  · rw [Option.none_or]

/-- A setup that goes through makes the logger that the settings ask for that count. -/
theorem wanted_chosen (hd : loadedFrom (source.bytes? files) = .ok d) (hfile : Formed d.parts (sectionOf d))
    (hoverrides : Formed [] source.overrides) (hproper : source.overrides.Proper 0)
    (huntangled : Untangled source.env d) (h : (setup source files old).result = .ok ()) :
    wanted files.here (settingsFor (source.chosen d)) = .ok (setup source files old).logger := by
  obtain ⟨explicit, hexplicit, hsetup⟩ := exists_explicit_of_setup h
  obtain ⟨d', hd', hover⟩ := explicitSettings_eq_ok hexplicit
  obtain ⟨d₀, hload, hsound, hdocument⟩ := exists_document_of_documentOf hd'
  cases hload.symm.trans hd
  obtain ⟨htells, hvalue, hseparate⟩ := tells_ofDocument hsound hfile huntangled hdocument
  obtain ⟨hhas, bound, hbound⟩ :=
    has_over htells hvalue hseparate (plain_of_fileSetting huntangled) hoverrides hproper hover
  have hsettings := has_settingsOf hhas hbound (exists_scalar_of_given hfile hoverrides)
  have hchosen : Has (settingsOf explicit) (source.chosen d) :=
    hsettings.congr fun path _ => (chosen_eq source d path).symm
  rw [hsetup] at h ⊢
  rw [← wanted_of_configure h]
  exact wanted_congr (has_settingsFor _) hchosen _

theorem wanted_chosen_of_section :
    let source : SetupSource := { configPath := "/c.yaml",
                                  env := { vars := [("LOG_LEVEL", "error"), ("LOG_FORMAT", "JSON"), ("LOG_CONSOLE", "no")] },
                                  overrides := .map [(.text "handlers", .map [(.text "console", .map
                                    [(.text "enabled", .bool true)])])] }
    let files : FileTree := { here := ["srv"], entries := [(["srv"], .directory), (["c.yaml"], .file (encodeUtf8
      "logging:\n  level: debug\n  file: logs/a.log\n  handlers:\n    file: \x7blevel: info, path: b.log\x7d\n"))] }
    let logger := (setup source files {}).logger
    let view (h : Handler) := (h.destination.file?, h.level, h.format)
    ∃ d, loadedFrom (source.bytes? files) = .ok d ∧ Formed d.parts (sectionOf d) ∧ Formed [] source.overrides ∧
      source.overrides.Proper 0 ∧ Untangled source.env d ∧ (setup source files {}).result = .ok () ∧
      wanted files.here (settingsFor (source.chosen d)) = .ok logger ∧ logger.level = 40 ∧
      logger.handlers.map view = [(none, 40, .json), (some ["srv", "logs", "a.log"], 20, .json)] := by
  intro source files logger view
  obtain ⟨d, hd, hformed⟩ := exists_ok_of_any (x := loadedFrom (source.bytes? files))
    (p := fun d => Formed d.parts (sectionOf d) ∧ Untangled source.env d) (by decide +kernel)
  obtain ⟨hfile, huntangled⟩ := of_decide_eq_true hformed
  have hoverrides : Formed [] source.overrides := by decide +kernel
  have hproper : source.overrides.Proper 0 := by
    simp [source, Value.Proper, Data.Value.properEntries]
  obtain ⟨hok, hlevel, hhandlers⟩ : (setup source files {}).result = .ok () ∧ logger.level = 40 ∧
      logger.handlers.map view = [(none, 40, .json), (some ["srv", "logs", "a.log"], 20, .json)] := by
    decide +kernel
  exact ⟨d, hd, hfile, hoverrides, hproper, huntangled, hok,
    wanted_chosen hd hfile hoverrides hproper huntangled hok, hlevel, hhandlers⟩

/-- The handlers share a mapping, so that a console that is switched off takes the log file with it. -/
theorem shared_handler_switched_off :
    let source : SetupSource := { configPath := "c.yaml", env := { vars := [("LOG_CONSOLE", "off")] } }
    let files : FileTree := { entries := [(["c.yaml"], .file (encodeUtf8
      "handlers:\n  console: &h \x7benabled: true, level: DEBUG, path: s.log\x7d\n  file: *h\n"))] }
    let view (h : Handler) := (h.destination.file?, h.level, h.format)
    ∃ d, loadedFrom (source.bytes? files) = .ok d ∧ Formed d.parts (sectionOf d) ∧ Formed [] source.overrides ∧
      (setup source files {}).result = .ok () ∧ (setup source files {}).logger.handlers.map view = [] ∧
      (wanted files.here (settingsFor (source.chosen d))).map (·.handlers.map view) = .ok [(some ["s.log"], 10, .plain)] := by
  intro source files view
  obtain ⟨d, hd, hchosen⟩ := exists_ok_of_any (x := loadedFrom (source.bytes? files)) (p := fun d =>
    Formed d.parts (sectionOf d) ∧
      (wanted files.here (settingsFor (source.chosen d))).map (·.handlers.map view) = .ok [(some ["s.log"], 10, .plain)])
    (by decide +kernel)
  obtain ⟨hformed, hwanted⟩ := of_decide_eq_true hchosen
  obtain ⟨hok, hhandlers⟩ : (setup source files {}).result = .ok () ∧
      (setup source files {}).logger.handlers.map view = [] := by
    decide +kernel
  exact ⟨d, hd, hformed, by decide +kernel, hok, hhandlers, hwanted⟩

end FeedOutline.Log
