import FeedOutline.Log.Setup
import FeedOutline.Proofs.Data.Copy
import FeedOutline.Proofs.Data.Place
import FeedOutline.Proofs.Except
import FeedOutline.Proofs.Yaml.Load

/-!
What a configuration file says of the settings of the logger. A path under `file` stands over the settings of
the file handler, and takes the handler apart from others that share its mapping.
-/
namespace FeedOutline.Log

open Data (Value Mapping Scalar Document Place)
open Data.Mapping (scalarEntries)
open Data.Value (shiftParts)
open Text

def handlerNames : List String :=
  ["console", "file"]

def handlerKeys : List String :=
  ["enabled", "level", "stream", "path", "max_bytes", "backup_count"]

def settingPaths : List (List String) :=
  ["level"] :: ["format"] :: handlerNames.flatMap fun name => handlerKeys.map fun key => ["handlers", name, key]

def handlerEntry (name : String) (entries : Mapping) : List String → Option Value
  | ["handlers", handler, key] => if handler = name then entries.get? key else none
  | _ => none

/-- That a document gives the settings some values, with mappings on the way to them. -/
structure Tells (d : Document) (given : List String → Option Value) : Prop where
  sound : d.Sound
  maps : ∀ name ∈ handlerNames, d.Maps ["handlers", name]
  settings : ∀ path ∈ settingPaths, d.at? path = given path

/-- No handlers stand at one place. -/
def Separate (d : Document) : Prop :=
  ∀ name ∈ handlerNames, ∀ other ∈ handlerNames, name ≠ other →
    ∀ p, d.follow ["handlers", name] d.start = some p → d.follow ["handlers", other] d.start ≠ some p

def sectionOf (d : Document) : Value :=
  (d.at? ["logging"]).getD d.value

def namedFile? (d : Document) : Option AnyText :=
  (((sectionOf d).get? d.parts "file").bind Value.anyText?).filter (! ·.isEmpty)

/-- What a configuration file gives as a setting: a path under `file` makes a file handler, and else the settings
of the handlers count. -/
def fileSetting (d : Document) (path : List String) : Option Value :=
  ((namedFile? d).bind fun name => (Value.map (withFile name)).at? [] path).or ((sectionOf d).at? d.parts path)

variable {d d' : Document} {given given' : List String → Option Value} {m : Mapping} {name key : String}
  {path : List String}

theorem mem_settingPaths : path ∈ settingPaths ↔ path = ["level"] ∨ path = ["format"] ∨
    ∃ name ∈ handlerNames, ∃ key ∈ handlerKeys, path = ["handlers", name, key] := by
  simp only [settingPaths, List.mem_cons, List.mem_flatMap, List.mem_map, eq_comm (b := path)]

theorem handlers_notMem_name (hname : name ∈ handlerNames) : "handlers" ∉ [name] := by
  have hnames : ∀ name ∈ handlerNames, "handlers" ∉ [name] := by decide
  exact hnames name hname

theorem handlers_notMem_setting (hname : name ∈ handlerNames) (hkey : key ∈ handlerKeys) :
    "handlers" ∉ [name, key] := by
  have hnames : ∀ name ∈ handlerNames, ∀ key ∈ handlerKeys, "handlers" ∉ [name, key] := by decide
  exact hnames name hname key hkey

theorem notMem_handlerKeys (hname : name ∈ handlerNames) : ∀ key ∈ handlerKeys, key ∉ ["handlers", name] := by
  have hnames : ∀ name ∈ handlerNames, ∀ key ∈ handlerKeys, key ∉ ["handlers", name] := by decide
  exact hnames name hname

theorem name_notMem_handlers (hname : name ∈ handlerNames) : ∀ k ∈ [name], k ∉ ["handlers"] := by
  have hnames : ∀ name ∈ handlerNames, ∀ k ∈ [name], k ∉ ["handlers"] := by decide
  exact hnames name hname

theorem name_notMem_handler (hname : name ∈ handlerNames) {other : String} (hne : other ≠ name) :
    ∀ k ∈ [name], k ∉ ["handlers", other] := by
  intro k hk hmem
  rcases List.mem_cons.1 hmem with heq | hmem
  · exact name_notMem_handlers hname k hk (List.mem_singleton.2 heq)
  · rw [List.mem_singleton.1 hk] at hmem
    exact hne (List.mem_singleton.1 hmem).symm

theorem notMem_top (hname : name ∈ handlerNames) :
    "level" ∉ ["handlers", name] ∧ "format" ∉ ["handlers", name] := by
  have hnames : ∀ name ∈ handlerNames, "level" ∉ ["handlers", name] ∧ "format" ∉ ["handlers", name] := by
    decide
  exact hnames name hname

theorem Tells.view (h : Tells d given) : ∃ m, d.view d.value = .map m := by
  obtain ⟨m, hm⟩ := Option.isSome_iff_exists.1 (h.maps "console" (by decide)).1
  exact ⟨m, Value.map?_eq_some.1 hm⟩

theorem Tells.congr (h : Tells d given) (heq : ∀ path ∈ settingPaths, given path = given' path) :
    Tells d given' :=
  ⟨h.sound, h.maps, fun path hpath => (h.settings path hpath).trans (heq path hpath)⟩

/-! ### Handlers apart from one another -/

def Unshared (parts : List Value) (v : Value) : Prop :=
  ∀ name ∈ handlerNames, ∀ other ∈ handlerNames, name ≠ other → ∀ w ∈ v.at? parts ["handlers", name],
    ∀ w' ∈ v.at? parts ["handlers", other], ¬ w.SamePart w'

instance (parts : List Value) (v : Value) : Decidable (Unshared parts v) :=
  inferInstanceAs (Decidable (∀ name ∈ handlerNames, ∀ other ∈ handlerNames, name ≠ other →
    ∀ w ∈ v.at? parts ["handlers", name], ∀ w' ∈ v.at? parts ["handlers", other], ¬ w.SamePart w'))

theorem separate_of_unshared (h : Unshared d.parts d.value) : Separate d := by
  intro name hname other hother hne p hp hp'
  obtain ⟨q, v, hq, hv, rfl⟩ := Document.exists_of_follow ["handlers"] hp
  obtain ⟨q', w, hq', hw, heq⟩ := Document.exists_of_follow ["handlers"] hp'
  cases hq.symm.trans hq'
  rw [Document.placeOf_eq, Document.placeOf_eq] at heq
  cases hvpart : v.part? with
  | some n =>
    cases hwpart : w.part? with
    | some n' =>
      rw [hvpart, hwpart] at heq
      cases heq
      exact h name hname other hother hne v hv w hw (Value.samePart_iff.2 ⟨n, hvpart, hwpart⟩)
    | none =>
      rw [hvpart, hwpart] at heq
      exact List.cons_ne_nil _ _ (List.append_eq_nil_iff.1 (congrArg Place.keys heq).symm).2
  | none =>
    cases hwpart : w.part? with
    | some n' =>
      rw [hvpart, hwpart] at heq
      exact List.cons_ne_nil _ _ (List.append_eq_nil_iff.1 (congrArg Place.keys heq)).2
    | none =>
      rw [hvpart, hwpart] at heq
      have hkeys := List.append_inj' (congrArg Place.keys heq) rfl
      exact hne (List.singleton_inj.1 hkeys.2)

/-! ### A path under `file` -/

def pathEntries (path : AnyText) : List (Scalar × Scalar) :=
  [(.text "enabled", .bool true), (.text "path", .ofText path)]

def fileHandlers (path : AnyText) : Mapping :=
  [(.text "file", .map (scalarEntries (pathEntries path)))]

theorem nodup_pathEntries (path : AnyText) : ((pathEntries path).map (·.1)).Nodup := by
  simp [pathEntries]

theorem proper_fileHandlers (bound : Nat) (path : AnyText) : (Value.map (fileHandlers path)).Proper bound := by
  exact Value.proper_singleton (Mapping.proper_scalarEntries _ (nodup_pathEntries path))

theorem at?_fileHandlers {parts : List Value} (path : AnyText) (name : String) (ks : List String) :
    (Value.map (fileHandlers path)).at? parts (name :: ks) =
      if name = "file" then (Value.map (scalarEntries (pathEntries path))).at? parts ks else none := by
  rw [Value.at?, Value.get?_map, fileHandlers, Mapping.get?_singleton]
  split <;> rfl

theorem merge_withFile (d : Document) (path : AnyText) :
    d.merge (withFile path) = d.copy.mergeUnder (.text "handlers") (.map (fileHandlers path)) := by
  rw [Document.merge, withFile, Document.mergeAll, Document.mergeAll]
  rfl

theorem map_shiftParts_of_plain {o : Option Value} (h : ∀ w ∈ o, w.isPlain) (n : Nat) :
    o.map (shiftParts n) = o := by
  cases o with
  | none => rfl
  | some w => exact congrArg some (Value.mapParts_of_isPlain _ w (h w rfl))

section

variable {hs : Document} (hhs : hs.Sound) (hmaps : ∀ name ∈ handlerNames, hs.Maps [name])
include hhs hmaps

theorem at?_mergeUnder_file (path : AnyText) (name key : String) (hkey : key ∈ handlerKeys)
    (hplain : ∀ w ∈ hs.at? [name, key], w.isPlain) :
    (hs.mergeUnder (.text "file") (.map (scalarEntries (pathEntries path)))).at? [name, key] =
      (if name = "file" then Mapping.get? (scalarEntries (pathEntries path)) key else none).or
        (hs.at? [name, key]) := by
  have hproper := Mapping.proper_scalarEntries 0 (nodup_pathEntries path)
  have hfile : ∀ key ∈ handlerKeys, "file" ≠ key := by decide
  obtain ⟨m, hm⟩ := Option.isSome_iff_exists.1 (hmaps "console" (by decide)).1
  by_cases hname : name = "file"
  · subst hname
    have hks : "file" ∉ [key] := fun hmem => hfile key hkey (List.mem_singleton.1 hmem)
    rw [Document.at?_mergeUnder_self (Value.map?_eq_some.1 hm) hhs hproper hks,
      Document.at?_below hs (nodup_pathEntries path), if_pos rfl, map_shiftParts_of_plain hplain]
  · have hks : "file" ∉ [name, key] := by
      rw [List.mem_cons, List.mem_singleton]
      rintro (heq | heq)
      · exact hname heq.symm
      · exact hfile key hkey heq
    rw [Document.at?_mergeUnder_of_notMem hhs hproper hks, if_neg hname, Option.none_or]

theorem maps_mergeUnder_file (path : AnyText) {name : String} (hname : name ∈ handlerNames) :
    (hs.mergeUnder (.text "file") (.map (scalarEntries (pathEntries path)))).Maps [name] := by
  have hproper := Mapping.proper_scalarEntries 0 (nodup_pathEntries path)
  obtain ⟨m, hm⟩ := Option.isSome_iff_exists.1 (hmaps "console" (by decide)).1
  by_cases heq : name = "file"
  · subst heq
    exact Document.maps_mergeUnder_self (Value.map?_eq_some.1 hm) hhs hproper List.not_mem_nil
      (Document.isSome_view_below hs "file" _)
  · have hks : "file" ∉ [name] := fun hmem => heq (List.mem_singleton.1 hmem).symm
    exact Document.maps_mergeUnder_of_notMem hhs hproper hks (hmaps name hname)

theorem part?_mergeUnder_file (path : AnyText) (name : String) {w : Value} {n : Nat}
    (hw : (hs.mergeUnder (.text "file") (.map (scalarEntries (pathEntries path)))).at? [name] = some w)
    (hn : w.part? = some n) : hs.parts.length ≤ n ↔ name = "file" := by
  have hproper := Mapping.proper_scalarEntries 0 (nodup_pathEntries path)
  obtain ⟨m, hm⟩ := Option.isSome_iff_exists.1 (hmaps "console" (by decide)).1
  by_cases heq : name = "file"
  · subst heq
    rw [Document.at?_mergeUnder_self (Value.map?_eq_some.1 hm) hhs hproper List.not_mem_nil] at hw
    cases hw
    exact ⟨fun _ => rfl, fun _ => (Document.over_below hhs hproper "file").start n hn⟩
  · have hks : "file" ∉ [name] := fun hmem => heq (List.mem_singleton.1 hmem).symm
    rw [Document.at?_mergeUnder_of_notMem hhs hproper hks, Document.at?, Value.at?_singleton] at hw
    have hbound := Value.proper_child hhs.proper_parts hhs.value hw
    have hlt : n < hs.parts.length := by
      cases w with
      | part i isMap =>
        cases hn
        exact hbound
      | _ => cases hn
    exact ⟨fun hle => absurd hle (Nat.not_le_of_lt hlt), fun h => absurd h heq⟩

end

section

variable {c : Document} (hc : c.Sound) (hmaps : ∀ name ∈ handlerNames, c.Maps ["handlers", name])
include hc hmaps

/-- The handlers when a path has been merged into them: those of a file handler, alone or in a copy. -/
theorem below_handlers_cases (path : AnyText) :
    (c.at? ["handlers"] = none ∧ c.below "handlers" (fileHandlers path) = ⟨.map (fileHandlers path), c.parts⟩) ∨
    ∃ handlers : Document, handlers.Sound ∧ (∀ name ∈ handlerNames, handlers.Maps [name]) ∧
      (∀ ks, handlers.at? ks = (c.at? ("handlers" :: ks)).map (shiftParts c.parts.length)) ∧
      c.below "handlers" (fileHandlers path) =
        handlers.mergeUnder (.text "file") (.map (scalarEntries (pathEntries path))) := by
  rw [Document.at?, Value.at?_singleton]
  unfold Document.below
  cases hget : c.value.get? c.parts "handlers" with
  | none => exact .inl ⟨rfl, rfl⟩
  | some before =>
    have hbefore := (hmaps "console" (by decide)).2 before hget
    obtain ⟨m, hm⟩ := Option.isSome_iff_exists.1 hbefore.1
    have hview : c.view before = .map m := Value.map?_eq_some.1 hm
    refine .inr ⟨(Document.mk before c.parts).copy, ?_, fun name hname => ?_, fun ks => ?_, ?_⟩
    · exact (Document.over_copyOf hc (Value.proper_child hc.proper_parts hc.value hget)).sound
    · exact Document.maps_copy.2 ((hmaps name hname).2 before hget)
    · rw [Document.at?_copy, Document.at?, Document.at?, Value.at?, hget]
      rfl
    · dsimp only
      rw [hview, fileHandlers, Document.mergeAll, Document.mergeAll]

theorem at?_below_handlers (path : AnyText) (name key : String) (hkey : key ∈ handlerKeys)
    (hplain : ∀ w ∈ c.at? ["handlers", name, key], w.isPlain) :
    (c.below "handlers" (fileHandlers path)).at? [name, key] =
      (if name = "file" then Mapping.get? (scalarEntries (pathEntries path)) key else none).or
        (c.at? ["handlers", name, key]) := by
  obtain ⟨hnone, hbelow⟩ | ⟨hs, hhs, hhsmaps, hat, hbelow⟩ := below_handlers_cases hc hmaps path
  · have hnone' : c.at? ["handlers", name, key] = none :=
      (c.at?_append ["handlers"] [name, key]).trans (by rw [hnone]; rfl)
    rw [hbelow, hnone', Option.or_none]
    refine (at?_fileHandlers path name [key]).trans ?_
    rw [Value.at?_singleton, Value.get?_map]
  · have hsame := (hat [name, key]).trans (map_shiftParts_of_plain hplain _)
    rw [hbelow, at?_mergeUnder_file hhs hhsmaps path name key hkey (by rwa [hsame]), hsame]

theorem maps_below_handlers (path : AnyText) {name : String} (hname : name ∈ handlerNames) :
    (c.below "handlers" (fileHandlers path)).Maps [name] := by
  obtain ⟨-, hbelow⟩ | ⟨hs, hhs, hhsmaps, -, hbelow⟩ := below_handlers_cases hc hmaps path
  · rw [hbelow]
    refine ⟨rfl, fun w hw => ?_⟩
    rw [← Value.at?_singleton, at?_fileHandlers] at hw
    split at hw
    · cases hw
      rfl
    · cases hw
  · rw [hbelow]
    exact maps_mergeUnder_file hhs hhsmaps path hname

theorem not_samePart_below_handlers (path : AnyText) {name other : String} (hne : name ≠ other)
    (hname : name ∈ handlerNames) (hother : other ∈ handlerNames) {w w' : Value}
    (hw : (c.below "handlers" (fileHandlers path)).at? [name] = some w)
    (hw' : (c.below "handlers" (fileHandlers path)).at? [other] = some w') : ¬ w.SamePart w' := by
  have hfile : name = "file" ∨ other = "file" := by
    have hnames : ∀ name ∈ handlerNames, ∀ other ∈ handlerNames, name ≠ other →
        name = "file" ∨ other = "file" := by decide
    exact hnames name hname other hother hne
  intro hsame
  obtain ⟨n, hn, hn'⟩ := Value.samePart_iff.1 hsame
  obtain ⟨-, hbelow⟩ | ⟨hs, hhs, hhsmaps, -, hbelow⟩ := below_handlers_cases hc hmaps path
  · rw [hbelow, Document.at?, at?_fileHandlers] at hw
    split at hw
    · cases hw
      cases hn
    · cases hw
  · rw [hbelow] at hw hw'
    have hname' := part?_mergeUnder_file hhs hhsmaps path name hw hn
    have hother' := part?_mergeUnder_file hhs hhsmaps path other hw' hn'
    have hiff : name = "file" ↔ other = "file" := hname'.symm.trans hother'
    rcases hfile with rfl | rfl
    · exact hne (hiff.1 rfl).symm
    · exact hne (hiff.2 rfl)

end

theorem at?_withFile (path : AnyText) {ks : List String} (hks : ks ∈ settingPaths) :
    (Value.map (withFile path)).at? [] ks = handlerEntry "file" (scalarEntries (pathEntries path)) ks := by
  have hhandlers : ∀ ks, (Value.map (withFile path)).at? [] ("handlers" :: ks) =
      (Value.map (fileHandlers path)).at? [] ks := fun _ => rfl
  rcases mem_settingPaths.1 hks with rfl | rfl | ⟨name, -, key, -, rfl⟩
  · rfl
  · rfl
  · rw [hhandlers, at?_fileHandlers, Value.at?_singleton, Value.get?_map, handlerEntry]

theorem tells_merge_withFile (h : Tells d given) (hplain : ∀ ks ∈ settingPaths, ∀ w ∈ given ks, w.isPlain)
    (path : AnyText) :
    Tells (d.merge (withFile path)) (fun ks => ((Value.map (withFile path)).at? [] ks).or (given ks)) ∧
      Unshared (d.merge (withFile path)).parts (d.merge (withFile path)).value := by
  -- the copy has the same settings; below it the handlers are copied again, and the file handler once more
  have hsound := Document.sound_copy h.sound
  have hmaps : ∀ name ∈ handlerNames, d.copy.Maps ["handlers", name] :=
    fun name hname => Document.maps_copy.2 (h.maps name hname)
  have hproper := proper_fileHandlers 0 path
  have hcopy : ∀ ks ∈ settingPaths, d.copy.at? ks = given ks := by
    intro ks hks
    rw [Document.at?_copy, h.settings ks hks, map_shiftParts_of_plain (hplain ks hks)]
  obtain ⟨m, hm⟩ := Option.isSome_iff_exists.1 (hmaps "console" (by decide)).1
  have hview := Value.map?_eq_some.1 hm
  have hself : ∀ ks, "handlers" ∉ ks → (d.merge (withFile path)).at? ("handlers" :: ks) =
      (d.copy.below "handlers" (fileHandlers path)).at? ks := by
    intro ks hks
    rw [merge_withFile, Document.at?_mergeUnder_self hview hsound hproper hks]
  refine ⟨⟨?_, fun name hname => ?_, fun ks hks => ?_⟩, fun name hname other hother hne w hw w' hw' => ?_⟩
  · rw [merge_withFile]
    have hover : d.copy.Over [] := ⟨hsound, List.nil_prefix, fun _ _ => Nat.zero_le _⟩
    exact (Document.over_mergeUnder [] d.copy hover _ _ hproper).sound
  · rw [merge_withFile]
    exact Document.maps_mergeUnder_self hview hsound hproper (handlers_notMem_name hname)
      (maps_below_handlers hsound hmaps path hname)
  · rw [at?_withFile path hks]
    rcases mem_settingPaths.1 hks with rfl | rfl | ⟨name, hname, key, hkey, rfl⟩
    · rw [merge_withFile, Document.at?_mergeUnder_of_notMem hsound hproper (by decide)]
      exact hcopy _ hks
    · rw [merge_withFile, Document.at?_mergeUnder_of_notMem hsound hproper (by decide)]
      exact hcopy _ hks
    · have hkeyplain : ∀ w ∈ d.copy.at? ["handlers", name, key], w.isPlain := by
        rw [hcopy _ hks]
        exact hplain _ hks
      rw [hself _ (handlers_notMem_setting hname hkey), at?_below_handlers hsound hmaps path name key hkey hkeyplain,
        hcopy _ hks, handlerEntry]
  · rw [← Document.at?, hself _ (handlers_notMem_name hname)] at hw
    rw [← Document.at?, hself _ (handlers_notMem_name hother)] at hw'
    exact not_samePart_below_handlers hsound hmaps path hne hname hother hw hw'

/-! ### The section of a file -/

theorem tells_erase (h : Tells d given)
    (hown : ∀ w ∈ d.at? ["handlers"], ¬ d.value.SamePart w) :
    let rest := d.change (Mapping.erase · "file") d.start
    Tells rest given ∧ (Unshared d.parts d.value → Unshared rest.parts rest.value) := by
  have hf : ∀ name : String, name ≠ "file" →
      ∀ m : Mapping, Mapping.get? (m.erase "file") name = Mapping.get? m name :=
    fun name hname m => Mapping.get?_erase_of_ne hname
  have hkeys : ∀ key ∈ handlerKeys, key ≠ "file" := by decide
  have hhandlers := hf "handlers" (by decide)
  refine ⟨⟨?_, fun name hname => ?_, fun ks hks => ?_⟩,
    fun hunshared name hname other hother hne w hw w' hw' => ?_⟩
  · exact Document.sound_change h.sound fun m hm => Value.proper_erase hm "file"
  · exact Document.maps_change_start_of_ne hhandlers hown (h.maps name hname)
  · rw [← h.settings ks hks]
    rcases mem_settingPaths.1 hks with rfl | rfl | ⟨name, -, key, hkey, rfl⟩
    · exact Document.at?_change_start _ [] fun name hname => hf name (by rw [List.mem_singleton.1 hname]; decide)
    · exact Document.at?_change_start _ [] fun name hname => hf name (by rw [List.mem_singleton.1 hname]; decide)
    · exact Document.at?_change_start_of_ne name [key] hhandlers hown fun k hk =>
        hf k (by rw [List.mem_singleton.1 hk]; exact hkeys key hkey)
  · have hsame := fun name => Document.at?_change_start_of_ne name [] hhandlers hown
      fun k hk => absurd hk List.not_mem_nil
    rw [← Document.at?, hsame name] at hw
    rw [← Document.at?, hsame other] at hw'
    exact hunshared name hname other hother hne w hw w' hw'

theorem tells_ofPart (h : Tells d given) (hplain : ∀ ks ∈ settingPaths, ∀ w ∈ given ks, w.isPlain)
    (hown : ∀ w ∈ d.at? ["handlers"], ¬ d.value.SamePart w) (hd' : ofPart d = .ok d') :
    let name? := ((d.at? ["file"]).bind Value.anyText?).filter (! ·.isEmpty)
    Tells d' (fun ks => (name?.bind fun name => (Value.map (withFile name)).at? [] ks).or (given ks)) ∧
      ((name? = none → Unshared d.parts d.value) → Unshared d'.parts d'.value) := by
  intro name?
  obtain ⟨hrest, hunshared⟩ := tells_erase h hown
  obtain ⟨m, hview⟩ := h.view
  have hname : name? = ((Mapping.get? m "file").bind Value.anyText?).filter (! ·.isEmpty) := by
    have hat : d.at? ["file"] = Mapping.get? m "file" :=
      (Document.at?_cons_of_view hview "file" []).trans (by cases Mapping.get? m "file" <;> rfl)
    rw [← hat]
  unfold ofPart at hd'
  rw [hview] at hd'
  dsimp only at hd'
  cases htext : (Mapping.get? m "file").bind Value.anyText? with
  | none =>
    rw [htext] at hd' hname
    cases hd'
    rw [hname]
    exact ⟨hrest, fun h => hunshared (h rfl)⟩
  | some path =>
    rw [htext] at hd' hname
    cases hd'
    cases hempty : path.isEmpty with
    | true =>
      rw [Option.filter_some, hempty] at hname
      rw [hname, if_pos rfl]
      exact ⟨hrest, fun h => hunshared (h rfl)⟩
    | false =>
      rw [Option.filter_some, hempty] at hname
      rw [hname, if_neg Bool.false_ne_true]
      obtain ⟨htells, hmerged⟩ := tells_merge_withFile hrest hplain path
      exact ⟨htells, fun _ => hmerged⟩

theorem tells_entries (h : Tells d given) :
    let own : Document := { d with value := .map d.entries }
    Tells own given ∧ (Unshared d.parts d.value → Unshared own.parts own.value) := by
  intro own
  obtain ⟨m, hview⟩ := h.view
  have hget : ∀ k, own.value.get? own.parts k = d.value.get? d.parts k := fun k => (d.get?_value k).symm
  have hat : ∀ k ks, own.at? (k :: ks) = d.at? (k :: ks) := fun k ks => by
    rw [Document.at?, Document.at?, Value.at?, Value.at?, hget]
  refine ⟨⟨⟨?_, h.sound.parts⟩, fun name hname => ⟨rfl, fun w hw => ?_⟩, fun ks hks => ?_⟩, ?_⟩
  · have hvalue : own.value = d.view d.value :=
      (congrArg Value.map (Document.entries_of_view hview)).trans hview.symm
    rw [hvalue]
    exact Value.proper_viewIn h.sound.proper_parts h.sound.value
  · rw [hget] at hw
    exact (h.maps name hname).2 w hw
  · rw [← h.settings ks hks]
    rcases mem_settingPaths.1 hks with rfl | rfl | ⟨name, -, key, -, rfl⟩ <;> exact hat _ _
  · intro hunshared name hname other hother hne w hw w' hw'
    rw [← Document.at?, hat] at hw hw'
    exact hunshared name hname other hother hne w hw w' hw'

theorem get?_of_isEmpty {v : Value} (parts : List Value) (h : (v.viewIn parts).isEmpty) (k : String) :
    v.get? parts k = none := by
  rw [Value.get?]
  cases hview : v.viewIn parts with
  | map es =>
    rw [hview] at h
    rw [List.isEmpty_iff.1 h]
    rfl
  | _ => rfl

theorem loggingPart_cases (h : loggingPart (if (d.view d.value).isEmpty then .empty else d) = .ok d')
    (hview' : d'.view d'.value = .map m) : d' = { d with value := sectionOf d } ∨
      d'.value = .map [] ∧ (d'.parts = [] ∨ d'.parts = d.parts) ∧ ∀ k, (sectionOf d).get? d.parts k = none := by
  rw [sectionOf, Document.at?, Value.at?_singleton, Value.get?]
  split at h
  · next hempty =>
    cases h
    have hnone := get?_of_isEmpty _ hempty
    refine .inr ⟨rfl, .inl rfl, ?_⟩
    rw [← Value.get?, hnone]
    exact hnone
  · unfold loggingPart at h
    split at h
    · next own hview =>
      rw [← Document.view, hview, Value.map?, Option.bind_some]
      split at h
      · next part hpart =>
        cases h
        rw [hpart, Option.getD_some]
        split
        · next hempty => exact .inr ⟨rfl, .inr rfl, get?_of_isEmpty _ hempty⟩
        · exact .inl rfl
      · next hnone =>
        cases h
        rw [hnone]
        exact .inl rfl
    · next hview =>
      split at h
      · cases h
      · cases h
        cases hview'.symm.trans hview
    · next hview =>
      split at h
      · cases h
      · cases h
        cases hview'.symm.trans hview
    · cases h

/-- Handlers are mappings, wherever they are given, and so is what holds them; and the level is a text. -/
structure Formed (parts : List Value) (v : Value) : Prop where
  handlers : ∀ w ∈ v.at? parts ["handlers"], (w.viewIn parts).map?.isSome
  handler : ∀ name ∈ handlerNames, ∀ w ∈ v.at? parts ["handlers", name], (w.viewIn parts).map?.isSome
  level : ∀ w ∈ v.at? parts ["level"], w.anyText?.isSome

instance (parts : List Value) (v : Value) : Decidable (Formed parts v) :=
  decidable_of_iff ((∀ w ∈ v.at? parts ["handlers"], (w.viewIn parts).map?.isSome) ∧
      (∀ name ∈ handlerNames, ∀ w ∈ v.at? parts ["handlers", name], (w.viewIn parts).map?.isSome) ∧
      ∀ w ∈ v.at? parts ["level"], w.anyText?.isSome)
    ⟨fun h => ⟨h.1, h.2.1, h.2.2⟩, fun h => ⟨h.handlers, h.handler, h.level⟩⟩

theorem Formed.maps {parts : List Value} {v : Value} (h : Formed parts v) (hv : (v.viewIn parts).map?.isSome)
    (hname : name ∈ handlerNames) : v.Maps parts ["handlers", name] :=
  have hhandlers : v.Maps parts ["handlers"] :=
    (Value.maps_append_singleton [] "handlers").2 ⟨hv, h.handlers⟩
  (Value.maps_append_singleton ["handlers"] name).2 ⟨hhandlers, h.handler name hname⟩

theorem at?_section (h : loggingPart (if (d.view d.value).isEmpty then .empty else d) = .ok d')
    (hview : d'.view d'.value = .map m) (k : String) (ks : List String) :
    d'.at? (k :: ks) = (sectionOf d).at? d.parts (k :: ks) := by
  obtain rfl | ⟨hvalue, -, hnone⟩ := loggingPart_cases h hview
  · rfl
  · rw [Document.at?, hvalue, Value.at?, Value.at?, hnone k]
    rfl

theorem part?_section (h : loggingPart (if (d.view d.value).isEmpty then .empty else d) = .ok d')
    (hview : d'.view d'.value = .map m) {n : Nat} (hn : d'.value.part? = some n) : (sectionOf d).part? = some n := by
  obtain rfl | ⟨hvalue, -, -⟩ := loggingPart_cases h hview
  · exact hn
  · rw [hvalue] at hn
    cases hn

theorem tells_section (hd : d.Sound) (hformed : Formed d.parts (sectionOf d))
    (h : loggingPart (if (d.view d.value).isEmpty then .empty else d) = .ok d') (hview : d'.view d'.value = .map m) :
    Tells d' fun ks => (sectionOf d).at? d.parts ks := by
  have hsettings : ∀ path ∈ settingPaths, d'.at? path = (sectionOf d).at? d.parts path := by
    intro path hpath
    rcases mem_settingPaths.1 hpath with rfl | rfl | ⟨name, -, key, -, rfl⟩ <;> exact at?_section h hview _ _
  obtain rfl | ⟨hvalue, hparts, -⟩ := loggingPart_cases h hview
  · refine ⟨⟨?_, hd.parts⟩, fun name hname => hformed.maps ?_ hname, hsettings⟩
    · dsimp only
      rw [sectionOf, Document.at?, Value.at?_singleton]
      cases hget : d.value.get? d.parts "logging" with
      | none => exact hd.value
      | some part => exact Value.proper_child hd.proper_parts hd.value hget
    · rw [Document.view] at hview
      rw [hview]
      rfl
  · have hvalueproper : d'.value.Proper d'.parts.length := by
      rw [hvalue]
      exact Document.sound_empty.value
    refine ⟨⟨hvalueproper, ?_⟩, fun name _ => ?_, hsettings⟩
    · rcases hparts with hparts | hparts
      · rw [hparts]
        exact fun _ hv => absurd hv List.not_mem_nil
      · rw [hparts]
        exact hd.parts
    · rw [Document.Maps, hvalue]
      exact ⟨rfl, fun _ hw => by cases hw⟩

/-- The settings of a file do not hang together more than they should: none is or has in it what is kept elsewhere,
the section is not what holds the handlers as well, and no handlers that the environment changes are one. -/
structure Untangled (env : Environment) (d : Document) : Prop where
  plain : ∀ path ∈ settingPaths, ∀ w ∈ (sectionOf d).at? d.parts path, w.isPlain
  own : ∀ w ∈ (sectionOf d).at? d.parts ["handlers"], ¬ (sectionOf d).SamePart w
  unshared : (env.get? "LOG_FILE").isSome ∨ (env.get? "LOG_CONSOLE").isSome → namedFile? d = none →
    Unshared d.parts (sectionOf d)

instance (env : Environment) (d : Document) : Decidable (Untangled env d) :=
  decidable_of_iff ((∀ path ∈ settingPaths, ∀ w ∈ (sectionOf d).at? d.parts path, w.isPlain) ∧
      (∀ w ∈ (sectionOf d).at? d.parts ["handlers"], ¬ (sectionOf d).SamePart w) ∧
      ((env.get? "LOG_FILE").isSome ∨ (env.get? "LOG_CONSOLE").isSome → namedFile? d = none →
        Unshared d.parts (sectionOf d)))
    ⟨fun h => ⟨h.1, h.2.1, h.2.2⟩, fun h => ⟨h.plain, h.own, h.unshared⟩⟩

theorem namedFile?_eq (h : loggingPart (if (d.view d.value).isEmpty then .empty else d) = .ok d')
    (hview : d'.view d'.value = .map m) :
    ((d'.at? ["file"]).bind Value.anyText?).filter (! ·.isEmpty) = namedFile? d := by
  rw [at?_section h hview, Value.at?_singleton]
  rfl

/-- What a configuration file says of the settings, in a mapping that stands nowhere else. -/
theorem tells_ofDocument {env : Environment} (hd : d.Sound) (hformed : Formed d.parts (sectionOf d))
    (huntangled : Untangled env d) (h : ofDocument d = .ok d') :
    Tells d' (fileSetting d) ∧ (∃ m, d'.value = .map m) ∧
      ((env.get? "LOG_FILE").isSome ∨ (env.get? "LOG_CONSOLE").isSome → Separate d') := by
  obtain ⟨d₁, hsection, h⟩ := bind_eq_ok.1 h
  obtain ⟨d₂, hpart, h⟩ := bind_eq_ok.1 h
  cases h
  obtain ⟨m, hview⟩ : ∃ m, d₁.view d₁.value = .map m := by
    unfold ofPart at hpart
    split at hpart
    · next m hview => exact ⟨m, hview⟩
    · cases hpart
    · cases hpart
  have htells := tells_section hd hformed hsection hview
  have hown : ∀ w ∈ d₁.at? ["handlers"], ¬ d₁.value.SamePart w := by
    intro w hw hsame
    obtain ⟨n, hn, hwn⟩ := Value.samePart_iff.1 hsame
    rw [at?_section hsection hview] at hw
    exact huntangled.own w hw (Value.samePart_iff.2 ⟨n, part?_section hsection hview hn, hwn⟩)
  obtain ⟨htells₂, hunshared₂⟩ := tells_ofPart htells huntangled.plain hown hpart
  obtain ⟨htells₃, hunshared₃⟩ := tells_entries htells₂
  refine ⟨htells₃.congr fun path _ => ?_, ⟨_, rfl⟩, fun hneeds => ?_⟩
  · rw [namedFile?_eq hsection hview, fileSetting]
  · refine separate_of_unshared (hunshared₃ (hunshared₂ fun hnone => ?_))
    rw [namedFile?_eq hsection hview] at hnone
    intro name hname other hother hne w hw w' hw'
    rw [← Document.at?, at?_section hsection hview] at hw hw'
    exact huntangled.unshared hneeds hnone name hname other hother hne w hw w' hw'

end FeedOutline.Log
