import FeedOutline.Config.Load
import FeedOutline.Proofs.Config.Accepted
import FeedOutline.Proofs.Data.TextKeys
import FeedOutline.Proofs.Text.Utf8

/-!
Which mappings are configurations, and which configuration each of them is. A mapping is checked just
when it reads as a configuration, key by key; what it is written as again reads as the same one.
-/
namespace FeedOutline.Config

open Data (Value Mapping)
open Text

structure Forms where
  text : Value → AnyText → Prop
  list : Value → List Value → Prop

def Forms.plain : Forms where
  text v s := v = .ofText s
  list v items := v = .list items

/-- Bytes count as the text that they are in UTF-8, and sets as lists. -/
def Forms.lenient : Forms where
  text v s := v = .ofText s ∨ ∃ t : String, s = t ∧ v = .scalar (.bytes (encodeUtf8 t))
  list v items := v = .list items ∨ ∃ keys, v = .set keys ∧ items = keys.map .scalar

variable {α β : Type} {F G : Forms} {m es : Mapping} {v : Value} {c : Config} {key : String}

/-- What stands under a key is read, and the default counts where nothing stands there. -/
def Under (m : Mapping) (key : String) (default : α) (R : Value → α → Prop) (a : α) : Prop :=
  match m.get? key with
  | none => a = default
  | some v => R v a

def ReadsFiles (F : Forms) (v : Value) (paths : List AnyText) : Prop :=
  (∃ items, F.list v items ∧ List.Forall₂ F.text items paths) ∧ ∀ p ∈ paths, isBlankText p = false

def ReadsTag (F : Forms) (v : Value) (tag : AnyText) : Prop :=
  F.text v tag ∧ Accepted tag

def ReadsLevel (F : Forms) (v : Value) (level : String) : Prop :=
  (∃ s : String, F.text v s ∧ level = trimString (upperString s)) ∧ level ∈ levelNames

def ReadsFormat (v : Value) (format : Log.Format) : Prop :=
  v = .text format.name

def ReadsFile (F : Forms) (v : Value) (file : Option AnyText) : Prop :=
  v = .null ∧ file = none ∨ ∃ s, F.text v s ∧ file = some s

structure ReadsOutline (F : Forms) (m : Mapping) (o : OutlineSection) : Prop where
  files : Under m "files" [] (ReadsFiles F) o.files
  treeId : Under m "tree_id" ("elfeed" : AnyText) (ReadsTag F) o.treeId
  ignoreTag : Under m "ignore_tag" ("ignore" : AnyText) (ReadsTag F) o.ignoreTag

structure ReadsLogging (F : Forms) (m : Mapping) (l : LoggingSection) : Prop where
  level : Under m "level" "INFO" (ReadsLevel F) l.level
  format : Under m "format" .plain ReadsFormat l.format
  file : Under m "file" none (ReadsFile F) l.file

/-- A section is a mapping; other keys than its own do not count. -/
def InSection (R : Mapping → α → Prop) (v : Value) (a : α) : Prop :=
  ∃ es, v = .map es ∧ R es a

structure Reads (F : Forms) (m : Mapping) (c : Config) : Prop where
  keys : ∀ k ∈ m.map (·.1), k = .text "outline" ∨ k = .text "logging"
  outline : Under m "outline" {} (InSection (ReadsOutline F)) c.outline
  logging : Under m "logging" {} (InSection (ReadsLogging F)) c.logging

/-! What each check lets through. -/

theorem refuse_ne_ok {problem : Problem} {a : α} : refuse problem ≠ .ok a :=
  nofun

theorem field_eq_ok_iff {default : α} {check : Value → Checked α} {R : Value → α → Prop} {a : α}
    (h : ∀ v, check v = .ok a ↔ R v a) : field m key default check = .ok a ↔ Under m key default R a := by
  unfold field Under
  cases m.get? key with
  | none => exact ⟨fun h => (Except.ok.inj h).symm, fun h => h ▸ rfl⟩
  | some v => exact mapError_eq_ok.trans (h v)

theorem checkText_eq_ok_iff {s : AnyText} : checkText v = .ok s ↔ Forms.lenient.text v s := by
  unfold checkText Forms.lenient
  split
  · cases s <;> simp [Value.ofText]
  · cases s <;> simp [Value.ofText]
  · next bytes =>
    have hdecode : (∃ t, decodeUtf8 bytes = .ok t ∧ AnyText.whole t = s) ↔
        ∃ t : String, s = t ∧ bytes = encodeUtf8 t := by
      simp only [decodeUtf8_eq_ok_iff]
      exact exists_congr fun t => and_comm.trans (and_congr_left' eq_comm)
    cases hbytes : decodeUtf8 bytes <;> cases s <;> simp_all [Value.ofText, refuse]
  · next hnotText hnotTorn hnotBytes =>
    refine iff_of_false refuse_ne_ok ?_
    rintro (rfl | ⟨_, -, rfl⟩)
    · cases s with
      | whole s => exact hnotText s rfl
      | torn t => exact hnotTorn t rfl
    · exact hnotBytes _ rfl

theorem checkItems_eq_ok_iff {i : Nat} {vs : List Value} {ss : List AnyText} :
    checkItems i vs = .ok ss ↔ List.Forall₂ Forms.lenient.text vs ss := by
  induction vs generalizing i ss with
  | nil => simp [checkItems, eq_comm]
  | cons v vs ih =>
    rw [checkItems, map_eq_ok, List.forall₂_cons_left_iff]
    constructor
    · rintro ⟨⟨s, ss⟩, hboth, rfl⟩
      obtain ⟨hs, hss⟩ := Checked.both_eq_ok_iff.1 hboth
      exact ⟨s, ss, checkText_eq_ok_iff.1 (mapError_eq_ok.1 hs), ih.1 hss, rfl⟩
    · rintro ⟨s, ss, hs, hss, rfl⟩
      exact ⟨(s, ss), Checked.both_eq_ok_iff.2 ⟨mapError_eq_ok.2 (checkText_eq_ok_iff.2 hs), ih.2 hss⟩, rfl⟩

theorem checkList_eq_ok_iff {items : List Value} : checkList v = .ok items ↔ Forms.lenient.list v items := by
  unfold checkList Forms.lenient
  split
  · simp
  · simp [eq_comm]
  · next hnotList hnotSet =>
    refine iff_of_false refuse_ne_ok ?_
    rintro (rfl | ⟨keys, rfl, -⟩)
    · exact hnotList _ rfl
    · exact hnotSet _ rfl

theorem checkFiles_eq_ok_iff {paths : List AnyText} :
    checkFiles v = .ok paths ↔ ReadsFiles .lenient v paths := by
  have hblank (ss : List AnyText) :
      (if ss.any isBlankText then refuse (.emptyPath ss) else return ss : Checked (List AnyText)) =
        .ok paths ↔ ss = paths ∧ ∀ p ∈ paths, isBlankText p = false := by
    split_ifs with h
    · refine iff_of_false refuse_ne_ok ?_
      rintro ⟨rfl, hnone⟩
      obtain ⟨p, hp, hpblank⟩ := List.any_eq_true.1 h
      exact Bool.noConfusion (hpblank.symm.trans (hnone p hp))
    · simp only [List.any_eq_true, not_exists, not_and, Bool.not_eq_true] at h
      exact ⟨fun heq => Except.ok.inj heq ▸ ⟨rfl, h⟩, fun heq => heq.1 ▸ rfl⟩
  simp only [checkFiles, bind_eq_ok, hblank, checkList_eq_ok_iff, checkItems_eq_ok_iff, ReadsFiles]
  constructor
  · rintro ⟨items, hlist, _, htexts, rfl, hnone⟩
    exact ⟨⟨items, hlist, htexts⟩, hnone⟩
  · rintro ⟨⟨items, hlist, htexts⟩, hnone⟩
    exact ⟨items, hlist, paths, htexts, rfl, hnone⟩

theorem checkTag_eq_ok_iff {tag : AnyText} : checkTag v = .ok tag ↔ ReadsTag .lenient v tag := by
  constructor
  · intro h
    refine ⟨?_, accepted_of_checkTag h⟩
    unfold checkTag at h
    obtain ⟨s, hs, h⟩ := bind_eq_ok.1 h
    split_ifs at h
    · cases h
    · cases h
    · cases h
      exact checkText_eq_ok_iff.1 hs
  · rintro ⟨htext, haccepted⟩
    refine bind_eq_ok.2 ⟨tag, checkText_eq_ok_iff.2 htext, ?_⟩
    rw [if_neg haccepted.not_isBlankText, if_neg]
    · rfl
    · simp only [List.any_eq_true, Bool.or_eq_true, beq_iff_eq, not_exists, not_and, not_or,
        Bool.not_eq_true]
      exact fun c hc => ⟨haccepted.not_blank c hc, fun heq => haccepted.not_colon (heq ▸ hc)⟩

theorem checkLevel_eq_ok_iff {level : String} : checkLevel v = .ok level ↔ ReadsLevel .lenient v level := by
  simp only [checkLevel, bind_eq_ok, checkText_eq_ok_iff, ReadsLevel]
  constructor
  · rintro ⟨s | t, hs, h⟩
    · dsimp only at h
      split_ifs at h with hname
      · obtain rfl := Except.ok.inj h
        exact ⟨⟨s, hs, rfl⟩, List.contains_iff_mem.1 hname⟩
      · exact absurd h refuse_ne_ok
    · cases h
  · rintro ⟨⟨s, hs, rfl⟩, hname⟩
    exact ⟨s, hs, if_pos (List.contains_iff_mem.2 hname)⟩

theorem anyText?_eq_some_iff {s : AnyText} : v.anyText? = some s ↔ v = .ofText s := by
  unfold Value.anyText?
  split
  · cases s <;> simp [Value.ofText]
  · cases s <;> simp [Value.ofText]
  · next hnotText hnotTorn =>
    refine iff_of_false nofun fun heq => ?_
    cases s with
    | whole s => exact hnotText s heq
    | torn t => exact hnotTorn t heq

theorem checkFormat_eq_ok_iff {format : Log.Format} : checkFormat v = .ok format ↔ ReadsFormat v format := by
  have htext (name : String) : v.anyText? = some (.whole name) ↔ v = .text name := anyText?_eq_some_iff
  unfold checkFormat ReadsFormat
  split
  · next htorn =>
    refine iff_of_false refuse_ne_ok fun heq => ?_
    cases ((htext _).2 heq).symm.trans htorn
  · split_ifs with hplain hjson
    · rw [(htext _).1 (beq_iff_eq.1 hplain)]
      cases format <;> simp [Log.Format.name]
    · rw [(htext _).1 (beq_iff_eq.1 hjson)]
      cases format <;> simp [Log.Format.name]
    · refine iff_of_false refuse_ne_ok fun heq => ?_
      cases format with
      | plain => exact hplain (beq_iff_eq.2 ((htext _).2 heq))
      | json => exact hjson (beq_iff_eq.2 ((htext _).2 heq))

theorem checkFile_eq_ok_iff {file : Option AnyText} : checkFile v = .ok file ↔ ReadsFile .lenient v file := by
  unfold checkFile ReadsFile
  split
  · have hnull (s : AnyText) : Value.null ≠ .ofText s := by cases s <;> nofun
    simp [Forms.lenient, hnull, eq_comm (b := file)]
  · next hnotNull =>
    rw [map_eq_ok]
    simp only [checkText_eq_ok_iff, eq_comm (b := file)]
    exact ⟨.inr, fun h => h.resolve_left fun h => hnotNull h.1⟩

theorem checkOutline_eq_ok_iff {o : OutlineSection} :
    checkOutline v = .ok o ↔ InSection (ReadsOutline .lenient) v o := by
  unfold checkOutline InSection
  split
  · next es =>
    simp only [map_eq_ok, Prod.exists, Checked.both_eq_ok_iff, field_eq_ok_iff fun _ => checkFiles_eq_ok_iff,
      field_eq_ok_iff fun _ => checkTag_eq_ok_iff]
    constructor
    · rintro ⟨files, treeId, ignoreTag, ⟨hfiles, htree, hignore⟩, rfl⟩
      exact ⟨es, rfl, hfiles, htree, hignore⟩
    · rintro ⟨_, heq, hfiles, htree, hignore⟩
      cases heq
      exact ⟨_, _, _, ⟨hfiles, htree, hignore⟩, rfl⟩
  · next hnotMap =>
    refine iff_of_false refuse_ne_ok ?_
    rintro ⟨es, heq, -⟩
    exact hnotMap es heq

theorem checkLogging_eq_ok_iff {l : LoggingSection} :
    checkLogging v = .ok l ↔ InSection (ReadsLogging .lenient) v l := by
  unfold checkLogging InSection
  split
  · next es =>
    simp only [map_eq_ok, Prod.exists, Checked.both_eq_ok_iff, field_eq_ok_iff fun _ => checkLevel_eq_ok_iff,
      field_eq_ok_iff fun _ => checkFormat_eq_ok_iff, field_eq_ok_iff fun _ => checkFile_eq_ok_iff]
    constructor
    · rintro ⟨level, format, file, ⟨hlevel, hformat, hfile⟩, rfl⟩
      exact ⟨es, rfl, hlevel, hformat, hfile⟩
    · rintro ⟨_, heq, hlevel, hformat, hfile⟩
      cases heq
      exact ⟨_, _, _, ⟨hlevel, hformat, hfile⟩, rfl⟩
  · next hnotMap =>
    refine iff_of_false refuse_ne_ok ?_
    rintro ⟨es, heq, -⟩
    exact hnotMap es heq

theorem keys_eq_ok_iff (hm : m.TextKeys) : hasTornKey m = false ∧ checkKeys m = .ok () ↔
    ∀ k ∈ m.map (·.1), k = .text "outline" ∨ k = .text "logging" := by
  simp only [hasTornKey, checkKeys, List.any_eq_false, ite_eq_left_iff, reduceCtorEq, imp_false, not_not,
    List.isEmpty_iff, List.filterMap_eq_nil_iff, List.forall_mem_map, ← forall₂_and]
  refine forall₂_congr fun e he => ?_
  obtain ⟨s | t, hs⟩ := hm e.1 (List.mem_map_of_mem he)
  · simp [hs, sectionNames, ← or_iff_not_imp_left]
  · simp [hs]

theorem check_eq_ok_iff_reads (hm : m.TextKeys) : check m = .ok c ↔ Reads .lenient m c := by
  rw [check_eq_ok_iff, and_left_comm, and_comm, keys_eq_ok_iff hm]
  simp only [checkSections, map_eq_ok, Prod.exists, Checked.both_eq_ok_iff,
    field_eq_ok_iff fun _ => checkOutline_eq_ok_iff, field_eq_ok_iff fun _ => checkLogging_eq_ok_iff]
  constructor
  · rintro ⟨hkeys, outline, logging, ⟨houtline, hlogging⟩, rfl⟩
    exact ⟨hkeys, houtline, hlogging⟩
  · rintro ⟨hkeys, houtline, hlogging⟩
    exact ⟨hkeys, _, _, ⟨houtline, hlogging⟩, rfl⟩

theorem ofMapping_of_textKeys (hm : m.TextKeys) : ofMapping m = (check m).mapError Refusal.toError := by
  unfold ofMapping
  rw [if_neg]
  simp only [List.any_eq_true, not_exists, not_and, Bool.not_eq_true]
  intro e he
  obtain ⟨s | t, hs⟩ := hm e.1 (List.mem_map_of_mem he) <;> rw [hs] <;> rfl

theorem ofMapping_of_not_textKeys (hm : ¬ m.TextKeys) : ofMapping m = .error .keyNotText := by
  unfold ofMapping
  rw [if_pos]
  by_contra hany
  refine hm (List.forall_mem_map.2 fun x hx => ?_)
  have hk := fun h => hany (List.any_eq_true.2 ⟨x, hx, h⟩)
  obtain ⟨k, v⟩ := x
  cases k with
  | text s => exact ⟨s, rfl⟩
  | torn t => exact ⟨.torn t, rfl⟩
  | _ => exact absurd rfl hk

/-! What cannot be put into words. -/

/-- The level of the log has a lone surrogate. -/
def TornLevel (m : Mapping) (level : Torn) : Prop :=
  ∃ es : Mapping, m.get? "logging" = some (.map es) ∧ es.get? "level" = some (.scalar (.torn level))

def Checked.Prints (x : Checked α) : Prop :=
  ∀ level, x ≠ .error (.unprintable level)

namespace Checked

variable {x : Checked α} {y : Checked β} {level : Torn}

theorem prints_ok (a : α) : Prints (.ok a) :=
  nofun

theorem prints_refuse (problem : Problem) : Prints (refuse problem : Checked α) :=
  nofun

theorem Prints.bind {f : α → Checked β} (hx : x.Prints) (hf : ∀ a, (f a).Prints) : Prints (x >>= f) := by
  intro level h
  rcases bind_eq_error.1 h with h | ⟨a, -, h⟩
  · exact hx level h
  · exact hf a level h

theorem map_eq_unprintable_iff {f : α → β} :
    x.map f = .error (.unprintable level) ↔ x = .error (.unprintable level) := by
  cases x <;> simp [Except.map]

theorem both_eq_unprintable_iff_right (hx : x.Prints) :
    x.both y = .error (.unprintable level) ↔ y = .error (.unprintable level) := by
  rcases x with (is | t) | a
  · rcases y with (js | u) | b <;> simp [both]
  · exact absurd rfl (hx t)
  · rcases y with (js | u) | b <;> simp [both]

theorem both_eq_unprintable_iff_left (hy : y.Prints) :
    x.both y = .error (.unprintable level) ↔ x = .error (.unprintable level) := by
  rcases y with (js | u) | b
  · rcases x with (is | t) | a <;> simp [both]
  · exact absurd rfl (hy u)
  · rcases x with (is | t) | a <;> simp [both]

theorem field_eq_unprintable_iff {default : α} {check : Value → Checked α} :
    field m key default check = .error (.unprintable level) ↔
      ∃ v, m.get? key = some v ∧ check v = .error (.unprintable level) := by
  unfold field
  cases m.get? key with
  | none => simp
  | some v => rcases hcheck : check v with (is | t) | a <;> simp [hcheck, Except.mapError, Refusal.below]

theorem Prints.map (hx : x.Prints) (f : α → β) : Prints (x.map f) :=
  fun level h => hx level (map_eq_unprintable_iff.1 h)

theorem Prints.below (hx : x.Prints) (key : String) : Prints (x.mapError (Refusal.below key)) := by
  rcases x with (is | t) | a
  · nofun
  · exact absurd rfl (hx t)
  · nofun

theorem Prints.both (hx : x.Prints) (hy : y.Prints) : (x.both y).Prints :=
  fun level h => hy level ((both_eq_unprintable_iff_right hx).1 h)

theorem prints_field {check : Value → Checked α} (hcheck : ∀ v, (check v).Prints) (m : Mapping) (key : String)
    (default : α) : (field m key default check).Prints := by
  intro level h
  obtain ⟨v, -, hv⟩ := field_eq_unprintable_iff.1 h
  exact hcheck v level hv

end Checked

open Checked

theorem prints_checkText (v : Value) : (checkText v).Prints := by
  unfold checkText
  split
  · exact prints_ok _
  · exact prints_ok _
  · split
    · exact prints_ok _
    · exact prints_refuse _
  · exact prints_refuse _

theorem prints_checkItems (i : Nat) (vs : List Value) : (checkItems i vs).Prints := by
  induction vs generalizing i with
  | nil => exact prints_ok _
  | cons v vs ih => exact (((prints_checkText v).below _).both (ih _)).map _

theorem prints_checkFiles (v : Value) : (checkFiles v).Prints := by
  refine Prints.bind (fun level h => ?_) fun items => (prints_checkItems 0 items).bind fun paths => ?_
  · unfold checkList at h
    split at h <;> cases h
  · split
    · exact prints_refuse _
    · exact prints_ok _

theorem prints_checkTag (v : Value) : (checkTag v).Prints := by
  refine (prints_checkText v).bind fun tag => ?_
  split
  · exact prints_refuse _
  · split
    · exact prints_refuse _
    · exact prints_ok _

theorem prints_checkFormat (v : Value) : (checkFormat v).Prints := by
  unfold checkFormat
  split
  · exact prints_refuse _
  · split
    · exact prints_ok _
    · split
      · exact prints_ok _
      · exact prints_refuse _

theorem prints_checkFile (v : Value) : (checkFile v).Prints := by
  unfold checkFile
  split
  · exact prints_ok _
  · exact (prints_checkText v).map _

theorem prints_checkOutline (v : Value) : (checkOutline v).Prints := by
  unfold checkOutline
  split
  · have hfiles := prints_field prints_checkFiles
    have htag := prints_field prints_checkTag
    exact ((hfiles _ _ _).both ((htag _ _ _).both (htag _ _ _))).map _
  · exact prints_refuse _

theorem checkLevel_eq_unprintable_iff {level : Torn} :
    checkLevel v = .error (.unprintable level) ↔ v = .scalar (.torn level) := by
  constructor
  · intro h
    rcases bind_eq_error.1 h with h | ⟨s, hs, h⟩
    · exact absurd h (prints_checkText v level)
    · cases s with
      | whole s =>
        dsimp only at h
        split at h <;> cases h
      | torn t =>
        cases h
        obtain rfl | ⟨_, heq, -⟩ := checkText_eq_ok_iff.1 hs
        · rfl
        · cases heq
  · rintro rfl
    rfl

theorem checkLogging_eq_unprintable_iff {level : Torn} : checkLogging v = .error (.unprintable level) ↔
    ∃ es : Mapping, v = .map es ∧ es.get? "level" = some (.scalar (.torn level)) := by
  unfold checkLogging
  split
  · have hformat := prints_field prints_checkFormat
    have hfile := prints_field prints_checkFile
    rw [map_eq_unprintable_iff, both_eq_unprintable_iff_left ((hformat _ _ _).both (hfile _ _ _)),
      field_eq_unprintable_iff]
    simp [checkLevel_eq_unprintable_iff]
  · next hnotMap =>
    refine iff_of_false (prints_refuse _ level) ?_
    rintro ⟨es, rfl, -⟩
    exact hnotMap es rfl

theorem check_eq_unprintable_iff {level : Torn} :
    check m = .error (.unprintable level) ↔ TornLevel m level := by
  have hsections : checkSections m = .error (.unprintable level) ↔ TornLevel m level := by
    rw [checkSections, map_eq_unprintable_iff,
      both_eq_unprintable_iff_right (prints_field prints_checkOutline _ _ _), field_eq_unprintable_iff]
    simp only [checkLogging_eq_unprintable_iff, TornLevel]
    constructor
    · rintro ⟨_, hget, es, rfl, hlevel⟩
      exact ⟨es, hget, hlevel⟩
    · rintro ⟨es, hget, hlevel⟩
      exact ⟨_, hget, es, rfl, hlevel⟩
  rw [← hsections]
  unfold check
  split
  · next htorn => rw [htorn]
  · next hprints =>
    -- what the keys at the top are found to be is a list of issues in any case
    refine iff_of_false ?_ (hprints level)
    have hkeys : (checkKeys m).Prints := by
      intro level h
      unfold checkKeys at h
      dsimp only at h
      split at h <;> cases h
    split
    · exact prints_refuse _ level
    · exact (Prints.both (fun level h => hprints level h) hkeys).map _ level

/-! Configurations written and read again. -/

theorem Under.holds {default : α} {R : Value → α → Prop} {a : α} {P : α → Prop} (h : Under m key default R a)
    (hdefault : P default) (hR : ∀ v, R v a → P a) : P a := by
  unfold Under at h
  split at h
  · exact h ▸ hdefault
  · exact hR _ h

structure Valid (c : Config) : Prop where
  files : ∀ p ∈ c.outline.files, isBlankText p = false
  treeId : Accepted c.outline.treeId
  ignoreTag : Accepted c.outline.ignoreTag
  level : c.logging.level ∈ levelNames

theorem Reads.valid (h : Reads F m c) : Valid c := by
  obtain ⟨hfiles, htree, hignore⟩ : (∀ p ∈ c.outline.files, isBlankText p = false) ∧
      Accepted c.outline.treeId ∧ Accepted c.outline.ignoreTag := by
    refine h.outline.holds (P := fun o => (∀ p ∈ o.files, isBlankText p = false) ∧ Accepted o.treeId ∧
      Accepted o.ignoreTag) ⟨by simp, accepted_default⟩ ?_
    rintro v ⟨es, -, ho⟩
    exact ⟨ho.files.holds (P := fun paths => ∀ p ∈ paths, isBlankText p = false) (by simp) fun _ h => h.2,
      ho.treeId.holds accepted_default.1 fun _ h => h.2,
      ho.ignoreTag.holds accepted_default.2 fun _ h => h.2⟩
  refine ⟨hfiles, htree, hignore, h.logging.holds (P := fun l => l.level ∈ levelNames) (by decide) ?_⟩
  rintro v ⟨es, -, hl⟩
  exact hl.level.holds (by decide) fun _ h => h.2

theorem level_normal : ∀ level ∈ levelNames, trimString (upperString level) = level := by
  decide +kernel

theorem Valid.reads_toMapping (h : Valid c) : Reads .plain c.toMapping c where
  keys := by simp [toMapping]
  outline := by
    refine ⟨_, rfl, ⟨⟨_, rfl, ?_⟩, h.files⟩, ⟨rfl, h.treeId⟩, ⟨rfl, h.ignoreTag⟩⟩
    exact List.forall₂_map_left_iff.2 (List.forall₂_same.2 fun _ _ => rfl)
  logging := by
    refine ⟨_, rfl, ⟨⟨_, rfl, (level_normal _ h.level).symm⟩, h.level⟩, rfl, ?_⟩
    show ReadsFile .plain ((c.logging.file.map Value.ofText).getD .null) c.logging.file
    cases c.logging.file with
    | none => exact .inl ⟨rfl, rfl⟩
    | some s => exact .inr ⟨s, rfl, rfl⟩

/-! Where nothing is read as something else. -/

/-- Bytes, a set, or a list with bytes in it. -/
def Converts : Value → Prop
  | .scalar (.bytes _) | .set _ => True
  | .list items => ∃ bs, .scalar (.bytes bs) ∈ items
  | _ => False

def lenientFields : List (String × String) :=
  [("outline", "files"), ("outline", "tree_id"), ("outline", "ignore_tag"), ("logging", "level"),
    ("logging", "file")]

/-- No text is given as bytes, and no list as a set. -/
def Unconverted (m : Mapping) : Prop :=
  ∀ p ∈ lenientFields, ∀ (es : Mapping) (v : Value), m.get? p.1 = some (.map es) → es.get? p.2 = some v →
    ¬ Converts v

/-- Whatever is read of a value in one way is read of it in another. -/
structure Covered (F G : Forms) (v : Value) : Prop where
  text : ∀ {s}, F.text v s → G.text v s
  list : ∀ {items ss}, F.list v items → List.Forall₂ F.text items ss →
    G.list v items ∧ List.Forall₂ G.text items ss

theorem covered_lenient (v : Value) : Covered .plain .lenient v where
  text := .inl
  list hlist htexts := ⟨.inl hlist, htexts.imp fun _ _ => .inl⟩

theorem text_of_ne_bytes {s : AnyText} (h : Forms.lenient.text v s) (hv : ∀ bs, v ≠ .scalar (.bytes bs)) :
    Forms.plain.text v s := by
  refine h.resolve_right ?_
  rintro ⟨_, -, heq⟩
  exact hv _ heq

theorem texts_of_no_bytes {items : List Value} {ss : List AnyText} (h : List.Forall₂ Forms.lenient.text items ss)
    (hbytes : ∀ bs, .scalar (.bytes bs) ∉ items) : List.Forall₂ Forms.plain.text items ss := by
  induction h with
  | nil => exact .nil
  | cons hs _ ih =>
    refine .cons (text_of_ne_bytes hs fun bs heq => hbytes bs (heq ▸ List.mem_cons_self)) (ih ?_)
    exact fun bs hbs => hbytes bs (List.mem_cons_of_mem _ hbs)

theorem covered_plain (hv : ¬ Converts v) : Covered .lenient .plain v where
  text h := text_of_ne_bytes h fun _ heq => hv (heq ▸ trivial)
  list hlist htexts := by
    obtain rfl | ⟨keys, rfl, -⟩ := hlist
    · exact ⟨rfl, texts_of_no_bytes htexts fun bs hbs => hv ⟨bs, hbs⟩⟩
    · exact absurd trivial hv

theorem Under.imp {default : α} {R S : Value → α → Prop} {a : α} (h : Under m key default R a)
    (hRS : ∀ v, m.get? key = some v → R v a → S v a) : Under m key default S a := by
  unfold Under at h ⊢
  split at h
  · exact h
  · next v hv => exact hRS v hv h

theorem Reads.imp (h : Reads F m c) (hm : ∀ p ∈ lenientFields, ∀ (es : Mapping) (v : Value),
    m.get? p.1 = some (.map es) → es.get? p.2 = some v → Covered F G v) : Reads G m c := by
  refine ⟨h.keys, h.outline.imp ?_, h.logging.imp ?_⟩
  · rintro v hv ⟨es, rfl, ho⟩
    refine ⟨es, rfl, ho.files.imp fun v hget h => ?_, ho.treeId.imp fun v hget h => ?_,
      ho.ignoreTag.imp fun v hget h => ?_⟩
    · obtain ⟨⟨items, hlist, htexts⟩, hnone⟩ := h
      exact ⟨⟨items, (hm ("outline", "files") (by decide) es v hv hget).list hlist htexts⟩, hnone⟩
    · exact ⟨(hm ("outline", "tree_id") (by decide) es v hv hget).text h.1, h.2⟩
    · exact ⟨(hm ("outline", "ignore_tag") (by decide) es v hv hget).text h.1, h.2⟩
  · rintro v hv ⟨es, rfl, hl⟩
    refine ⟨es, rfl, hl.level.imp fun v hget h => ?_, hl.format, hl.file.imp fun v hget h => ?_⟩
    · obtain ⟨⟨s, hs, heq⟩, hname⟩ := h
      exact ⟨⟨s, (hm ("logging", "level") (by decide) es v hv hget).text hs, heq⟩, hname⟩
    · obtain hnull | ⟨s, hs, heq⟩ := h
      · exact .inl hnull
      · exact .inr ⟨s, (hm ("logging", "file") (by decide) es v hv hget).text hs, heq⟩

theorem Reads.lenient (h : Reads .plain m c) : Reads .lenient m c :=
  h.imp fun _ _ _ v _ _ => covered_lenient v

theorem Reads.plain (h : Reads .lenient m c) (hm : Unconverted m) : Reads .plain m c :=
  h.imp fun p hp es v hes hget => covered_plain (hm p hp es v hes hget)

/-- A mapping under texts is a configuration just when it reads as that one, and what it holds beside the
keys of a section does not count; with texts and lists in their places it reads as they stand. What is no
configuration is reported with its issues, unless its level has a lone surrogate: then they are lost. What a
configuration is written as is that configuration. -/
theorem configuration_iff_reads (hm : m.TextKeys) :
    (∀ c, ofMapping m = .ok c ↔ Reads .lenient m c) ∧
    (Unconverted m → ∀ c, ofMapping m = .ok c ↔ Reads .plain m c) ∧
    (∀ level, ofMapping m = .error (.unprintable level) ↔ TornLevel m level) ∧
    ((∀ c, ¬ Reads .lenient m c) → (∀ level, ¬ TornLevel m level) →
      ∃ issues, ofMapping m = .error (.invalid issues)) ∧
    ∀ c, ofMapping m = .ok c → ofMapping c.toMapping = .ok c := by
  have hload {m : Mapping} (hm : m.TextKeys) (c : Config) : ofMapping m = .ok c ↔ Reads .lenient m c := by
    rw [ofMapping_of_textKeys hm, mapError_eq_ok, check_eq_ok_iff_reads hm]
  refine ⟨hload hm, fun hplain c => ?_, fun level => ?_, fun hnone htorn => ?_, fun c hc => ?_⟩
  · exact (hload hm c).trans ⟨fun h => h.plain hplain, Reads.lenient⟩
  · rw [ofMapping_of_textKeys hm, ← check_eq_unprintable_iff]
    rcases check m with (_ | _) | _ <;> simp [Except.mapError, Refusal.toError]
  · rw [ofMapping_of_textKeys hm]
    rcases hcheck : check m with (issues | level) | c
    · exact ⟨issues, rfl⟩
    · exact absurd (check_eq_unprintable_iff.1 hcheck) (htorn level)
    · exact absurd ((check_eq_ok_iff_reads hm).1 hcheck) (hnone c)
  · have htextKeys : c.toMapping.TextKeys := by
      simp only [Mapping.TextKeys, toMapping, List.map_cons, List.map_nil, List.forall_mem_cons]
      exact ⟨⟨"outline", rfl⟩, ⟨"logging", rfl⟩, List.forall_mem_nil _⟩
    have hvalid := ((hload hm c).1 hc).valid
    exact (hload htextKeys c).2 hvalid.reads_toMapping.lenient

/-- An unknown key in a section is passed over, and a level in small letters is read. Bytes that are no text are
reported; of a level with a lone surrogate nothing is. -/
theorem configuration_iff_reads_of_two_sections :
    let m : Mapping := [(.text "logging", .map [(.text "level", .text " debug "), (.text "file", .null)]),
      (.text "outline", .map [(.text "files", .list [.text "a.org", .text "b.org"]),
        (.text "depth", .set [.int 3]), (.text "tree_id", .text "feeds")])]
    let c : Config := ⟨⟨["a.org", "b.org"], "feeds", "ignore"⟩, ⟨"DEBUG", .plain, none⟩⟩
    let level : Torn := ⟨[.char 'a', .surrogate 0], rfl⟩
    let torn : Mapping := [(.text "logging", .map [(.text "level", .scalar (.torn level))])]
    let wrong : Mapping := [(.text "logging", .map [(.text "level", .text "loud")])]
    (m.TextKeys ∧ Unconverted m ∧ ofMapping m = .ok c ∧ ofMapping c.toMapping = .ok c) ∧
      (torn.TextKeys ∧ ofMapping torn = .error (.unprintable level)) ∧
      wrong.TextKeys ∧ ∃ issues, ofMapping wrong = .error (.invalid issues) := by
  intro m c level torn wrong
  refine ⟨?_, ?_, ?_⟩
  · have hm : m.TextKeys := by
      simp only [m, Mapping.TextKeys, List.map_cons, List.map_nil, List.forall_mem_cons]
      exact ⟨⟨"logging", rfl⟩, ⟨"outline", rfl⟩, List.forall_mem_nil _⟩
    have hplain : Unconverted m := by
      intro p hp es v hes hv
      simp only [lenientFields, List.mem_cons, List.not_mem_nil, or_false] at hp
      rcases hp with rfl | rfl | rfl | rfl | rfl <;> cases hes <;> cases hv <;> simp [Converts]
    have hreads : Reads .plain m c := by
      refine ⟨by simp [m], ⟨_, rfl, ⟨⟨_, rfl, ?_⟩, ?_⟩, ⟨rfl, ?_⟩, rfl⟩, ⟨_, rfl, ⟨⟨_, rfl, ?_⟩, ?_⟩, rfl, ?_⟩⟩
      · exact .cons rfl (.cons rfl .nil)
      · decide
      · exact ⟨by decide, by decide, by decide⟩
      · decide +kernel
      · decide
      · exact .inl ⟨rfl, rfl⟩
    have hlaws := configuration_iff_reads hm
    have hload : ofMapping m = .ok c := (hlaws.2.1 hplain c).2 hreads
    exact ⟨hm, hplain, hload, hlaws.2.2.2.2 c hload⟩
  · have htorn : torn.TextKeys := List.forall_mem_singleton.2 ⟨"logging", rfl⟩
    exact ⟨htorn, ((configuration_iff_reads htorn).2.2.1 level).2 ⟨_, rfl, rfl⟩⟩
  · have hwrong : wrong.TextKeys := List.forall_mem_singleton.2 ⟨"logging", rfl⟩
    refine ⟨hwrong, (configuration_iff_reads hwrong).2.2.2.1 (fun c hc => ?_) fun level hlevel => ?_⟩
    · obtain ⟨es, hes, hl⟩ := hc.logging
      cases hes
      obtain ⟨⟨s, hs | ⟨_, -, hs⟩, heq⟩, hname⟩ := hl.level
      · cases hs
        rw [heq] at hname
        exact absurd hname (by decide +kernel)
      · cases hs
    · obtain ⟨es, hes, hget⟩ := hlevel
      cases hes
      cases hget

/-- A level that is a text and no level is not reported as one, since its lone surrogate fits into no message. -/
theorem torn_level_unreported :
    let level : Torn := ⟨[.surrogate 0], rfl⟩
    let m : Mapping := [(.text "logging", .map [(.text "level", .scalar (.torn level))])]
    let files : Disk.FileTree :=
      { entries := [(["c.yaml"], .file (encodeUtf8 "logging:\n  level: \"\\ud800\"\n"))] }
    m.TextKeys ∧ Unconverted m ∧ (∀ c, ¬ Reads .plain m c) ∧ ofMapping m = .error (.unprintable level) ∧
      (LoadError.unprintable level).isReported = false ∧ load files {} "c.yaml" = .error (.unprintable level) := by
  intro level m files
  refine ⟨List.forall_mem_singleton.2 ⟨"logging", rfl⟩, ?_, fun c hc => ?_, by decide +kernel, rfl, by decide +kernel⟩
  · intro p hp es v hes hv
    simp only [lenientFields, List.mem_cons, List.not_mem_nil, or_false] at hp
    rcases hp with rfl | rfl | rfl | rfl | rfl <;> cases hes <;> cases hv
    exact id
  · obtain ⟨es, hes, hl⟩ := hc.logging
    cases hes
    obtain ⟨⟨s, hs, -⟩, -⟩ := hl.level
    cases hs

end FeedOutline.Config
