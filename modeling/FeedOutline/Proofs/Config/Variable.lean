import FeedOutline.Config.Override
import FeedOutline.Proofs.Text.Search
import FeedOutline.Proofs.Text.Split
import FeedOutline.Proofs.Text.Trim
import Mathlib.Data.List.Pairwise

/-!
Which variables override a setting, and which setting that is. A list in the value of a variable is read
back, whatever blanks stand around its items and between them.
-/
namespace FeedOutline.Config

open Text

inductive SectionWord : String → String → Prop
  | outline : SectionWord "OUTLINE" "outline"
  | logging : SectionWord "LOGGING" "logging"

/-- A variable has the name for a key of a section: `ORGFEED_SECTION_KEY`, with the key in any letters. -/
def Names (name sectionName key : String) : Prop :=
  ∃ word letters, SectionWord word sectionName ∧ name = "ORGFEED_" ++ word ++ "_" ++ letters ∧
    key = lowerString letters

def Unambiguous (vars : Variables) : Prop :=
  vars.Pairwise fun x y => ∀ sectionName key, Names x.1 sectionName key → ¬ Names y.1 sectionName key

variable {vars : Variables} {name value sectionName key word : String} {x : String × String} {o : Override}

theorem sectionOf?_eq_some_iff {word : List Char} :
    sectionOf? word = some sectionName ↔ SectionWord (.ofList word) sectionName := by
  unfold sectionOf?
  generalize String.ofList word = word
  constructor
  · intro h
    simp only [List.lookup_cons, List.lookup_nil] at h
    split at h
    · next hword =>
      cases h
      rw [eq_of_beq hword]
      exact .outline
    · split at h
      · next hword =>
        cases h
        rw [eq_of_beq hword]
        exact .logging
      · cases h
  · rintro (_ | _) <;> rfl

theorem SectionWord.ne_of_mem (h : SectionWord word sectionName) : ∀ c ∈ word.toList, (c != '_') = true := by
  cases h <;> decide

theorem ofVariable?_eq_ok_iff : Override.ofVariable? name value = some (.ok o) ↔
    Names name o.sectionName o.key ∧ o.value = overrideValue o.sectionName o.key value := by
  unfold Override.ofVariable? variableStart
  rw [Option.map_eq_some_iff]
  constructor
  · rintro ⟨rest, hrest, h⟩
    rw [afterStart?_eq_some_iff] at hrest
    dsimp only at h
    split at h
    · cases h
    · next c letters hdrop =>
      split at h
      · cases h
      · next sectionName hsection =>
        cases h
        have hc : c = '_' := by simpa using head?_dropWhile (p := (· != '_')) c (by rw [hdrop]; rfl)
        have hkey : String.ofList (lower letters) = lowerString (.ofList letters) := by
          rw [lowerString, String.toList_ofList]
        refine ⟨⟨_, .ofList letters, sectionOf?_eq_some_iff.1 hsection, String.toList_inj.1 ?_, hkey⟩, rfl⟩
        have hparts := List.takeWhile_append_dropWhile (p := (· != '_')) (l := rest)
        rw [hdrop, hc] at hparts
        rw [hrest]
        simp [hparts]
  · rintro ⟨⟨word, letters, hword, rfl, hkey⟩, hvalue⟩
    refine ⟨word.toList ++ '_' :: letters.toList, afterStart?_eq_some_iff.2 (by simp), ?_⟩
    have hstop : ∀ c ∈ ('_' :: letters.toList).head?, (c != '_') = false := by simp
    rw [takeWhile_append_stop hword.ne_of_mem hstop, dropWhile_append_stop hword.ne_of_mem hstop]
    have hsection : sectionOf? word.toList = some o.sectionName :=
      sectionOf?_eq_some_iff.2 (String.ofList_toList ▸ hword)
    dsimp only
    rw [hsection]
    dsimp only
    change Except.ok (Override.mk _ (lowerString letters) (overrideValue _ (lowerString letters) value)) = _
    rw [← hkey, ← hvalue]

def overrideOf? (x : String × String) : Option Override :=
  (Override.ofVariable? x.1 x.2).bind Except.toOption

theorem overridesOf_eq (vars : Variables) : overridesOf vars = vars.filterMap overrideOf? :=
  rfl

theorem overrideOf?_eq_some_iff : overrideOf? x = some o ↔
    Names x.1 o.sectionName o.key ∧ o.value = overrideValue o.sectionName o.key x.2 := by
  rw [overrideOf?, Option.bind_eq_some_iff, ← ofVariable?_eq_ok_iff]
  constructor
  · rintro ⟨e | o', hread, hok⟩
    · cases hok
    · cases hok
      exact hread
  · exact fun h => ⟨_, h, rfl⟩

theorem Names.unique {sectionName' key' : String} (h : Names name sectionName key)
    (h' : Names name sectionName' key') : sectionName' = sectionName ∧ key' = key := by
  have hread {sectionName key : String} (h : Names name sectionName key) :
      overrideOf? (name, "") = some ⟨sectionName, key, overrideValue sectionName key ""⟩ :=
    overrideOf?_eq_some_iff.2 ⟨h, rfl⟩
  have hsame := (hread h').symm.trans (hread h)
  rw [Option.some.injEq, Override.mk.injEq] at hsame
  exact ⟨hsame.1, hsame.2.1⟩

theorem mem_overridesOf_iff : o ∈ overridesOf vars ↔
    ∃ x ∈ vars, Names x.1 o.sectionName o.key ∧ o.value = overrideValue o.sectionName o.key x.2 := by
  simp only [overridesOf_eq, List.mem_filterMap, overrideOf?_eq_some_iff]

theorem overridesOf_of_not_names (hx : ∀ sectionName key, ¬ Names x.1 sectionName key) (before after : Variables) :
    overridesOf (before ++ x :: after) = overridesOf (before ++ after) := by
  have hnone : overrideOf? x = none :=
    Option.eq_none_iff_forall_not_mem.2 fun o ho => hx _ _ (overrideOf?_eq_some_iff.1 ho).1
  rw [overridesOf_eq, overridesOf_eq, List.filterMap_append, List.filterMap_append, List.filterMap_cons_none hnone]

theorem Unambiguous.pairwise (h : Unambiguous vars) : (overridesOf vars).Pairwise fun o o' =>
    o.sectionName = o'.sectionName → o.key ≠ o'.key := by
  rw [overridesOf_eq, List.pairwise_filterMap]
  refine h.imp fun hxy o ho o' ho' hsection hkey => ?_
  have hname' := (overrideOf?_eq_some_iff.1 ho').1
  rw [← hsection, ← hkey] at hname'
  exact hxy _ _ (overrideOf?_eq_some_iff.1 ho).1 hname'

theorem Unambiguous.perm {vars' : Variables} (h : Unambiguous vars) (hperm : vars'.Perm vars) : Unambiguous vars' :=
  hperm.symm.pairwise h fun hxy sectionName key hy hx => hxy sectionName key hx hy

/-! Lists in the values of variables. -/

/-- The items with blanks around them, and with blank items before, between and behind them. -/
inductive Padded : List String → List String → Prop
  | nil : Padded [] []
  | blank {items padded} {b : String} : isBlankString b = true → Padded items padded →
      Padded items (b :: padded)
  | item {items padded} (before item after : String) : isBlankString before = true →
      isBlankString after = true → Padded items padded →
      Padded (item :: items) ((before ++ item ++ after) :: padded)

structure Kept (item : String) : Prop where
  ne_empty : item ≠ ""
  trimmed : trimString item = item
  no_comma : ',' ∉ item.toList

variable {items padded : List String} {c : Char} {sep : String}

theorem isBlankString_iff {s : String} : isBlankString s = true ↔ ∀ c ∈ s.toList, isBlank c = true :=
  List.all_eq_true

theorem trim_of_isBlankString {s : String} (h : isBlankString s = true) : trim s.toList = [] :=
  trim_eq_nil_iff.2 (isBlankString_iff.1 h)

theorem Padded.filter_trim (h : Padded items padded) (hkept : ∀ item ∈ items, Kept item) :
    (padded.map trimString).filter (!·.isEmpty) = items := by
  induction h with
  | nil => rfl
  | blank hb _ ih =>
    rw [List.map_cons, trimString, trim_of_isBlankString hb, List.filter_cons_of_neg (by decide), ih hkept]
  | item before item after hbefore hafter _ ih =>
    rw [List.forall_mem_cons] at hkept
    obtain ⟨⟨hne, htrim, -⟩, hkept⟩ := hkept
    have htrimmed : Trimmed isBlank item.toList := htrim ▸ trimmed_trimString item
    have hitem : trimString (before ++ item ++ after) = item := by
      rw [trimString, String.toList_append, String.toList_append, trim,
        trimmed_append htrimmed (by simpa using hne) (isBlankString_iff.1 hbefore)
          (isBlankString_iff.1 hafter), String.ofList_toList]
    rw [List.map_cons, hitem, List.filter_cons_of_pos (by simpa using hne), ih hkept]

theorem Padded.notMem (h : Padded items padded) (hblank : isBlank c = false)
    (hitems : ∀ item ∈ items, c ∉ item.toList) : ∀ p ∈ padded, c ∉ p.toList := by
  have hnot {s : String} (hs : isBlankString s = true) : c ∉ s.toList := fun hc => by
    simp [isBlankString_iff.1 hs c hc] at hblank
  induction h with
  | nil => simp
  | blank hb _ ih => exact List.forall_mem_cons.2 ⟨hnot hb, ih hitems⟩
  | item before item after hbefore hafter _ ih =>
    rw [List.forall_mem_cons] at hitems
    refine List.forall_mem_cons.2 ⟨?_, ih hitems.2⟩
    simpa using ⟨hnot hbefore, hitems.1, hnot hafter⟩

def itemsBetween (c : Char) (s : String) : List String :=
  ((splitOn c s.toList).map fun part => String.ofList (trim part)).filter (!·.isEmpty)

theorem splitList_of_comma {s : String} (h : ',' ∈ s.toList) : splitList s = itemsBetween ',' s := by
  simp [splitList, itemsBetween, h]

theorem splitList_of_no_comma {s : String} (h : ',' ∉ s.toList) : splitList s = itemsBetween ':' s := by
  simp [splitList, itemsBetween, h]

theorem itemsBetween_joined (hsep : sep.toList = [c]) (hblank : isBlank c = false)
    (hpadded : Padded items padded) (hkept : ∀ item ∈ items, Kept item)
    (hitems : ∀ item ∈ items, c ∉ item.toList) : itemsBetween c (joined sep padded) = items := by
  have hfilter := hpadded.filter_trim hkept
  by_cases hne : padded = []
  · subst hne
    cases hpadded
    rfl
  · have hnot : ∀ p ∈ padded, ∀ d ∈ p.toList, (d == c) = false := by
      intro p hp d hd
      rw [beq_eq_false_iff_ne]
      rintro rfl
      exact hpadded.notMem hblank hitems p hp hd
    rw [itemsBetween, splitOn, splitWhere_joined hsep (by simp) hne hnot, List.map_map]
    exact hfilter

theorem comma_mem_joined (h : 2 ≤ padded.length) : ',' ∈ (joined "," padded).toList := by
  match padded, h with
  | p :: q :: rest, _ =>
    rw [joined_cons "," p (List.cons_ne_nil q rest)]
    simp

theorem joined_eq_joined (h : ¬ 2 ≤ padded.length) (sep sep' : String) :
    joined sep padded = joined sep' padded := by
  match padded, h with
  | [], _ => rfl
  | [p], _ => rfl
  | p :: q :: rest, h => exact absurd (by simp) h

/-- Items without commas and colons are read back, joined with commas or with colons. Where a comma is
written, colons may stand in the items. -/
theorem splitList_joined (hpadded : Padded items padded) (hkept : ∀ item ∈ items, Kept item) :
    ((∀ item ∈ items, ':' ∉ item.toList) →
      splitList (joined "," padded) = items ∧ splitList (joined ":" padded) = items) ∧
    (2 ≤ padded.length → splitList (joined "," padded) = items) := by
  have hcomma (h : 2 ≤ padded.length) : splitList (joined "," padded) = items := by
    rw [splitList_of_comma (comma_mem_joined h)]
    exact itemsBetween_joined rfl (by decide) hpadded hkept fun item hitem => (hkept item hitem).no_comma
  refine ⟨fun hcolon => ?_, hcomma⟩
  have hparts : ∀ p ∈ padded, ',' ∉ p.toList :=
    hpadded.notMem (by decide) fun item hitem => (hkept item hitem).no_comma
  have hother : ∀ c ∈ (joined ":" padded).toList, c ≠ ',' :=
    forall_mem_joined (by decide) fun p hp c hc => ne_of_mem_of_not_mem hc (hparts p hp)
  have hnone : ',' ∉ (joined ":" padded).toList := fun hmem => hother ',' hmem rfl
  have hsplit : splitList (joined ":" padded) = items := by
    rw [splitList_of_no_comma hnone]
    exact itemsBetween_joined rfl (by decide) hpadded hkept hcolon
  by_cases h : 2 ≤ padded.length
  · exact ⟨hcomma h, hsplit⟩
  · exact ⟨joined_eq_joined h "," ":" ▸ hsplit, hsplit⟩

theorem splitList_joined_of_blanks :
    (splitList (joined "," ["", " ~/a b.org\t", "\u2003", "c.org "]) = ["~/a b.org", "c.org"] ∧
      splitList (joined ":" ["", " ~/a b.org\t", "\u2003", "c.org "]) = ["~/a b.org", "c.org"]) ∧
    splitList (joined "," ["", " ~/a b.org\t", "\u2003", "C:/c.org "]) = ["~/a b.org", "C:/c.org"] := by
  have hpadded (item : String) :
      Padded ["~/a b.org", item] ["", " ~/a b.org\t", "\u2003", "" ++ item ++ " "] :=
    .blank (by decide) (.item " " "~/a b.org" "\t" (by decide) (by decide)
      (.blank (by decide) (.item "" item " " (by decide) (by decide) .nil)))
  have hkept (item : String) (hitem : Kept item) : ∀ i ∈ ["~/a b.org", item], Kept i :=
    List.forall_mem_cons.2 ⟨⟨by decide, by decide, by decide⟩, List.forall_mem_singleton.2 hitem⟩
  have hplain := hkept "c.org" ⟨by decide, by decide, by decide⟩
  have hcolon := hkept "C:/c.org" ⟨by decide, by decide, by decide⟩
  exact ⟨(splitList_joined (hpadded _) hplain).1 (by decide),
    (splitList_joined (hpadded _) hcolon).2 (by decide)⟩

end FeedOutline.Config
