import FeedOutline.Disk.Pathname
import FeedOutline.Proofs.Text.Split

/-!
The text of a path. A path that was read from a text is written as one that is read back as the same.
-/
namespace FeedOutline.Disk

open Text

theorem rootOf_cases (s : List Char) : rootOf s = "" ∨ rootOf s = "/" ∨ rootOf s = "//" := by
  unfold rootOf
  split <;> simp

namespace Pathname

/-- Every name is one step of a path, and the root, if there is one, is made of slashes. -/
structure Plain (p : Pathname) : Prop where
  names : ∀ n ∈ p.names, n ≠ "" ∧ n ≠ "." ∧ '/' ∉ n.toList
  root : p.root = "" ∨ p.root = "/" ∨ p.root = "//"

theorem plain_ofText (s : String) : (ofText s).Plain := by
  refine ⟨fun n hn => ?_, rootOf_cases s.toList⟩
  obtain ⟨hn, hne⟩ := List.mem_filter.1 hn
  obtain ⟨part, hpart, rfl⟩ := List.mem_map.1 hn
  rw [Bool.and_eq_true, bne_iff_ne, bne_iff_ne] at hne
  refine ⟨hne.1, hne.2, fun hmem => ?_⟩
  rw [String.toList_ofList] at hmem
  exact absurd (forall_of_mem_splitWhere hpart '/' hmem) (by decide)

variable {p : Pathname} {here : List String}

theorem Plain.of_names (h : p.Plain) {names : List String} (hnames : ∀ n ∈ names, n ∈ p.names) :
    Plain ⟨p.root, names⟩ :=
  ⟨fun n hn => h.names n (hnames n hn), h.root⟩

theorem Plain.parent (h : p.Plain) : p.parent.Plain :=
  h.of_names fun _ hn => (List.dropLast_sublist _).subset hn

theorem Plain.toList_joined (h : p.Plain) (hne : p.names ≠ []) :
    ∃ c rest, (joined "/" p.names).toList = c :: rest ∧ c ≠ '/' := by
  obtain ⟨n, ns, hnames⟩ := List.exists_cons_of_ne_nil hne
  obtain ⟨hempty, -, hslash⟩ := h.names n (by simp [hnames])
  obtain ⟨c, rest, hn⟩ := List.exists_cons_of_ne_nil (mt String.toList_eq_nil_iff.1 hempty)
  have hc : c ≠ '/' := by
    rintro rfl
    exact hslash (by simp [hn])
  by_cases hns : ns = []
  · exact ⟨c, rest, by simp [hnames, hns, joined, hn], hc⟩
  · rw [hnames, joined_cons "/" n hns, String.toList_append, String.toList_append, hn]
    exact ⟨c, _, rfl, hc⟩

theorem Plain.toList_text (h : p.Plain) (hne : p.names ≠ []) :
    p.text.toList = p.root.toList ++ (joined "/" p.names).toList := by
  obtain ⟨c, rest, hjoined, -⟩ := h.toList_joined hne
  have hsome : p.root ++ joined "/" p.names ≠ "" := by
    intro hempty
    simpa [hjoined] using congrArg String.toList hempty
  simp [text, hsome]

theorem Plain.split_joined (h : p.Plain) (hne : p.names ≠ []) :
    (splitOn '/' (joined "/" p.names).toList).map String.ofList = p.names := by
  have hslash : ∀ n ∈ p.names, ∀ c ∈ n.toList, (c == '/') = false := by
    intro n hn c hc
    rw [beq_eq_false_iff_ne]
    rintro rfl
    exact (h.names n hn).2.2 hc
  rw [splitOn, splitWhere_joined (by rfl) (by rfl) hne hslash, List.map_map]
  simp

theorem Plain.split_text (h : p.Plain) (hne : p.names ≠ []) :
    (splitOn '/' p.text.toList).map String.ofList = List.replicate p.root.length "" ++ p.names := by
  have hjoined := h.split_joined hne
  rw [splitOn] at hjoined
  rw [h.toList_text hne]
  obtain ⟨root, names⟩ := p
  rcases h.root with rfl | rfl | rfl <;> simp [splitOn, splitWhere, hjoined] <;> rfl

theorem Plain.rootOf_text (h : p.Plain) (hne : p.names ≠ []) : rootOf p.text.toList = p.root := by
  obtain ⟨c, rest, hjoined, hc⟩ := h.toList_joined hne
  rw [h.toList_text hne, hjoined]
  rcases h.root with hroot | hroot | hroot <;> rw [hroot] <;> simp [rootOf, hc]

theorem Plain.ofText_text (h : p.Plain) (hne : p.names ≠ []) : ofText p.text = p := by
  have hkeep : p.names.filter (fun n => n != "" && n != ".") = p.names := by
    refine List.filter_eq_self.2 fun n hn => ?_
    simp [(h.names n hn).1, (h.names n hn).2.1]
  rw [ofText, h.split_text hne, h.rootOf_text hne, List.filter_append, hkeep,
    List.filter_eq_nil_iff.2 (by simp), List.nil_append]

theorem Plain.startsWith_text (h : p.Plain) : startsWith "/" p.text = !p.root.isEmpty := by
  by_cases hne : p.names = []
  · obtain ⟨root, names⟩ := p
    subst hne
    rcases h.root with rfl | rfl | rfl <;> rfl
  · obtain ⟨c, rest, hjoined, hc⟩ := h.toList_joined hne
    rw [startsWith, h.toList_text hne, hjoined]
    have hslash : ('/' == c) = false := beq_eq_false_iff_ne.2 hc.symm
    rcases h.root with hroot | hroot | hroot <;> rw [hroot] <;> simp [List.isPrefixOf, hslash]

theorem plain_single {name : String} (hne : name ≠ "") (hdot : name ≠ ".") (hslash : '/' ∉ name.toList) :
    Plain ⟨"", [name]⟩ :=
  ⟨by simp [hne, hdot, hslash], .inl rfl⟩

theorem text_single {name : String} (hne : name ≠ "") : (Pathname.mk "" [name]).text = name := by
  simp [text, joined, hne]

/-! The names from the root on. -/

def base (here : List String) (p : Pathname) : List String :=
  if p.root.isEmpty then here else []

def absoluteStep (names : List String) (name : String) : List String :=
  if name == ".." then names.dropLast else names ++ [name]

theorem absolute_eq : p.absolute here = p.names.foldl absoluteStep (p.base here) := rfl

end Pathname

/-! Homes. -/

theorem expandAnyHome_of_head {env : Environment} {s : AnyText} (h : s.marks.head? ≠ some (.char '~')) :
    expandAnyHome env s = .ok s := by
  cases s with
  | whole s =>
    rw [expandAnyHome, expandHome]
    split
    · next hs => exact absurd (by simp [AnyText.marks, hs]) h
    · rfl
  | torn t =>
    rw [expandAnyHome]
    split
    · next hs => exact absurd (by simp [AnyText.marks, hs]) h
    · rfl

end FeedOutline.Disk
