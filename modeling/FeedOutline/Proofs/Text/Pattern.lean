import Mathlib.Computability.Language

/-!
Regular expressions. A matcher tries all ways to match one after the other and takes the first. The texts
that an expression without groups and anchors can take are those of its language, and none is left untried.
-/
namespace FeedOutline.Text

open scoped Computability

/-- `few` tells the repetition that prefers few rounds from the one that prefers many. -/
inductive Pattern where
  | char (p : Char → Bool)
  | start
  | finish
  | seq (a b : Pattern)
  | either (a b : Pattern)
  | repeated (few : Bool) (a : Pattern)
  | group (name : String) (a : Pattern)

namespace Pattern

/-- Where a match stands: what it has passed, last first, what is ahead, and the groups it has closed,
newest first. -/
structure Place where
  passed : List Char
  ahead : List Char
  groups : List (String × List Char)

def Place.group (s : Place) (name : String) : List Char :=
  (s.groups.lookup name).getD []

def Place.behind (s : Place) (word rest : List Char) : Place :=
  ⟨word.reverse ++ s.passed, rest, s.groups⟩

/-- Each round takes a character at least, so there are no more of them than characters ahead. -/
def rounds (few : Bool) (step : Place → List Place) : Nat → Place → List Place
  | 0, s => [s]
  | n + 1, s =>
    let more := ((step s).filter (·.ahead.length < s.ahead.length)).flatMap (rounds few step n)
    if few then s :: more else more ++ [s]

/-- All ways to match, the preferred ones first. -/
def tries : Pattern → Place → List Place
  | char p, s =>
    match s.ahead with
    | [] => []
    | c :: rest => if p c then [s.behind [c] rest] else []
  | start, s => if s.passed.isEmpty then [s] else []
  | finish, s => if s.ahead = [] ∨ s.ahead = ['\n'] then [s] else []
  | seq a b, s => (a.tries s).flatMap b.tries
  | either a b, s => a.tries s ++ b.tries s
  | repeated few a, s => rounds few a.tries s.ahead.length s
  | group name a, s =>
    (a.tries s).map fun t =>
      { t with groups := (name, s.ahead.take (s.ahead.length - t.ahead.length)) :: t.groups }

def first? (a : Pattern) (s : List Char) : Option Place :=
  (a.tries ⟨[], s, []⟩).head?

def plus (a : Pattern) : Pattern :=
  .seq a (.repeated false a)

/-- The ways to match are those of taking a word of the language off what is ahead. -/
def Reads (a : Pattern) (l : Language Char) : Prop :=
  ∀ s t, t ∈ a.tries s ↔ ∃ word ∈ l, ∃ rest, s.ahead = word ++ rest ∧ t = s.behind word rest

variable {a b : Pattern} {l m : Language Char} {few : Bool} {p : Char → Bool} {s t : Place}

def letters (p : Char → Bool) : Language Char :=
  {word | ∃ c, p c = true ∧ word = [c]}

theorem reads_char (p : Char → Bool) : (char p).Reads (letters p) := by
  intro s t
  constructor
  · intro ht
    rw [tries] at ht
    split at ht
    · cases ht
    · next c rest hahead =>
      split at ht
      · next hc => exact ⟨[c], ⟨c, hc, rfl⟩, rest, hahead, List.mem_singleton.1 ht⟩
      · cases ht
  · rintro ⟨_, ⟨c, hc, rfl⟩, rest, hahead, rfl⟩
    rw [tries, hahead]
    simp [hc]

theorem mem_start : t ∈ start.tries s ↔ s.passed = [] ∧ t = s := by
  rw [tries]
  split
  · next h => simp [List.isEmpty_iff.1 h]
  · next h => simp [mt List.isEmpty_iff.2 h]

theorem mem_finish : t ∈ finish.tries s ↔ (s.ahead = [] ∨ s.ahead = ['\n']) ∧ t = s := by
  rw [tries]
  split
  · next h => simp [h]
  · next h => simp [h]

theorem mem_seq : t ∈ (seq a b).tries s ↔ ∃ u ∈ a.tries s, t ∈ b.tries u :=
  List.mem_flatMap

theorem mem_either : t ∈ (either a b).tries s ↔ t ∈ a.tries s ∨ t ∈ b.tries s :=
  List.mem_append

theorem Reads.seq (ha : a.Reads l) (hb : b.Reads m) : (seq a b).Reads (l * m) := by
  intro s t
  rw [mem_seq]
  constructor
  · rintro ⟨u, hu, ht⟩
    obtain ⟨w, hw, rest, hahead, rfl⟩ := (ha s u).1 hu
    obtain ⟨v, hv, rest', rfl, rfl⟩ := (hb _ t).1 ht
    exact ⟨w ++ v, Language.append_mem_mul hw hv, rest', by rw [hahead, List.append_assoc],
      by simp [Place.behind]⟩
  · rintro ⟨word, hword, rest, hahead, rfl⟩
    obtain ⟨w, hw, v, hv, rfl⟩ := Language.mem_mul.1 hword
    have hfirst := (ha s _).2 ⟨w, hw, v ++ rest, by rw [hahead, List.append_assoc], rfl⟩
    refine ⟨s.behind w (v ++ rest), hfirst, ?_⟩
    exact (hb _ _).2 ⟨v, hv, rest, rfl, by simp [Place.behind]⟩

theorem mem_rounds_succ {step : Place → List Place} {n : Nat} :
    t ∈ rounds few step (n + 1) s ↔
      t = s ∨ ∃ u ∈ step s, u.ahead.length < s.ahead.length ∧ t ∈ rounds few step n u := by
  rw [rounds]
  cases few <;> simp [or_comm, and_assoc]

theorem mem_of_mem_rounds (ha : a.Reads l) {n : Nat} (ht : t ∈ rounds few a.tries n s) :
    ∃ word ∈ l∗, ∃ rest, s.ahead = word ++ rest ∧ t = s.behind word rest := by
  induction n generalizing s with
  | zero =>
    rw [rounds, List.mem_singleton] at ht
    exact ⟨[], Language.nil_mem_kstar l, s.ahead, rfl, ht⟩
  | succ n ih =>
    rcases mem_rounds_succ.1 ht with rfl | ⟨u, hu, -, ht⟩
    · exact ⟨[], Language.nil_mem_kstar l, t.ahead, rfl, rfl⟩
    · obtain ⟨w, hw, rest, hahead, rfl⟩ := (ha s u).1 hu
      obtain ⟨v, hv, rest', rfl, rfl⟩ := ih ht
      have hword : w ++ v ∈ l∗ :=
        Set.mem_of_mem_of_subset (Language.append_mem_mul hw hv) (mul_kstar_le_kstar (a := l))
      exact ⟨w ++ v, hword, rest', by rw [hahead, List.append_assoc], by simp [Place.behind]⟩

/-- There are enough rounds for every word that is a row of words. -/
theorem mem_rounds (ha : a.Reads l) {words : List (List Char)} {rest : List Char} {n : Nat}
    (hwords : ∀ w ∈ words, w ∈ l ∧ w ≠ []) (hahead : s.ahead = words.flatten ++ rest)
    (hn : s.ahead.length ≤ n) : s.behind words.flatten rest ∈ rounds few a.tries n s := by
  induction words generalizing s n with
  | nil =>
    have hself : s.behind [].flatten rest = s := by
      rw [List.flatten_nil, List.nil_append] at hahead
      rw [← hahead]
      rfl
    rw [hself]
    cases n with
    | zero => exact List.mem_singleton_self s
    | succ n => exact mem_rounds_succ.2 (.inl rfl)
  | cons w words ih =>
    rw [List.forall_mem_cons] at hwords
    obtain ⟨⟨hw, hne⟩, hwords⟩ := hwords
    rw [List.flatten_cons, List.append_assoc] at hahead
    have hpos : 0 < w.length := List.length_pos_iff.2 hne
    have hlen : s.ahead.length = w.length + (words.flatten ++ rest).length := by
      rw [hahead, List.length_append]
    cases n with
    | zero => omega
    | succ n =>
      refine mem_rounds_succ.2 (.inr ⟨s.behind w (words.flatten ++ rest), ?_, ?_, ?_⟩)
      · exact (ha s _).2 ⟨w, hw, _, hahead, rfl⟩
      · change (words.flatten ++ rest).length < _
        omega
      · have hround := ih (s := s.behind w (words.flatten ++ rest)) (n := n) hwords rfl
          (by change (words.flatten ++ rest).length ≤ n; omega)
        simpa [Place.behind] using hround

theorem Reads.repeated (ha : a.Reads l) (few : Bool) : (repeated few a).Reads (l∗) := by
  intro s t
  rw [tries]
  constructor
  · exact mem_of_mem_rounds ha
  · rintro ⟨word, hword, rest, hahead, rfl⟩
    obtain ⟨words, rfl, hwords⟩ := Language.mem_kstar_iff_exists_nonempty.1 hword
    exact mem_rounds ha hwords hahead le_rfl

theorem Reads.plus (ha : a.Reads l) : a.plus.Reads (l * l∗) :=
  ha.seq (ha.repeated false)

theorem Reads.mem_group (ha : a.Reads l) (name : String) :
    t ∈ (Pattern.group name a).tries s ↔ ∃ word ∈ l, ∃ rest, s.ahead = word ++ rest ∧
      t = ⟨word.reverse ++ s.passed, rest, (name, word) :: s.groups⟩ := by
  have htaken {word rest : List Char} (hahead : s.ahead = word ++ rest) :
      s.ahead.take (s.ahead.length - rest.length) = word := by
    simp [hahead]
  rw [tries, List.mem_map]
  constructor
  · rintro ⟨u, hu, rfl⟩
    obtain ⟨word, hword, rest, hahead, rfl⟩ := (ha s u).1 hu
    refine ⟨word, hword, rest, hahead, ?_⟩
    rw [Place.behind, htaken hahead]
  · rintro ⟨word, hword, rest, hahead, rfl⟩
    refine ⟨s.behind word rest, (ha s _).2 ⟨word, hword, rest, hahead, rfl⟩, ?_⟩
    rw [Place.behind, htaken hahead]

/-! Words of one class of characters. -/

theorem mem_kstar_letters {word : List Char} : word ∈ (letters p)∗ ↔ ∀ c ∈ word, p c = true := by
  rw [Language.mem_kstar]
  constructor
  · rintro ⟨words, rfl, hwords⟩ c hc
    obtain ⟨w, hw, hc⟩ := List.mem_flatten.1 hc
    obtain ⟨d, hd, rfl⟩ := hwords w hw
    rwa [List.mem_singleton.1 hc]
  · intro hall
    refine ⟨word.map fun c => [c], by simp [← List.flatMap_def], ?_⟩
    rintro _ hw
    obtain ⟨c, hc, rfl⟩ := List.mem_map.1 hw
    exact ⟨c, hall c hc, rfl⟩

theorem mem_plus_letters {word : List Char} :
    word ∈ letters p * (letters p)∗ ↔ word ≠ [] ∧ ∀ c ∈ word, p c = true := by
  rw [Language.mem_mul]
  constructor
  · rintro ⟨_, ⟨c, hc, rfl⟩, rest, hrest, rfl⟩
    exact ⟨by simp, List.forall_mem_cons.2 ⟨hc, mem_kstar_letters.1 hrest⟩⟩
  · rintro ⟨hne, hall⟩
    cases word with
    | nil => exact absurd rfl hne
    | cons c rest =>
      rw [List.forall_mem_cons] at hall
      exact ⟨[c], ⟨c, hall.1, rfl⟩, rest, mem_kstar_letters.2 hall.2, rfl⟩

end Pattern

end FeedOutline.Text
