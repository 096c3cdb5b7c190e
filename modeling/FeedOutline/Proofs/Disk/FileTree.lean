import FeedOutline.Disk.FileTree
import FeedOutline.Proofs.Disk.Pathname
import FeedOutline.Proofs.Except
import FeedOutline.Proofs.Lookup
import Mathlib.Tactic.SplitIfs

/-!
What a change to the files leaves alone. A file is written under the names that its path leads to, and
from then on the path leads to what was written; all other files stay as they are.
-/
namespace FeedOutline.Disk.FileTree

open Text

/-- The bytes of the file under these names, none if there is no such file. -/
def bytesAt (t : FileTree) (names : List String) : Bytes :=
  match t.entry? names with
  | some (.file bytes) => bytes
  | _ => []

/-- Both are seen from one directory and say the same under these names. -/
structure Alike (names : List String) (t t' : FileTree) : Prop where
  here : t'.here = t.here
  bytes : t'.bytesAt names = t.bytesAt names

variable {t t' t'' : FileTree} {names other : List String} {e : Entry}

theorem Alike.refl (names : List String) (t : FileTree) : Alike names t t :=
  ⟨rfl, rfl⟩

theorem Alike.trans (h : Alike names t t') (h' : Alike names t' t'') : Alike names t t'' :=
  ⟨h'.here.trans h.here, h'.bytes.trans h.bytes⟩

/-! Entries. -/

theorem lookup_set (t : FileTree) (names : List String) (e : Entry) (other : List String) :
    (t.set names e).entries.lookup other = if other = names then some e else t.entries.lookup other :=
  lookup_setEntry t.entries names e other

theorem entryAt_set_of_ne (h : other ≠ names) : FileTree.entry? (t.set names e) other = t.entry? other := by
  unfold entry?
  rw [lookup_set, if_neg h]

theorem entryAt_set_self (hne : names ≠ []) : FileTree.entry? (t.set names e) names = some e := by
  unfold entry?
  rw [lookup_set, if_pos rfl]
  simp [hne]

theorem entryAt_erase_of_ne (h : other ≠ names) : FileTree.entry? (t.erase names) other = t.entry? other := by
  unfold entry? erase
  rw [lookup_filter_ne t.entries h]

theorem bytesAt_congr (h : t.entry? names = t'.entry? names) : t.bytesAt names = t'.bytesAt names := by
  rw [bytesAt, h]
  rfl

theorem Alike.set_of_ne (h : other ≠ names) : Alike other t (t.set names e) :=
  ⟨rfl, bytesAt_congr (entryAt_set_of_ne h)⟩

theorem Alike.erase_of_ne (h : other ≠ names) : Alike other t (t.erase names) :=
  ⟨rfl, bytesAt_congr (entryAt_erase_of_ne h)⟩

theorem bytesAt_set_file (hne : names ≠ []) (bytes : Bytes) :
    (t.set names (.file bytes)).bytesAt names = bytes := by
  rw [bytesAt, entryAt_set_self hne]

/-! Places. -/

def walk (t : FileTree) (place : Place) (names : List String) : Except Fault Place :=
  names.foldlM t.follow place

variable {place : Place} {path : String} {dir : List String} {bytes : Bytes}

@[simp] theorem walk_nil : t.walk place [] = .ok place := rfl

theorem walk_cons {name : String} {names : List String} :
    t.walk place (name :: names) = t.follow place name >>= (t.walk · names) := rfl

@[simp] theorem walk_singleton {name : String} : t.walk place [name] = t.follow place name := by
  cases hplace : t.follow place name <;> simp [walk, hplace, bind, Except.bind, pure, Except.pure]

theorem walk_append {front names : List String} :
    t.walk place (front ++ names) = t.walk place front >>= (t.walk · names) :=
  List.foldlM_append

theorem walk_replicate (t : FileTree) (dir : List String) (n : Nat) (names : List String) :
    t.walk (.directory dir) (List.replicate n "" ++ names) = t.walk (.directory dir) names := by
  induction n with
  | zero => rfl
  | succ n ih => exact ih

theorem directory_of_walk {steps dir' : List String} (h : t.walk place steps = .ok (.directory dir')) :
    ∃ dir, place = .directory dir := by
  cases place with
  | directory dir => exact ⟨dir, rfl⟩
  | file dir content =>
    cases steps with
    | nil => cases h
    | cons _ _ => cases h

theorem follow_eq_file {name : String} (h : t.follow place name = .ok (.file names bytes)) :
    ∃ dir, place = .directory dir ∧ names = dir ++ [name] ∧ name ≠ ".." ∧ name.utf8ByteSize ≤ 255 ∧
      t.entry? names = some (.file bytes) := by
  cases place with
  | file dir content => simp [follow] at h
  | directory dir =>
    simp only [follow] at h
    split_ifs at h with hdot hup hlong
    · cases h
    · cases h
    · split at h
      · cases h
      · next content hentry =>
        cases h
        exact ⟨dir, rfl, rfl, by simpa using hup, Nat.not_lt.1 hlong, hentry⟩
      · cases h

theorem follow_eq_directory {name : String} {dir' : List String} (hname : name ≠ "" ∧ name ≠ ".")
    (h : t.follow (.directory dir) name = .ok (.directory dir')) :
    dir' = Pathname.absoluteStep dir name := by
  simp only [follow] at h
  split_ifs at h with hdot hup hlong
  · simp [hname.1, hname.2] at hdot
  · cases h
    rw [Pathname.absoluteStep, if_pos hup]
  · split at h
    · cases h
      rw [Pathname.absoluteStep, if_neg hup]
    · cases h
    · cases h

theorem walk_eq_directory {steps dir' : List String} (hnames : ∀ n ∈ steps, n ≠ "" ∧ n ≠ ".")
    (h : t.walk (.directory dir) steps = .ok (.directory dir')) :
    dir' = steps.foldl Pathname.absoluteStep dir := by
  induction steps generalizing dir with
  | nil =>
    cases h
    rfl
  | cons name steps ih =>
    rw [List.forall_mem_cons] at hnames
    rw [walk_cons, bind_eq_ok] at h
    obtain ⟨place, hplace, h⟩ := h
    obtain ⟨next, rfl⟩ := directory_of_walk h
    rw [List.foldl_cons, ← follow_eq_directory hnames.1 hplace]
    exact ih hnames.2 h

theorem follow_eq_missing {name : String} (h : t.follow (.directory dir) name = .error .missing) :
    name ≠ ".." ∧ name.utf8ByteSize ≤ 255 ∧ t.entry? (dir ++ [name]) = none := by
  simp only [follow] at h
  split_ifs at h with hdot hup hlong
  · cases h
  · split at h
    · cases h
    · cases h
    · next hentry => exact ⟨by simpa using hup, Nat.not_lt.1 hlong, hentry⟩

theorem follow_file {name : String} (hne : name ≠ "") (hdot : name ≠ ".") (hup : name ≠ "..")
    (hsize : name.utf8ByteSize ≤ 255) (hentry : t.entry? (dir ++ [name]) = some (.file bytes)) :
    t.follow (.directory dir) name = .ok (.file (dir ++ [name]) bytes) := by
  simp [follow, hne, hdot, hup, Nat.not_lt.2 hsize, hentry]

theorem walk_set {steps dir' : List String} (hentry : t.entry? names ≠ some .directory)
    (h : t.walk (.directory dir) steps = .ok (.directory dir')) :
    (t.set names (.file bytes)).walk (.directory dir) steps = .ok (.directory dir') := by
  induction steps generalizing dir with
  | nil => exact h
  | cons name steps ih =>
    rw [walk_cons, bind_eq_ok] at h ⊢
    obtain ⟨place, hplace, h⟩ := h
    obtain ⟨next, rfl⟩ := directory_of_walk h
    refine ⟨.directory next, ?_, ih h⟩
    simp only [follow] at hplace ⊢
    split_ifs at hplace ⊢
    all_goals try exact hplace
    split at hplace
    · next hthere =>
      -- the file is written where no directory stands, so the way does not lead through it
      have hother : dir ++ [name] ≠ names := by
        rintro rfl
        exact hentry hthere
      rw [entryAt_set_of_ne hother, hthere]
      exact hplace
    · cases hplace
    · cases hplace

/-! Paths. -/

variable {p : Pathname}

theorem find_text_of_nil (hp : p.Plain) (hnames : p.names = []) :
    t.find p.text = .ok (.directory (p.base t.here)) := by
  obtain ⟨root, names⟩ := p
  subst hnames
  rcases hp.root with rfl | rfl | rfl <;> rfl

theorem find_text_of_names (hp : p.Plain) (hne : p.names ≠ []) :
    t.find p.text = if 4095 < p.text.utf8ByteSize then .error .nameTooLong
      else t.walk (.directory (p.base t.here)) p.names := by
  have htext : p.text.isEmpty = false := by
    obtain ⟨c, rest, hjoined, -⟩ := hp.toList_joined hne
    rw [Bool.eq_false_iff, ne_eq, String.isEmpty_iff]
    intro hempty
    simpa [hempty, hjoined] using hp.toList_text hne
  have hstart : t.start p.text = p.base t.here := by
    rw [start, hp.startsWith_text, Pathname.base]
    cases p.root.isEmpty <;> rfl
  rw [find, if_neg (by simp [htext]), hp.split_text hne, hstart, ← walk_replicate t _ p.root.length]
  rfl

/-- The path leads through directories to these names, and no directory stands there. -/
structure Reaches (t : FileTree) (p : Pathname) (names : List String) : Prop where
  size : p.text.utf8ByteSize ≤ 4095
  steps : ∃ front name dir, p.names = front ++ [name] ∧ names = dir ++ [name] ∧
    t.walk (.directory (p.base t.here)) front = .ok (.directory dir) ∧ name ≠ ".." ∧
    name.utf8ByteSize ≤ 255
  entry : t.entry? names ≠ some .directory

theorem Reaches.ne_nil (h : t.Reaches p names) : names ≠ [] := by
  obtain ⟨front, name, dir, -, rfl, -⟩ := h.steps
  simp

theorem Reaches.find_eq (hp : p.Plain) (h : t.Reaches p names)
    (hentry : t.entry? names = some (.file bytes)) : t.find p.text = .ok (.file names bytes) := by
  obtain ⟨hsize, ⟨front, name, dir, hnames, rfl, hfront, hup, hname⟩, -⟩ := h
  have hplain := hp.names name (by simp [hnames])
  rw [find_text_of_names hp (by simp [hnames]), if_neg (Nat.not_lt.2 hsize), hnames, walk_append,
    bind_eq_ok]
  refine ⟨_, hfront, ?_⟩
  rw [walk_singleton]
  exact follow_file hplain.1 hplain.2.1 hup hname hentry

theorem Reaches.set (h : t.Reaches p names) (bytes : Bytes) :
    (t.set names (.file bytes)).Reaches p names := by
  have hself := entryAt_set_self (t := t) (e := .file bytes) h.ne_nil
  obtain ⟨hsize, ⟨front, name, dir, hnames, heq, hfront, hup, hname⟩, hentry⟩ := h
  exact ⟨hsize, ⟨front, name, dir, hnames, heq, walk_set hentry hfront, hup, hname⟩, by simp [hself]⟩

/-- What a path reaches does not depend on what is there. -/
theorem Reaches.names_eq (hp : p.Plain) (h : t.Reaches p names) : names = p.absolute t.here := by
  obtain ⟨front, name, dir, hnames, rfl, hfront, hup, -⟩ := h.steps
  have hdots : ∀ n ∈ front, n ≠ "" ∧ n ≠ "." := by
    intro n hn
    have hplain := hp.names n (by simp [hnames, hn])
    exact ⟨hplain.1, hplain.2.1⟩
  rw [Pathname.absolute_eq, hnames, List.foldl_append, ← walk_eq_directory hdots hfront]
  simp [Pathname.absoluteStep, hup]

theorem walk_of_find_directory (hp : p.Plain) (h : t.find p.text = .ok (.directory dir)) :
    t.walk (.directory (p.base t.here)) p.names = .ok (.directory dir) := by
  by_cases hne : p.names = []
  · rw [find_text_of_nil hp hne] at h
    rw [hne]
    exact h
  · rw [find_text_of_names hp hne] at h
    split_ifs at h with hlong
    exact h

theorem Reaches.of_find_file (hp : p.Plain) (h : t.find p.text = .ok (.file names bytes)) :
    t.Reaches p names := by
  have hne : p.names ≠ [] := by
    intro hnil
    rw [find_text_of_nil hp hnil] at h
    cases h
  rw [find_text_of_names hp hne] at h
  split_ifs at h with hlong
  have hlast := List.dropLast_concat_getLast hne
  rw [← hlast, walk_append, bind_eq_ok] at h
  obtain ⟨place, hfront, h⟩ := h
  rw [walk_singleton] at h
  obtain ⟨dir, rfl, hnames, hup, hname, hentry⟩ := follow_eq_file h
  exact ⟨Nat.not_lt.1 hlong, ⟨_, _, dir, hlast.symm, hnames, hfront, hup, hname⟩, by simp [hentry]⟩

theorem Reaches.of_missing (hp : p.Plain) (h : t.find p.text = .error .missing)
    (htarget : t.target p.text = .ok names) : t.Reaches p names ∧ t.entry? names = none := by
  have hne : p.names ≠ [] := by
    intro hnil
    rw [find_text_of_nil hp hnil] at h
    cases h
  unfold target at htarget
  rw [h] at htarget
  dsimp only at htarget
  rw [hp.ofText_text hne] at htarget
  split at htarget
  · next dir name hdir hname =>
    cases htarget
    have hfront := walk_of_find_directory hp.parent hdir
    obtain ⟨front, hlast⟩ := List.getLast?_eq_some_iff.1 hname
    rw [Pathname.parent, hlast, List.dropLast_concat] at hfront
    change t.walk (.directory (p.base t.here)) front = .ok (.directory dir) at hfront
    rw [find_text_of_names hp hne, hlast, walk_append, hfront] at h
    split_ifs at h with hlong
    · cases h
    obtain ⟨hup, hsize, hentry⟩ := follow_eq_missing (by rwa [← walk_singleton])
    exact ⟨⟨Nat.not_lt.1 hlong, ⟨_, _, dir, hlast, rfl, hfront, hup, hsize⟩, by simp [hentry]⟩, hentry⟩
  · cases htarget

theorem reaches_of_target (hp : p.Plain) (h : t.target p.text = .ok names) : t.Reaches p names := by
  cases hfind : t.find p.text with
  | error f =>
    have hmissing : f = .missing := by
      unfold target at h
      rw [hfind] at h
      cases f <;> simp_all
    subst hmissing
    exact (Reaches.of_missing hp hfind h).1
  | ok place =>
    cases place with
    | file dir bytes =>
      have hnames : dir = names := by
        unfold target at h
        rw [hfind] at h
        exact Except.ok.inj h
      subst hnames
      exact Reaches.of_find_file hp hfind
    | directory _ =>
      unfold target at h
      rw [hfind] at h
      cases h

/-! Lookups that fail. -/

structure IsShort (path : String) : Prop where
  path_le : path.utf8ByteSize ≤ 4095
  name_le : ∀ name ∈ splitOn '/' path.toList, (String.ofList name).utf8ByteSize ≤ 255

/-- The path cannot be looked up, as it or a name in it is too long. With the character zero in it there
is no need to. -/
structure IsTooLong (t : FileTree) (path : String) : Prop where
  find_eq : t.find path = .error .nameTooLong
  no_zero : '\x00' ∉ path.toList

variable {f : Fault}

theorem follow_eq_error {name : String} (h : t.follow place name = .error f) :
    f = .missing ∨ f = .notDirectory ∨ f = .nameTooLong ∧ 255 < name.utf8ByteSize := by
  cases place with
  | file dir content =>
    cases h
    exact .inr (.inl rfl)
  | directory dir =>
    simp only [follow] at h
    split_ifs at h with _ _ hlong
    · cases h
      exact .inr (.inr ⟨rfl, hlong⟩)
    · split at h
      · cases h
      · cases h
      · cases h
        exact .inl rfl

theorem exists_follow_of_walk {steps : List String} (h : t.walk place steps = .error f) :
    ∃ p, ∃ name ∈ steps, t.follow p name = .error f := by
  induction steps generalizing place with
  | nil => cases h
  | cons name steps ih =>
    rw [walk_cons, bind_eq_error] at h
    rcases h with hname | ⟨next, -, h⟩
    · exact ⟨place, name, List.mem_cons_self, hname⟩
    · obtain ⟨p, step, hstep, hfollow⟩ := ih h
      exact ⟨p, step, List.mem_cons_of_mem _ hstep, hfollow⟩

theorem find_eq_error (h : t.find path = .error f) :
    f = .missing ∨ f = .notDirectory ∨ f = .nameTooLong ∧ ¬ IsShort path := by
  unfold find at h
  split_ifs at h with hempty hlong
  · cases h
    exact .inl rfl
  · cases h
    exact .inr (.inr ⟨rfl, fun hshort => Nat.not_lt.2 hshort.path_le hlong⟩)
  all_goals
    obtain ⟨_, name, hname, hfollow⟩ := exists_follow_of_walk h
    obtain ⟨chars, hchars, rfl⟩ := List.mem_map.1 hname
    exact (follow_eq_error hfollow).imp_right (.imp_right fun hf =>
      ⟨hf.1, fun hshort => Nat.not_lt.2 (hshort.name_le chars hchars) hf.2⟩)

theorem IsTooLong.not_isShort (h : t.IsTooLong path) : ¬ IsShort path := by
  rcases find_eq_error h.find_eq with hf | hf | ⟨-, hf⟩
  · cases hf
  · cases hf
  · exact hf

theorem IsTooLong.of_name {name : String} (hsize : 255 < name.utf8ByteSize) (hslash : '/' ∉ name.toList)
    (hzero : '\x00' ∉ name.toList) : t.IsTooLong name := by
  have hne (short : String) (hshort : short.utf8ByteSize ≤ 255) : name ≠ short := by
    rintro rfl
    exact Nat.not_lt.2 hshort hsize
  have hempty := hne "" (by decide)
  have hdot := hne "." (by decide)
  have hfollow (dir : List String) : t.follow (.directory dir) name = .error .nameTooLong := by
    simp [follow, hsize, hempty, hdot, hne ".." (by decide)]
  refine ⟨?_, hzero⟩
  rw [← Pathname.text_single hempty,
    find_text_of_names (Pathname.plain_single hempty hdot hslash) (by simp), walk_singleton, hfollow,
    ite_self]

theorem has_iff : t.has path = true ↔ ∃ place, t.find path = .ok place := by
  unfold has
  cases t.find path <;> simp [Except.toOption]

theorem has_eq_false_iff : t.has path = false ↔ ∃ f, t.find path = .error f := by
  unfold has
  cases t.find path <;> simp [Except.toOption]

theorem IsTooLong.has_eq_false (h : t.IsTooLong path) : t.has path = false :=
  has_eq_false_iff.2 ⟨_, h.find_eq⟩

theorem isThere_eq (t : FileTree) (path : String) :
    t.has path = true ∧ t.isThere path = .ok true ∨
    t.has path = false ∧ t.IsTooLong path ∧ t.isThere path = .error .nameTooLong ∨
    t.has path = false ∧ ¬ t.IsTooLong path ∧ t.isThere path = .ok false := by
  unfold isThere
  cases h : t.find path with
  | ok place => exact .inl ⟨has_iff.2 ⟨place, h⟩, rfl⟩
  | error f =>
    have hhas : t.has path = false := has_eq_false_iff.2 ⟨f, h⟩
    have hother (hf : f ≠ .nameTooLong) : ¬ t.IsTooLong path := fun hlong =>
      hf (Except.error.inj (h.symm.trans hlong.find_eq))
    rcases find_eq_error h with rfl | rfl | ⟨rfl, -⟩
    · exact .inr (.inr ⟨hhas, hother (by decide), rfl⟩)
    · exact .inr (.inr ⟨hhas, hother (by decide), rfl⟩)
    · by_cases hzero : '\x00' ∈ path.toList
      · exact .inr (.inr ⟨hhas, fun hlong => hlong.no_zero hzero, by simp [hzero]⟩)
      · exact .inr (.inl ⟨hhas, ⟨h, hzero⟩, by simp [hzero]⟩)

theorem isDirectory_iff : t.isDirectory path = true ↔ t.read path = .error .isDirectory := by
  unfold isDirectory read
  cases h : t.find path with
  | ok place => cases place <;> simp
  | error f => rcases find_eq_error h with rfl | rfl | ⟨rfl, -⟩ <;> simp

theorem has_of_read {content : Bytes} (h : t.read path = .ok content) : t.has path = true := by
  unfold read at h
  cases hfind : t.find path with
  | ok place => exact has_iff.2 ⟨place, hfind⟩
  | error f => simp [hfind] at h

theorem has_of_isDirectory (h : t.isDirectory path = true) : t.has path = true := by
  unfold isDirectory at h
  cases hfind : t.find path with
  | ok place => exact has_iff.2 ⟨place, hfind⟩
  | error f => simp [hfind] at h

theorem read_of_has (h : t.has path = true) :
    t.isDirectory path = true ∨ ∃ content, t.read path = .ok content := by
  obtain ⟨place, hfind⟩ := has_iff.1 h
  unfold isDirectory read
  rw [hfind]
  cases place <;> simp

/-! Changes. -/

theorem find_append (hp : p.Plain) (h : t.append p.text bytes = .ok t') :
    ∃ names, t.Reaches p names ∧ t' = t.set names (.file (t.bytesAt names ++ bytes)) ∧
      t'.find p.text = .ok (.file names (t.bytesAt names ++ bytes)) := by
  unfold append at h
  rw [bind_eq_ok] at h
  obtain ⟨names, htarget, h⟩ := h
  have hreaches := reaches_of_target hp htarget
  have hset : t' = t.set names (.file (t.bytesAt names ++ bytes)) := (Except.ok.inj h).symm
  refine ⟨names, hreaches, hset, ?_⟩
  rw [hset]
  exact (hreaches.set _).find_eq hp (entryAt_set_self hreaches.ne_nil)

theorem ne_nil_of_walk_file {steps : List String} (hplace : ∀ dir content, place ≠ .file dir content)
    (h : t.walk place steps = .ok (.file names bytes)) : names ≠ [] := by
  rcases List.eq_nil_or_concat steps with rfl | ⟨front, name, rfl⟩
  · exact absurd (Except.ok.inj h) (hplace names bytes)
  · rw [List.concat_eq_append, walk_append, bind_eq_ok] at h
    obtain ⟨_, -, h⟩ := h
    obtain ⟨dir, -, rfl, -⟩ := follow_eq_file (by rwa [walk_singleton] at h)
    simp

theorem target_ne_nil (h : t.target path = .ok names) : names ≠ [] := by
  unfold target at h
  split at h
  · next hfind =>
    cases h
    unfold find at hfind
    split_ifs at hfind
    exact ne_nil_of_walk_file (by simp) hfind
  · cases h
  · dsimp only at h
    split at h
    · cases h
      simp
    · cases h
  · cases h

theorem Alike.of_append_nil (h : t.append path [] = .ok t') (names : List String) : Alike names t t' := by
  unfold append at h
  rw [bind_eq_ok] at h
  obtain ⟨target, htarget, h⟩ := h
  have hset : t' = t.set target (.file (t.bytesAt target ++ [])) := (Except.ok.inj h).symm
  rw [hset, List.append_nil]
  by_cases heq : names = target
  · exact ⟨rfl, by rw [heq, bytesAt_set_file (target_ne_nil htarget)]⟩
  · exact .set_of_ne heq

theorem Alike.of_makeDirectory (hp : p.Plain) (h : t.makeDirectory p.text = .ok t')
    (names : List String) : Alike names t t' := by
  unfold makeDirectory at h
  split at h
  · cases h
  · next hmissing =>
    rw [bind_eq_ok] at h
    obtain ⟨target, htarget, h⟩ := h
    cases Except.ok.inj h
    obtain ⟨hreaches, hnone⟩ := Reaches.of_missing hp hmissing htarget
    by_cases heq : names = target
    · subst heq
      exact ⟨rfl, by rw [bytesAt, bytesAt, entryAt_set_self hreaches.ne_nil, hnone]⟩
    · exact .set_of_ne heq
  · cases h

theorem Alike.of_makeWithAbove {root : String} {above : List String}
    (hp : Pathname.Plain ⟨root, above.reverse⟩) (t : FileTree) (names : List String) :
    Alike names t (makeWithAbove root above t).1 := by
  induction above with
  | nil =>
    unfold makeWithAbove
    dsimp only
    split
    · next hmake => exact .of_makeDirectory hp hmake names
    · exact .refl names t
    · split <;> exact .refl names t
  | cons name above ih =>
    have habove : Pathname.Plain ⟨root, above.reverse⟩ :=
      hp.of_names fun n hn => by simpa using .inl (List.mem_reverse.1 hn)
    have hbelow := ih habove
    unfold makeWithAbove
    dsimp only
    split
    · next hmake => exact .of_makeDirectory hp hmake names
    · split
      · next hmade => rwa [hmade] at hbelow
      · next hmade =>
        rw [hmade] at hbelow
        split
        · next hmake => exact hbelow.trans (.of_makeDirectory hp hmake names)
        · split <;> exact hbelow
    · split <;> exact .refl names t

theorem Alike.of_makeDirectories (hp : p.Plain) (t : FileTree) (names : List String) :
    Alike names t (t.makeDirectories p).1 :=
  .of_makeWithAbove (by simpa using hp) t names

end FeedOutline.Disk.FileTree
