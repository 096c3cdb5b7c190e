import FeedOutline.Proofs.Outline.HeadingLine
import FeedOutline.Proofs.Outline.Reading
import Mathlib.Data.PNat.Basic
import Mathlib.Order.Monotone.Basic

/-!
Other stars for the headings of a document. As long as deeper headings stay deeper, the reader closes the
same headings at every line, and the forest is the same one with other levels.
-/
namespace FeedOutline.Outline

open Text

/-! Other levels. -/

mutual

def Node.relevel (g : Nat → Nat) : Node → Node
  | ⟨text, level, tags, id, children⟩ => ⟨text, g level.toNat, tags, id, relevelAll g children⟩

def relevelAll (g : Nat → Nat) : List Node → List Node
  | [] => []
  | n :: ns => n.relevel g :: relevelAll g ns

end

def Heading.relevel (g : Nat → Nat) (h : Heading) : Heading :=
  { h with level := g h.level }

def Frame.relevel (g : Nat → Nat) (f : Frame) : Frame :=
  ⟨f.heading.relevel g, f.id, relevelAll g f.children⟩

def Reader.relevel (g : Nat → Nat) (r : Reader) : Reader :=
  ⟨relevelAll g r.roots, r.frames.map (·.relevel g), r.drawer⟩

variable {g : Nat → Nat}

theorem relevelAll_eq_map (ns : List Node) : relevelAll g ns = ns.map (·.relevel g) := by
  induction ns with
  | nil => rw [relevelAll, List.map_nil]
  | cons n ns ih => rw [relevelAll, ih, List.map_cons]

@[simp] theorem relevelAll_append (ns ms : List Node) :
    relevelAll g (ns ++ ms) = relevelAll g ns ++ relevelAll g ms := by
  simp [relevelAll_eq_map]

@[simp] theorem relevelAll_reverse (ns : List Node) :
    relevelAll g ns.reverse = (relevelAll g ns).reverse := by
  simp [relevelAll_eq_map]

theorem Node.relevel_eq (n : Node) :
    n.relevel g = { n with level := g n.level.toNat, children := relevelAll g n.children } := by
  cases n
  rw [Node.relevel]

theorem walkAll_relevelAll (ns : List Node) :
    walkAll (relevelAll g ns) = (walkAll ns).map (·.relevel g) := by
  induction ns using forest_induction with
  | nil => simp [relevelAll]
  | cons n ns ihc ihs =>
    have hchildren : (n.relevel g).children = relevelAll g n.children := by rw [Node.relevel_eq]
    rw [relevelAll, walkAll_cons, hchildren, ihc, ihs, walkAll_cons, List.map_cons, List.map_append]

theorem marked_relevelAll (marker : String) (ns : List Node) :
    marked marker (relevelAll g ns) = (marked marker ns).map (·.relevel g) := by
  have hmarked : (·.isMarked marker) ∘ Node.relevel g = (·.isMarked marker) := by
    funext n
    rw [Function.comp, Node.relevel_eq]
    rfl
  rw [marked, walkAll_relevelAll, List.filter_map, hmarked, marked]

/-! Reading. -/

theorem Frame.relevel_finish (f : Frame) (below : List Node) :
    (f.relevel g).finish (relevelAll g below) = (f.finish below).relevel g := by
  rw [Node.relevel_eq]
  simp [Frame.finish, Frame.relevel, Heading.relevel]

theorem closeFrames_relevel (hg : StrictMono g) (level : Nat) (below : List Node) (fs : List Frame) :
    closeFrames (g level) (relevelAll g below) (fs.map (·.relevel g)) =
      (relevelAll g (closeFrames level below fs).1,
        (closeFrames level below fs).2.map (·.relevel g)) := by
  fun_induction closeFrames level below fs with
  | case1 below => rfl
  | case2 below f fs hlt =>
    have hlevel : (f.relevel g).heading.level < g level := hg hlt
    rw [List.map_cons, closeFrames, if_pos hlevel, Frame.relevel, ← relevelAll_append]
    rfl
  | case3 below f fs hlt ih =>
    -- levels that are not smaller do not become so, and the heading is closed here too
    have hlevel : ¬ (f.relevel g).heading.level < g level :=
      Nat.not_lt.2 (hg.monotone (Nat.not_lt.1 hlt))
    have hfinish : relevelAll g [f.finish below] = [(f.relevel g).finish (relevelAll g below)] := by
      rw [relevelAll, relevelAll, Frame.relevel_finish]
    rw [List.map_cons, closeFrames, if_neg hlevel, ← hfinish]
    exact ih

namespace Reader

theorem enter_relevel (hg : StrictMono g) (h : Heading) (r : Reader) :
    (r.relevel g).enter (h.relevel g) = (r.enter h).relevel g := by
  have hclose := closeFrames_relevel hg h.level [] r.frames
  rw [relevelAll] at hclose
  have hlevel : (h.relevel g).level = g h.level := rfl
  have hframe : (⟨h, none, []⟩ : Frame).relevel g = ⟨h.relevel g, none, []⟩ := by
    rw [Frame.relevel, relevelAll]
  simp only [enter, relevel, hlevel, hclose, hframe, relevelAll_append, List.map_cons]

theorem setId_relevel (id : Option String) (r : Reader) :
    (r.relevel g).setId id = (r.setId id).relevel g := by
  obtain ⟨roots, frames, drawer⟩ := r
  cases frames <;> rfl

theorem body_relevel (line : List Char) (r : Reader) :
    (r.relevel g).body line = (r.body line).relevel g := by
  have hdrawer : (r.relevel g).drawer = r.drawer := rfl
  unfold body
  dsimp only
  rw [hdrawer]
  split
  · exact setId_relevel _ { r with drawer := (r.drawer.step (trim line)).1 }
  · rfl

theorem forest_relevel (hg : StrictMono g) (hzero : g 0 = 0) (r : Reader) :
    (r.relevel g).forest = relevelAll g r.forest := by
  -- the end of a document closes all headings, as one without stars would
  have hclose := closeFrames_relevel hg 0 [] r.frames
  rw [hzero, relevelAll] at hclose
  simp [forest, relevel, hclose]

end Reader

/-! Lines. -/

/-- The line with `f n` stars in place of `n`, if it is a heading. -/
def restar (f : ℕ+ → ℕ+) (line : List Char) : List Char :=
  if IsHeading line then
    List.replicate (f (line.takeWhile (· == '*')).length.toPNat') '*' ++ line.dropWhile (· == '*')
  else line

/-- The levels that headings get. There are none without stars, so nothing stands above a top heading. -/
def newLevel (f : ℕ+ → ℕ+) : Nat → Nat
  | 0 => 0
  | n + 1 => f n.succPNat

variable {f : ℕ+ → ℕ+}

theorem strictMono_newLevel (hf : StrictMono f) : StrictMono (newLevel f) := by
  refine strictMono_nat_of_lt_succ fun n => ?_
  cases n with
  | zero => exact (f (Nat.succPNat 0)).pos
  | succ n => exact hf (Nat.succPNat_lt_succPNat.2 (Nat.lt_succ_self n))

theorem ofLine?_restar {line : List Char} :
    Heading.ofLine? (restar f line) = (Heading.ofLine? line).map (·.relevel (newLevel f)) := by
  unfold restar
  split
  · next hheading =>
    obtain ⟨stars, hstars, rest, rfl, hrest⟩ := hheading
    have hpos : 0 < (f stars.toPNat' : Nat) := (f stars.toPNat').pos
    have hlevel : newLevel f stars = f stars.toPNat' := by
      obtain ⟨n, rfl⟩ := Nat.exists_eq_succ_of_ne_zero hstars.ne'
      rfl
    rw [(takeWhile_stars stars hrest).1, (takeWhile_stars stars hrest).2, List.length_replicate,
      Heading.ofLine?_replicate hpos hrest, Heading.ofLine?_replicate hstars hrest, Option.map_some,
      Heading.relevel, hlevel]
  · next hheading =>
    have hnone : Heading.ofLine? line = none := not_isHeading_iff.1 hheading
    rw [hnone, Option.map_none]

theorem Reader.step_restar (hf : StrictMono f) (line : List Char) (r : Reader) :
    (r.relevel (newLevel f)).step (restar f line) = (r.step line).relevel (newLevel f) := by
  rw [Reader.step, Reader.step, ofLine?_restar]
  cases hline : Heading.ofLine? line with
  | some h => exact enter_relevel (strictMono_newLevel hf) h r
  | none =>
    have hsame : restar f line = line := if_neg (not_isHeading_iff.2 hline)
    rw [hsame]
    exact body_relevel line r

theorem Reader.foldl_restar (hf : StrictMono f) (ls : List (List Char)) (r : Reader) :
    (ls.map (restar f)).foldl Reader.step (r.relevel (newLevel f)) =
      (ls.foldl Reader.step r).relevel (newLevel f) := by
  induction ls generalizing r with
  | nil => rfl
  | cons line ls ih => rw [List.map_cons, List.foldl_cons, step_restar hf, ih, List.foldl_cons]

theorem parse_restar (hf : StrictMono f) {text text' : String}
    (h : lines text'.toList = (lines text.toList).map (restar f)) :
    parse text' = relevelAll (newLevel f) (parse text) := by
  have hrun := Reader.foldl_restar hf (lines text.toList) {}
  rw [parse, h, parse, ← Reader.forest_relevel (strictMono_newLevel hf) rfl, ← hrun]
  rfl

end FeedOutline.Outline
