import FeedOutline.Outline.Drawer
import FeedOutline.Outline.Heading
import FeedOutline.Outline.Node
import FeedOutline.Text.Lines

/-!
Reading a document line by line into the forest of its headings. A heading becomes a child of the
nearest heading above it with fewer stars.
-/
namespace FeedOutline.Outline

open Text

structure Frame where
  heading : Heading
  id : Option String := none
  children : List Node := []
  deriving Repr, Inhabited

def Frame.finish (f : Frame) (below : List Node) : Node :=
  ⟨f.heading.text, f.heading.level, f.heading.tags, f.id, (below ++ f.children).reverse⟩

/-- The state between two lines: finished top trees, newest first, and the open headings, innermost
first. -/
structure Reader where
  roots : List Node := []
  frames : List Frame := []
  drawer : Drawer := .over
  deriving Repr, Inhabited

/-- Finishes the open headings with at least `level` stars. The nodes that end up below none of the
others are given apart. -/
def closeFrames (level : Nat) : List Node → List Frame → List Node × List Frame
  | below, [] => (below, [])
  | below, f :: fs =>
    if f.heading.level < level then ([], { f with children := below ++ f.children } :: fs)
    else closeFrames level [f.finish below] fs

namespace Reader

def enter (h : Heading) (r : Reader) : Reader :=
  let (finished, frames) := closeFrames h.level [] r.frames
  ⟨finished ++ r.roots, ⟨h, none, []⟩ :: frames, .awaited⟩

def setId (id : Option String) (r : Reader) : Reader :=
  match r.frames with
  | [] => r
  | f :: fs => { r with frames := { f with id } :: fs }

def body (line : List Char) (r : Reader) : Reader :=
  let (drawer, id?) := r.drawer.step (trim line)
  let r := { r with drawer }
  match id? with
  | some id => r.setId id
  | none => r

def step (r : Reader) (line : List Char) : Reader :=
  match Heading.ofLine? line with
  | some h => r.enter h
  | none => r.body line

def forest (r : Reader) : List Node :=
  ((closeFrames 0 [] r.frames).1 ++ r.roots).reverse

end Reader

def parse (text : String) : List Node :=
  ((lines text.toList).foldl Reader.step {}).forest

end FeedOutline.Outline
