import FeedOutline.Text.Split

/-!
How alike two texts are. The longest run of characters that both have is counted, and then, in the same
way, what they have in common before it and after it.
-/
namespace FeedOutline.Text

def commonStart : List Char → List Char → Nat
  | a :: as, b :: bs => if a == b then commonStart as bs + 1 else 0
  | _, _ => 0

structure CommonRun where
  first : Nat := 0
  second : Nat := 0
  length : Nat := 0
  deriving Repr, BEq, DecidableEq, Inhabited

/-- Of two runs the longer one; of equally long ones that which ends earlier in the first text, and then
that which ends earlier in the second. -/
def CommonRun.better (x y : CommonRun) : CommonRun :=
  if x.length < y.length then y
  else if x.length = y.length && (y.first < x.first || (y.first = x.first && y.second < x.second)) then y
  else x

def runsAt (i : Nat) (a : List Char) (j : Nat) : List Char → List CommonRun
  | [] => []
  | b :: bs => ⟨i, j, commonStart a (b :: bs)⟩ :: runsAt i a (j + 1) bs

def allRuns (i : Nat) : List Char → List Char → List CommonRun
  | [], _ => []
  | a :: as, b => runsAt i (a :: as) 0 b ++ allRuns (i + 1) as b

def longestRun (a b : List Char) : CommonRun :=
  (allRuns 0 a b).foldl CommonRun.better {}

/-- The number of characters in common; each run takes one character at least, so that their number is
bounded by the length of the first text. -/
def commonCountWith : Nat → List Char → List Char → Nat
  | 0, _, _ => 0
  | fuel + 1, a, b =>
    let run := longestRun a b
    if run.length = 0 then 0
    else run.length + commonCountWith fuel (a.take run.first) (b.take run.second) +
      commonCountWith fuel (a.drop (run.first + run.length)) (b.drop (run.second + run.length))

def commonCount (a b : List Char) : Nat :=
  commonCountWith a.length a b

structure Likeness where
  text : String
  common : Nat
  total : Nat
  deriving Repr, BEq, DecidableEq, Inhabited

def likeness (word s : String) : Likeness :=
  ⟨s, 2 * commonCount s.toList word.toList, s.length + word.length⟩

def Likeness.isClose (l : Likeness) : Bool :=
  3 * l.total ≤ 5 * l.common

/-- The more alike text comes first, and of equally alike ones the later by code points. -/
def Likeness.before (x y : Likeness) : Bool :=
  let a := x.common * y.total
  let b := y.common * x.total
  b < a || (a == b && decide (y.text ≤ x.text))

def closeWords (word : String) (words : List String) : List String :=
  let close := (words.map (likeness word)).filter Likeness.isClose
  ((close.mergeSort Likeness.before).take 3).map (·.text)

end FeedOutline.Text
