import FeedOutline.Yaml.Token

/-!
Texts that stand below a `|` or a `>`, indented. Below a `>` lines are folded.
-/
namespace FeedOutline.Yaml

inductive Chomp where
  | strip
  | clip
  | keep
  deriving Repr, BEq, DecidableEq, Inhabited

def chomp? (c : Char) : Option Chomp :=
  if c == '+' then some .keep else if c == '-' then some .strip else none

def increment? (c : Cursor) : Except Fault (Option Nat × Cursor) :=
  if c.peek.isDigit then
    if c.peek == '0' then c.refuse else .ok (some (c.peek.toNat - '0'.toNat), c.next)
  else .ok (none, c)

def blockHeader (c : Cursor) : Except Fault ((Chomp × Option Nat) × Cursor) := do
  let ((chomp, increment), c) ←
    match chomp? c.peek with
    | some chomp => do
      let (increment, c) ← increment? c.next
      .ok ((chomp, increment), c)
    | none => do
      let (increment, c) ← increment? c
      if increment.isSome then
        match chomp? c.peek with
        | some chomp => .ok ((chomp, increment), c.next)
        | none => .ok ((.clip, increment), c)
      else .ok ((.clip, increment), c)
  if isSpaceOrEnd c.peek then .ok ((chomp, increment), c) else c.refuse

def ignoredLine (c : Cursor) : Except Fault Cursor :=
  let c := c.skipSpaces
  let c := if c.peek == '#' then c.skipLine else c
  if c.isAtEnd then .ok c
  else match c.lineBreak? with
    | some (_, c) => .ok c
    | none => c.refuse

/-- Empty lines before the text and the widest column that their spaces reach. -/
def leadingBreaks : Nat → Nat → Cursor → List Char × Nat × Cursor
  | 0, widest, c => ([], widest, c)
  | fuel + 1, widest, c =>
    if c.peek == ' ' then leadingBreaks fuel (max widest c.next.column) c.next
    else match c.lineBreak? with
      | some (b, c) =>
        let (bs, widest, c) := leadingBreaks fuel widest c
        (b :: bs, widest, c)
      | none => ([], widest, c)

def skipIndent (indent : Nat) : Nat → Cursor → Cursor
  | 0, c => c
  | fuel + 1, c =>
    if c.column < indent && c.peek == ' ' then skipIndent indent fuel c.next else c

def blockBreaks (indent : Nat) : Nat → Cursor → List Char × Cursor
  | 0, c => ([], c)
  | fuel + 1, c =>
    let c := skipIndent indent indent c
    match c.lineBreak? with
    | some (b, c) =>
      let (bs, c) := blockBreaks indent fuel c
      (b :: bs, c)
    | none => ([], c)

def blockLines (isFolded : Bool) (chomp : Chomp) (indent : Nat) :
    Nat → List Char → Cursor → List Char × Cursor
  | 0, _, c => ([], c)
  | fuel + 1, breaks, c =>
    let isFlush (c : Cursor) := !(c.peek == ' ' || c.peek == '\t')
    let line := c.takeWhile (!isBreak ·)
    let behind := c.skipLine
    let (lineEnd, behind) := match behind.lineBreak? with
      | some (b, c) => ([b], c)
      | none => ([], behind)
    let (next, behind) := blockBreaks indent behind.rest.length.succ behind
    if behind.column = indent && !behind.isAtEnd then
      let join :=
        if isFolded && lineEnd == ['\n'] && isFlush c && isFlush behind then
          (if next.isEmpty then [' '] else [])
        else lineEnd
      let (more, behind) := blockLines isFolded chomp indent fuel next behind
      (breaks ++ line ++ join ++ more, behind)
    else
      let tail := match chomp with
        | .strip => []
        | .clip => lineEnd
        | .keep => lineEnd ++ next
      (breaks ++ line ++ tail, behind)

/-- The text behind the mark here; `outer` is the indentation around it. -/
def scanBlock (outer : Int) (c : Cursor) : Except Fault (Token × Cursor) := do
  let isFolded := c.peek == '>'
  let ((chomp, increment), c) ← blockHeader c.next
  let c ← ignoredLine c
  let least := max 1 (outer + 1).toNat
  let fuel := c.rest.length + 1
  let (indent, breaks, c) :=
    match increment with
    | none =>
      let (breaks, widest, c) := leadingBreaks fuel 0 c
      (max least widest, breaks, c)
    | some n =>
      let indent := least + n - 1
      let (breaks, c) := blockBreaks indent fuel c
      (indent, breaks, c)
  let (text, c) :=
    if c.column = indent && !c.isAtEnd then blockLines isFolded chomp indent fuel breaks c
    else (if chomp = .keep then breaks else [], c)
  return (.scalar (String.ofList text) false, c)

end FeedOutline.Yaml
