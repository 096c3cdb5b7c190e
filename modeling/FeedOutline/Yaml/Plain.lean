import FeedOutline.Yaml.Quoted

/-!
Texts without quotes. They end where a comment or a sign of structure begins.
-/
namespace FeedOutline.Yaml

def isFlowSign (c : Char) : Bool :=
  c == ',' || c == '[' || c == ']' || c == '\x7b' || c == '\x7d'

def plainLength (inFlow : Bool) : List Char → Nat
  | [] => 0
  | c :: rest =>
    let next := rest.headD endMark
    if isBlankOrEnd c || (c == ':' && (isBlankOrEnd next || (inFlow && isFlowSign next))) ||
        (inFlow && (isFlowSign c || c == '?')) then 0
    else plainLength inFlow rest + 1

/-- Line ends and the spaces at the starts of lines; none if a document begins among them. -/
def plainBreaks : Nat → Cursor → Option (List Char) × Cursor
  | 0, c => (some [], c)
  | fuel + 1, c =>
    if c.peek == ' ' then plainBreaks fuel c.next
    else match c.lineBreak? with
      | none => (some [], c)
      | some (b, c) =>
        if c.isAtSeparator then (none, c)
        else
          let (bs, c) := plainBreaks fuel c
          (bs.map (b :: ·), c)

def plainSpaces (c : Cursor) : List Char × Bool × Cursor :=
  let spaces := c.takeWhile (· == ' ')
  let c := c.skipSpaces
  match c.lineBreak? with
  | none => (spaces, false, c)
  | some (lineEnd, c) =>
    if c.isAtSeparator then ([], true, c)
    else match plainBreaks c.rest.length.succ c with
      | (none, c) => ([], true, c)
      | (some breaks, c) => (folded lineEnd breaks, true, c)

def plainWords (inFlow : Bool) (indent : Int) :
    Nat → List Char → Bool → Cursor → List Char × Bool × Cursor
  | 0, _, ended, c => ([], ended, c)
  | fuel + 1, spaces, ended, c =>
    let length := if c.peek == '#' then 0 else plainLength inFlow c.rest
    if length = 0 then ([], ended, c)
    else
      let word := spaces ++ c.rest.take length
      let (spaces, ended, c) := plainSpaces (c.skip length)
      if spaces.isEmpty || c.peek == '#' || (!inFlow && (c.column : Int) < indent) then
        (word, ended, c)
      else
        let (more, ended, c) := plainWords inFlow indent fuel spaces ended c
        (word ++ more, ended, c)

def scanPlain (inFlow : Bool) (outer : Int) (c : Cursor) : Token × Bool × Cursor :=
  let (text, ended, c) := plainWords inFlow (outer + 1) c.rest.length.succ [] false c
  (.scalar (String.ofList text) true, ended, c)

end FeedOutline.Yaml
