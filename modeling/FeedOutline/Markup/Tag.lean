import FeedOutline.Markup.Reference

/-!
Tags as they are written: a name and attributes whose references are not yet resolved.
-/
namespace FeedOutline.Markup

structure RawAttribute where
  name : List Char
  value : List Char
  start : Nat := 0
  valueStart : Nat := 0
  deriving Repr, BEq, DecidableEq, Inhabited

structure Tag where
  name : List Char
  attributes : List RawAttribute := []
  /-- The tag is the whole element. -/
  isEmpty : Bool := false
  deriving Repr, BEq, DecidableEq, Inhabited

/-- What is read of a name, last character first; at most one colon may stand inside it. -/
structure NameScan where
  read : List Char
  hasColon : Bool := false
  deriving Repr, BEq, DecidableEq, Inhabited

def NameScan.step (n : NameScan) (c : Char) : Option NameScan :=
  if n.read.head? == some ':' then
    if isNameStart c then some { n with read := c :: n.read } else none
  else if isNameChar c then some { n with read := c :: n.read }
  else if c == ':' && !n.hasColon then some ⟨c :: n.read, true⟩
  else none

def NameScan.isWhole (n : NameScan) : Bool :=
  n.read.head? != some ':'

/-- How far a start tag has come: what is behind, attributes newest first, and where it stands. -/
inductive TagScan where
  | name (n : NameScan)
  /-- White space is behind. -/
  | gap (tag : Tag)
  /-- In the name of an attribute. -/
  | nameOf (tag : Tag) (start : Nat) (n : NameScan)
  | equals (tag : Tag) (a : RawAttribute)
  | mark (tag : Tag) (a : RawAttribute)
  /-- In a value, in a reference there or not. -/
  | value (tag : Tag) (a : RawAttribute) (mark : Char) (reference : Option RefScan)
  /-- After the closing mark of a value. -/
  | behindValue (tag : Tag)
  | slash (tag : Tag)
  deriving Repr, BEq, DecidableEq, Inhabited

namespace TagScan

def finish (tag : Tag) (isEmpty : Bool) : Tag :=
  { tag with attributes := tag.attributes.reverse, isEmpty }

def between (tag : Tag) (c : Char) : Outcome TagScan Tag :=
  if isSpace c then .more (gap tag)
  else if c == '>' then .done (finish tag false)
  else if c == '/' then .more (slash tag)
  else .invalid

def step (offset : Nat) : TagScan → Char → Outcome TagScan Tag
  | name n, c =>
    match n.step c with
    | some n => .more (name n)
    | none => if n.isWhole then between { name := n.read.reverse } c else .invalid
  | gap tag, c =>
    if isNameStart c then .more (nameOf tag offset ⟨[c], false⟩) else between tag c
  | nameOf tag start n, c =>
    match n.step c with
    | some n => .more (nameOf tag start n)
    | none =>
      let a : RawAttribute := ⟨n.read.reverse, [], start, 0⟩
      if !n.isWhole then .invalid
      else if c == '=' then .more (mark tag a)
      else if isSpace c then .more (equals tag a)
      else .invalid
  | equals tag a, c =>
    if c == '=' then .more (mark tag a) else if isSpace c then .more (equals tag a) else .invalid
  | mark tag a, c =>
    if c == '"' || c == '\'' then .more (value tag { a with valueStart := offset + 1 } c none)
    else if isSpace c then .more (mark tag a)
    else .invalid
  | value tag a q none, c =>
    if c == q then
      .more (behindValue
        { tag with attributes := { a with value := a.value.reverse } :: tag.attributes })
    else if c == '<' || !isLegal c then .invalid
    else .more (value tag { a with value := c :: a.value } q
      (if c == '&' then some .start else none))
  | value tag a q (some r), c =>
    match r.step c with
    | .more r => .more (value tag { a with value := c :: a.value } q (some r))
    | .done _ => .more (value tag { a with value := c :: a.value } q none)
    | .invalid => .invalid
  | behindValue tag, c => between tag c
  | slash tag, c => if c == '>' then .done (finish tag true) else .invalid

end TagScan

inductive EndScan where
  | start
  | name (read : List Char)
  | gap (name : List Char)
  deriving Repr, BEq, DecidableEq, Inhabited

def EndScan.step : EndScan → Char → Outcome EndScan (List Char)
  | start, c => if isNameStart c then .more (name [c]) else .invalid
  | name read, c =>
    if isNameChar c || c == ':' then .more (name (c :: read))
    else if c == '>' then .done read.reverse
    else if isSpace c then .more (gap read.reverse)
    else .invalid
  | gap n, c => if c == '>' then .done n else if isSpace c then .more (gap n) else .invalid

end FeedOutline.Markup
