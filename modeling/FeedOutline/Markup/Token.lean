import FeedOutline.Markup.Aside
import FeedOutline.Markup.Tag

/-!
Tokens of a document. A document is read one character at a time; each character moves the reader to
its next state and may complete tokens. Elements are read by one set of states, what stands before and
behind the root element by another.
-/
namespace FeedOutline.Markup

inductive Token where
  | tag (t : Tag)
  | close (name : List Char)
  | char (c : Char)
  | entity (name : List Char)
  | aside (a : Aside)
  /-- The root element begins, or something that looks like one. -/
  | root
  /-- A declaration such as `<!ENTITY`, by its word. -/
  | declaration (word : List Char)
  | word (name : List Char)
  /-- A word with one colon inside. -/
  | prefixedWord (name : List Char)
  /-- Name characters that make no word. -/
  | nameToken
  /-- A word behind which a sign of repetition stands. -/
  | repeatedWord
  /-- A word behind a number sign. -/
  | numberWord (name : List Char)
  | literal (text : List Char)
  | parameter (name : List Char)
  /-- A bracket, a percent sign, a sign between names or the end of a declaration. -/
  | mark (c : Char)
  /-- A round bracket behind which a sign of repetition stands. -/
  | repeatedEnd (c : Char)
  /-- The start or the end of a section that is read on a condition. -/
  | conditional
  | fault (r : Reason)
  /-- The end of the document. -/
  | finish
  deriving Repr, BEq, DecidableEq, Inhabited

structure Placed where
  token : Token
  offset : Nat
  deriving Repr, BEq, DecidableEq, Inhabited

inductive ContentScan where
  /-- In text; `brackets` closing brackets stand directly before, two counting for more. -/
  | text (brackets : Nat) (afterReturn : Bool)
  | less
  | bang
  | aside (a : AsideScan)
  | tag (t : TagScan)
  | endTag (e : EndScan)
  | reference (r : RefScan) (read : List Char)
  /-- In the opening of a verbatim section; what is still expected. -/
  | opening (expected : List Char)
  /-- The opening failed at `fault`; that shows when this many bytes more have come. -/
  | badOpening (fault : Nat) (bytes : Nat)
  /-- In a verbatim section, `brackets` closing brackets being held back. -/
  | verbatim (brackets : Nat) (afterReturn : Bool)
  deriving Repr, BEq, DecidableEq, Inhabited

inductive PrologScan where
  | base
  | less
  | bang
  | aside (a : AsideScan)
  | declaration (word : List Char)
  /-- After a percent sign at the end of a declaration's word. -/
  | declarationPercent (word : List Char)
  | word (read : List Char) (hasColon : Bool)
  /-- After the first colon of a word. -/
  | colon (read : List Char)
  /-- A run of name characters that is no name. -/
  | run
  | literal (mark : Char) (read : List Char)
  | behindLiteral (text : List Char)
  | percent
  | parameter (read : List Char)
  | number
  | numberName (read : List Char)
  | bracket
  | doubleBracket
  | paren
  deriving Repr, BEq, DecidableEq, Inhabited

inductive Scan where
  | prolog (s : PrologScan)
  | content (s : ContentScan)
  deriving Repr, BEq, DecidableEq, Inhabited

/-- The state between two characters: how many elements are open and where the token began. -/
structure Lexer where
  scan : Scan
  depth : Nat := 0
  start : Nat := 0
  deriving Repr, BEq, DecidableEq, Inhabited

structure Lexed where
  next : Lexer
  tokens : List Placed := []
  deriving Repr, BEq, DecidableEq, Inhabited

namespace Lexer

abbrev plain : ContentScan :=
  .text 0 false

def go (l : Lexer) (s : ContentScan) : Lexed :=
  ⟨{ l with scan := .content s }, []⟩

def goProlog (l : Lexer) (s : PrologScan) : Lexed :=
  ⟨{ l with scan := .prolog s }, []⟩

def begin (l : Lexer) (offset : Nat) (s : ContentScan) : Lexed :=
  ⟨{ l with scan := .content s, start := offset }, []⟩

def stop (l : Lexer) (r : Reason) (offset : Nat) : Lexed :=
  ⟨l, [⟨.fault r, offset⟩]⟩

def invalid (l : Lexer) (offset : Nat) : Lexed :=
  l.stop .invalidToken offset

def afterTag (l : Lexer) (depth : Nat) : Lexer :=
  { l with scan := if depth = 0 then .prolog .base else .content plain, depth }

def chars (cs : List Char) (offset : Nat) : List Placed :=
  cs.map fun c => ⟨.char c, offset⟩

def readText (l : Lexer) (offset : Nat) (brackets : Nat) (afterReturn : Bool) (c : Char) : Lexed :=
  if afterReturn && c == '\n' then l.go plain
  else if c == '<' then l.begin offset .less
  else if c == '&' then l.begin offset (.reference .start [])
  else if c == '\r' then { l.go (.text 0 true) with tokens := chars ['\n'] offset }
  else if c == ']' then
    { l.go (.text (min 2 (brackets + 1)) false) with tokens := chars [c] offset }
  else if (c == '>' && brackets == 2) || !isLegal c then l.invalid offset
  else { l.go plain with tokens := chars [c] offset }

def readVerbatim (l : Lexer) (offset : Nat) (brackets : Nat) (afterReturn : Bool) (c : Char) :
    Lexed :=
  if afterReturn && c == '\n' then l.go (.verbatim 0 false)
  else if c == ']' then
    if brackets = 2 then { l.go (.verbatim 2 false) with tokens := chars [c] offset }
    else l.go (.verbatim (brackets + 1) false)
  else if c == '>' && brackets = 2 then l.go plain
  else if !isLegal c then l.invalid offset
  else
    let held := List.replicate brackets ']'
    if c == '\r' then { l.go (.verbatim 0 true) with tokens := chars (held ++ ['\n']) offset }
    else { l.go (.verbatim 0 false) with tokens := chars (held ++ [c]) offset }

def referenceToken (offset : Nat) (read : List Char) : Placed :=
  match Reference.ofText read with
  | .char (some c) => ⟨.char c, offset⟩
  | .char none => ⟨.fault .badCharacter, offset⟩
  | .entity name => ⟨.entity name, offset⟩

def readContent (l : Lexer) (offset : Nat) (s : ContentScan) (c : Char) : Lexed :=
  match s with
  | .text brackets afterReturn => l.readText offset brackets afterReturn c
  | .less =>
    if c == '!' then l.go .bang
    else if c == '?' then l.go (.aside .question)
    else if c == '/' then l.go (.endTag .start)
    else if isNameStart c then l.go (.tag (.name ⟨[c], false⟩))
    else l.invalid offset
  | .bang =>
    if c == '-' then l.go (.aside .dash)
    else if c == '[' then l.go (.opening "CDATA[".toList)
    else l.invalid offset
  | .aside a =>
    match a.step c with
    | .more a => l.go (.aside a)
    | .done a => { l.go plain with tokens := [⟨.aside a, l.start⟩] }
    | .invalid => l.invalid offset
  | .tag t =>
    match t.step offset c with
    | .more t => l.go (.tag t)
    | .done t =>
      ⟨l.afterTag (if t.isEmpty then l.depth else l.depth + 1), [⟨.tag t, l.start⟩]⟩
    | .invalid => l.invalid offset
  | .endTag e =>
    match e.step c with
    | .more e => l.go (.endTag e)
    | .done name => ⟨l.afterTag (l.depth - 1), [⟨.close name, l.start⟩]⟩
    | .invalid => l.invalid offset
  | .reference r read =>
    match r.step c with
    | .more r => l.go (.reference r (c :: read))
    | .done _ => { l.go plain with tokens := [referenceToken l.start read.reverse] }
    | .invalid => l.invalid offset
  | .opening [] => l.invalid offset
  | .opening (e :: es) =>
    if c == e then l.go (if es.isEmpty then .verbatim 0 false else .opening es)
    else if es.length + 1 ≤ c.utf8Size then l.invalid offset
    else l.go (.badOpening offset (es.length + 1 - c.utf8Size))
  | .badOpening fault bytes =>
    if bytes ≤ c.utf8Size then l.invalid fault else l.go (.badOpening fault (bytes - c.utf8Size))
  | .verbatim brackets afterReturn => l.readVerbatim offset brackets afterReturn c

def isDelimiter (c : Char) : Bool :=
  isSpace c || c == '>' || c == ')' || c == ',' || c == '|' || c == '[' || c == '%'

def readBase (l : Lexer) (offset : Nat) (c : Char) : Lexed :=
  let l := { l with start := offset }
  let done (t : Token) : Lexed := { l.goProlog .base with tokens := [⟨t, offset⟩] }
  if isSpace c then l.goProlog .base
  else if c == '<' then l.goProlog .less
  else if c == '"' || c == '\'' then l.goProlog (.literal c [])
  else if c == '%' then l.goProlog .percent
  else if c == '#' then l.goProlog .number
  else if c == ']' then l.goProlog .bracket
  else if ['[', '>', '(', '|', ','].contains c then done (.mark c)
  else if c == ')' then l.goProlog .paren
  else if isNameStart c then l.goProlog (.word [c] false)
  else if isNameChar c || c == ':' then l.goProlog .run
  else l.invalid offset

def thenBase (l : Lexer) (t : Token) (offset : Nat) (c : Char) : Lexed :=
  let r := l.readBase offset c
  { r with tokens := ⟨t, l.start⟩ :: r.tokens }

def readPercent (l : Lexer) (offset : Nat) (c : Char) : Lexed :=
  if isNameStart c then l.goProlog (.parameter [c])
  else if isSpace c || c == '%' then l.thenBase (.mark '%') offset c
  else l.invalid offset

def readBracket (l : Lexer) (offset : Nat) (c : Char) : Lexed :=
  if c == ']' then l.goProlog .doubleBracket else l.thenBase (.mark ']') offset c

def wordToken (name : List Char) (hasColon : Bool) : Token :=
  if hasColon then .prefixedWord name else .word name

def isDeclarationLetter (c : Char) : Bool :=
  c.isAlpha || c == '_'

def readProlog (l : Lexer) (offset : Nat) (s : PrologScan) (c : Char) : Lexed :=
  let done (t : Token) : Lexed := { l.goProlog .base with tokens := [⟨t, l.start⟩] }
  match s with
  | .base => l.readBase offset c
  | .less =>
    if c == '!' then l.goProlog .bang
    else if c == '?' then l.goProlog (.aside .question)
    else if isNameStart c || 128 ≤ c.toNat then
      let r := l.readContent offset .less c
      { r with tokens := ⟨.root, l.start⟩ :: r.tokens }
    else l.invalid offset
  | .bang =>
    if c == '-' then l.goProlog (.aside .dash)
    else if c == '[' then done .conditional
    else if isDeclarationLetter c then l.goProlog (.declaration [c])
    else l.invalid offset
  | .aside a =>
    match a.step c with
    | .more a => l.goProlog (.aside a)
    | .done a => done (.aside a)
    | .invalid => l.invalid offset
  | .declaration word =>
    if isDeclarationLetter c then l.goProlog (.declaration (c :: word))
    else if isSpace c then done (.declaration word.reverse)
    else if c == '%' then l.goProlog (.declarationPercent word)
    else l.invalid offset
  | .declarationPercent word =>
    if isSpace c || c == '%' then l.invalid (offset - 1)
    else
      let r := { l with start := offset - 1 }.readPercent offset c
      { r with tokens := ⟨.declaration word.reverse, l.start⟩ :: r.tokens }
  | .word read hasColon =>
    if isNameChar c then l.goProlog (.word (c :: read) hasColon)
    else if c == ':' then l.goProlog (if hasColon then .run else .colon (c :: read))
    else if isDelimiter c then l.thenBase (wordToken read.reverse hasColon) offset c
    else if c == '+' || c == '*' || c == '?' then done .repeatedWord
    else l.invalid offset
  | .colon read =>
    if isNameChar c then l.goProlog (.word (c :: read) true)
    else if c == ':' then l.goProlog .run
    else if isDelimiter c then l.thenBase .nameToken offset c
    else l.invalid offset
  | .run =>
    if isNameChar c || c == ':' then l.goProlog .run
    else if isDelimiter c then l.thenBase .nameToken offset c
    else l.invalid offset
  | .literal mark read =>
    if c == mark then l.goProlog (.behindLiteral read.reverse)
    else if isLegal c then l.goProlog (.literal mark (c :: read))
    else l.invalid offset
  | .behindLiteral text =>
    if isSpace c || c == '>' || c == '%' || c == '[' then l.thenBase (.literal text) offset c
    else l.invalid offset
  | .percent => l.readPercent offset c
  | .parameter read =>
    if isNameChar c then l.goProlog (.parameter (c :: read))
    else if c == ';' then done (.parameter read.reverse)
    else l.invalid offset
  | .number => if isNameStart c then l.goProlog (.numberName [c]) else l.invalid offset
  | .numberName read =>
    if isNameChar c then l.goProlog (.numberName (c :: read))
    else if isSpace c || c == ')' || c == '>' || c == '%' || c == '|' then
      l.thenBase (.numberWord read.reverse) offset c
    else l.invalid offset
  | .bracket => l.readBracket offset c
  | .doubleBracket =>
    if c == '>' then done .conditional
    else
      let r := { l with start := offset - 1 }.readBracket offset c
      { r with tokens := ⟨.mark ']', l.start⟩ :: r.tokens }
  | .paren =>
    if c == '*' || c == '+' || c == '?' then done (.repeatedEnd c)
    else if isSpace c || c == '>' || c == ',' || c == '|' || c == ')' then
      l.thenBase (.mark ')') offset c
    else l.invalid offset

def read (l : Lexer) (offset : Nat) (c : Char) : Lexed :=
  match l.scan with
  | .prolog s => l.readProlog offset s c
  | .content s => l.readContent offset s c

def finish (l : Lexer) (offset : Nat) : List Placed :=
  let unclosed : List Placed := [⟨.fault .unclosedToken, l.start⟩]
  let last (t : Token) : List Placed := [⟨t, l.start⟩, ⟨.finish, offset⟩]
  match l.scan with
  | .content (.text _ afterReturn) => [⟨.finish, if afterReturn then offset - 1 else offset⟩]
  | .content (.verbatim brackets afterReturn) =>
    [⟨.fault .unclosedSection, offset - brackets - if afterReturn then 1 else 0⟩]
  | .content _ => unclosed
  | .prolog s =>
    match s with
    | .base => [⟨.finish, offset⟩]
    | .word read hasColon => last (wordToken read.reverse hasColon)
    | .behindLiteral text => last (.literal text)
    | .bracket => last (.mark ']')
    | .run => last .nameToken
    | .numberName read => last (.numberWord read.reverse)
    | .paren => last (.mark ')')
    | _ => unclosed

def run (l : Lexer) (offset : Nat) : List Char → List Placed
  | [] => l.finish offset
  | c :: s =>
    let r := l.read offset c
    r.tokens ++ r.next.run (offset + 1) s

end Lexer

/-- The tokens of a document. A byte order mark may stand at its start. -/
def tokens : List Char → List Placed
  | '\ufeff' :: s => { scan := .prolog .base : Lexer }.run 1 s
  | s => { scan := .prolog .base : Lexer }.run 0 s

def contentTokens (s : List Char) : List Placed :=
  { scan := .content Lexer.plain, depth := 1 : Lexer }.run 0 s

end FeedOutline.Markup
