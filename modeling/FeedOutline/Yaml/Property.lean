import FeedOutline.Text.Digit
import FeedOutline.Text.Utf8
import FeedOutline.Yaml.Token

/-!
Anchors, aliases, tags and directives.
-/
namespace FeedOutline.Yaml

def scanName (c : Cursor) : Except Fault (String × Cursor) :=
  let name := c.next.takeWhile isNameChar
  let behind := c.next.skip name.length
  let ch := behind.peek
  if name.isEmpty then behind.refuse
  else if isBlankOrEnd ch || ['?', ':', ',', ']', '\x7d', '%', '@', '`'].contains ch then
    .ok (String.ofList name, behind)
  else behind.refuse

def isUriChar (c : Char) : Bool :=
  c.isAlphanum || "-;/?:@&=+$,_.!~*'()[]%".toList.contains c

def escapedBytes : Nat → Cursor → Except Fault (Text.Bytes × Cursor)
  | 0, c => .ok ([], c)
  | fuel + 1, c =>
    if c.peek == '%' then
      let digits := (c.next.rest.take 2).takeWhile isHex
      if digits.length = 2 then do
        let (bytes, c) ← escapedBytes fuel (c.skip 3)
        return (UInt8.ofNat (hexValue digits) :: bytes, c)
      else (c.skip (digits.length + 1)).refuse
    else .ok ([], c)

def uriText : Nat → Cursor → Except Fault (List Char × Cursor)
  | 0, c => .ok ([], c)
  | fuel + 1, c =>
    if c.peek == '%' then do
      let (bytes, c) ← escapedBytes c.rest.length c
      match Text.decodeUtf8 bytes with
      | .error _ => c.refuse
      | .ok text => do
        let (more, c) ← uriText fuel c
        return (text.toList ++ more, c)
    else if isUriChar c.peek then do
      let (more, behind) ← uriText fuel c.next
      return (c.peek :: more, behind)
    else .ok ([], c)

def scanUri (c : Cursor) : Except Fault (String × Cursor) := do
  let (text, behind) ← uriText c.rest.length.succ c
  if text.isEmpty then c.refuse else .ok (String.ofList text, behind)

def scanHandle (c : Cursor) : Except Fault (String × Cursor) :=
  if c.peek != '!' then c.refuse
  else if c.peekAt 1 == ' ' then .ok ("!", c.next)
  else
    let name := c.next.takeWhile isNameChar
    if c.peekAt (name.length + 1) != '!' then (c.skip (name.length + 1)).refuse
    else .ok (String.ofList ('!' :: name ++ ['!']), c.skip (name.length + 2))

def hasHandle (c : Cursor) : Bool :=
  (c.next.takeWhile fun ch => !isSpaceOrEnd ch).contains '!'

def scanTag (c : Cursor) : Except Fault (Token × Cursor) := do
  let (token, c) ←
    if c.peekAt 1 == '<' then do
      let (suffix, c) ← scanUri (c.skip 2)
      if c.peek == '>' then .ok (Token.tag none suffix, c.next) else c.refuse
    else if isBlankOrEnd (c.peekAt 1) then .ok (Token.tag none "!", c.next)
    else do
      let (handle, c) ← if hasHandle c then scanHandle c else .ok ("!", c.next)
      let (suffix, c) ← scanUri c
      .ok (Token.tag (some handle) suffix, c)
  if isSpaceOrEnd c.peek then .ok (token, c) else c.refuse

def scanNumber (c : Cursor) : Except Fault (Nat × Cursor) :=
  let digits := c.takeWhile Char.isDigit
  let behind := c.skip digits.length
  match Text.digits? digits with
  | some n => if Text.mostDigits < digits.length then behind.fail .outOfRange else .ok (n, behind)
  | none => c.refuse

def scanVersion (c : Cursor) : Except Fault (Token × Cursor) := do
  let (major, c) ← scanNumber c.skipSpaces
  if c.peek != '.' then c.refuse
  else
    let (_, c) ← scanNumber c.next
    if isSpaceOrEnd c.peek then .ok (.version major, c) else c.refuse

def scanTagHandle (c : Cursor) : Except Fault (Token × Cursor) := do
  let (handle, c) ← scanHandle c.skipSpaces
  if c.peek != ' ' then c.refuse
  else
    let (start, c) ← scanUri c.skipSpaces
    if isSpaceOrEnd c.peek then .ok (.tagHandle handle start, c) else c.refuse

def scanDirective (c : Cursor) : Except Fault (Token × Cursor) := do
  let name := c.next.takeWhile isNameChar
  let behind := c.next.skip name.length
  if name.isEmpty || !isSpaceOrEnd behind.peek then behind.refuse
  else
    let (token, c) ←
      if name == "YAML".toList then scanVersion behind
      else if name == "TAG".toList then scanTagHandle behind
      else .ok (.otherDirective, behind.skipLine)
    let c := c.skipSpaces
    let c := if c.peek == '#' then c.skipLine else c
    if c.isAtEnd then .ok (token, c)
    else match c.lineBreak? with
      | some (_, c) => .ok (token, c)
      | none => c.refuse

end FeedOutline.Yaml
