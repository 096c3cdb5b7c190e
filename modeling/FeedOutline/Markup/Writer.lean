import FeedOutline.Markup.Node

/-!
Writing elements whose names are in no namespace.
-/
namespace FeedOutline.Markup

def escapeText (c : Char) : List Char :=
  if c == '&' then "&amp;".toList
  else if c == '<' then "&lt;".toList
  else if c == '>' then "&gt;".toList
  else [c]

/-- In a value, quotes and the white space that reading would change are escaped as well. -/
def escapeValue (c : Char) : List Char :=
  if c == '"' then "&quot;".toList
  else if c == '\r' then "&#13;".toList
  else if c == '\n' then "&#10;".toList
  else if c == '\t' then "&#09;".toList
  else escapeText c

def writeAttribute : Name × String → List Char
  | (name, value) =>
    ' ' :: name.text.toList ++ '=' :: '"' :: value.toList.flatMap escapeValue ++ ['"']

mutual

def Node.write : Node → List Char
  | .text s => s.toList.flatMap escapeText
  | .element name attributes children =>
    let start := '<' :: name.text.toList ++ attributes.flatMap writeAttribute
    match children with
    | [] => start ++ " />".toList
    | child :: rest =>
      start ++ '>' :: (child.write ++ writeAll rest) ++ '<' :: '/' :: name.text.toList ++ ['>']

def writeAll : List Node → List Char
  | [] => []
  | n :: ns => n.write ++ writeAll ns

end

def lineBreak (depth : Nat) : Node :=
  .text (String.ofList ('\n' :: List.replicate (2 * depth) ' '))

def Node.isText : Node → Bool
  | .text _ => true
  | .element _ _ _ => false

mutual

/-- Puts each element below another one on a line of its own; an element with text stays as it is. -/
def Node.indent (depth : Nat) : Node → Node
  | .text s => .text s
  | .element name attributes children =>
    if children.isEmpty || children.any (·.isText) then .element name attributes children
    else .element name attributes (indentAll (depth + 1) children ++ [lineBreak depth])

def indentAll (depth : Nat) : List Node → List Node
  | [] => []
  | n :: ns => lineBreak depth :: n.indent depth :: indentAll depth ns

end

def document (root : Node) : String :=
  String.ofList ("<?xml version='1.0' encoding='utf-8'?>\n".toList ++ (root.indent 0).write ++ ['\n'])

end FeedOutline.Markup
