import Handoff.Dialect
/-!
# Escapes

Inside quotes and between tags some characters have a meaning of their own and are written by other
means. In code, braces are written as quoted expressions; in a template, by number.
-/
namespace Handoff.Escape

/-- A character inside the quotes of an attribute. -/
def attributeChar (c : Char) : List Char :=
  if c = '&' then "&amp;".toList
  else if c = '"' then "&quot;".toList
  else if c = '<' then "&lt;".toList
  else if c = '>' then "&gt;".toList
  else [c]

/-- A character of a text between tags. -/
def textChar (d : MarkupDialect) (c : Char) : List Char :=
  if c = '&' then "&amp;".toList
  else if c = '<' then "&lt;".toList
  else if c = '>' then "&gt;".toList
  else if c = '\x7b' then
    match d with
    | .componentized => "\x7b'\x7b'\x7d".toList
    | .templated => "&#123;".toList
    | .static => [c]
  else if c = '\x7d' then
    match d with
    | .componentized => "\x7b'\x7d'\x7d".toList
    | .templated => "&#125;".toList
    | .static => [c]
  else [c]

def attr (s : String) : String :=
  String.ofList (s.toList.flatMap attributeChar)

def text (d : MarkupDialect) (s : String) : String :=
  String.ofList (s.toList.flatMap (textChar d))

end Handoff.Escape
