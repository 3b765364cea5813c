import Handoff.Text.Lower
import Handoff.Text.Search
import Handoff.Text.WordTable
import Handoff.Text.Blank
/-!
# The button role in markup

A tag that gives its element the role of a button is found in the markup itself: a tag name, then,
before the tag is closed, a blank and the attribute. The search goes on behind the attribute that it
found. What is no tag with that role is passed over character by character.
-/
namespace Handoff

namespace Text

/-- Whether a character belongs to words: letters, marks, digits and connecting punctuation. -/
def isWord (c : Char) : Bool :=
  if c.toNat < 128 then c.isAlphanum || c == '_' else inRanges wordRanges c.toNat

end Text

namespace ButtonRole

/-- The attribute that gives an element the role of a button. -/
def attr : List Char := "role=\"button\"".toList

/-- Whether a character may follow the first letter of a tag name. -/
def isNameChar (c : Char) : Bool :=
  Text.isWord c || c == '.' || c == '-'

/-- The text behind the last place of a tag where a blank and the attribute stand. The tag ends
before the next `>`. -/
def behindAttr? : List Char → Option (List Char)
  | [] => none
  | c :: rest =>
    if c = '>' then none
    else match behindAttr? rest with
      | some behind => some behind
      | none =>
        if Text.isBlank c && attr.isPrefixOf rest then some (rest.drop attr.length) else none

/-- The name of a tag with that role at the start of a text, and the text behind the attribute.
The name takes as many characters as leave a blank and the attribute behind it. -/
def tagAt? : List Char → Option (List Char × List Char)
  | '<' :: first :: rest =>
    if first.isAlpha then
      let name := first :: rest.takeWhile isNameChar
      (behindAttr? (rest.dropWhile isNameChar)).map fun behind => (name, behind)
    else none
  | _ => none

/-- The tag names that carry the role, within a bound on the characters to look at. -/
def tagsWithin : Nat → List Char → List (List Char)
  | 0, _ => []
  | _, [] => []
  | steps + 1, c :: rest =>
    match tagAt? (c :: rest) with
    | some (name, behind) => name :: tagsWithin steps behind
    | none => tagsWithin steps rest

/-- The tag names that carry the role, from left to right. -/
def tags (markup : String) : List (List Char) :=
  tagsWithin markup.toList.length markup.toList

/-- Whether an element that is no button has the role of one. -/
def isMisplaced (markup : String) : Bool :=
  (tags markup).any fun name => name.map Char.toLower != "button".toList

end ButtonRole
end Handoff
