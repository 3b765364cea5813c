import Handoff.Text.Blank
/-!
# Lines and indentation

A line ends at a line feed, and a carriage return right before that belongs to the line end. What
follows the last line feed is a line only if it is not empty.
-/
namespace Handoff.Text

/-- The lines of a text. -/
def linesOf : List Char → List (List Char)
  | [] => []
  | '\n' :: rest => [] :: linesOf rest
  | '\r' :: '\n' :: rest => [] :: linesOf rest
  | c :: rest =>
    match linesOf rest with
    | [] => [[c]]
    | line :: lines => (c :: line) :: lines

/-- Lines with a line feed between each two. -/
def joinLines : List (List Char) → List Char
  | [] => []
  | [line] => line
  | line :: lines => line ++ '\n' :: joinLines lines

/-- A line pushed right; a blank line stays as it is. -/
def indentLine (spaces : Nat) (line : List Char) : List Char :=
  if line.all isBlank then line else List.replicate spaces ' ' ++ line

/-- A text with every line that is not blank pushed right. -/
def indentChars (spaces : Nat) (cs : List Char) : List Char :=
  joinLines ((linesOf cs).map (indentLine spaces))

/-- A text with every line that is not blank pushed right. -/
def indent (spaces : Nat) (s : String) : String :=
  String.ofList (indentChars spaces s.toList)

def spaces (n : Nat) : String :=
  String.ofList (List.replicate n ' ')

end Handoff.Text
