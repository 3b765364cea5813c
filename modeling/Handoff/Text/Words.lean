/-!
# Words of a name

A name in any of the usual spellings falls into words: hyphens, underscores and spaces stand between
words, and a word also ends before a capital after a small letter, between letters and digits, and
before the last capital of a run that a small letter follows (`HTTPServer` is `HTTP`, `Server`).
Names are ASCII here; other characters belong to no letter class.

The words are then joined again: `kebab`, `camel` and `pascal`.
-/
namespace Handoff.Text

/-- Whether a character only stands between words. -/
def isSeparator (c : Char) : Bool :=
  c == '-' || c == '_' || c == ' '

/-- Whether a word ends between `before` and `c` although nothing separates them. -/
def breaksBetween (before c : Char) (after : Option Char) : Bool :=
  (before.isLower && c.isUpper) ||
    (before.isUpper && c.isDigit) || (before.isDigit && c.isUpper) ||
    (before.isDigit && c.isLower) || (before.isLower && c.isDigit) ||
    (before.isUpper && c.isUpper && after.any Char.isLower)

/-- The words of a text that follows `before`; the first one may continue a word begun earlier, and
words may be empty. -/
def pieces (before : Option Char) : List Char → List (List Char)
  | [] => [[]]
  | c :: rest =>
    let later := pieces (some c) rest
    if isSeparator c then [] :: later
    else
      let joined := match later with
        | [] => [[c]]
        | word :: words => (c :: word) :: words
      if before.any (breaksBetween · c rest.head?) then [] :: joined else joined

def words (name : List Char) : List (List Char) :=
  (pieces none name).filter fun word => !word.isEmpty

/-- A word in small letters. -/
def small (word : List Char) : List Char :=
  word.map Char.toLower

/-- A word in small letters but for a capital first one. -/
def capital : List Char → List Char
  | [] => []
  | c :: rest => c.toUpper :: small rest

/-- Words in small letters with hyphens between them. -/
def kebabWords : List (List Char) → List Char
  | [] => []
  | [word] => small word
  | word :: rest => small word ++ '-' :: kebabWords rest

/-- The name in small letters with hyphens between its words: `user-card`. -/
def kebab (name : String) : String :=
  String.ofList (kebabWords (words name.toList))

/-- The name with every word capitalised: `UserCard`. -/
def pascal (name : String) : String :=
  String.ofList ((words name.toList).flatMap capital)

/-- The name with every word but the first capitalised: `userCard`. -/
def camel (name : String) : String :=
  match words name.toList with
  | [] => ""
  | first :: rest => String.ofList (small first ++ rest.flatMap capital)

end Handoff.Text
