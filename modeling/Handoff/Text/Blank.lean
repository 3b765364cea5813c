/-!
# Blank characters

The white space of the Unicode standard, and the texts without it at their ends.
-/
namespace Handoff.Text

/-- The 25 characters of white space. -/
def isBlank (c : Char) : Bool :=
  let n := c.toNat
  (0x09 ≤ n && n ≤ 0x0D) || n == 0x20 || n == 0x85 || n == 0xA0 || n == 0x1680 ||
    (0x2000 ≤ n && n ≤ 0x200A) || n == 0x2028 || n == 0x2029 || n == 0x202F || n == 0x205F ||
    n == 0x3000

/-- The characters without the blanks at their end. -/
def dropBlankEnd (cs : List Char) : List Char :=
  (cs.reverse.dropWhile isBlank).reverse

def trimEnd (s : String) : String :=
  String.ofList (dropBlankEnd s.toList)

def trim (s : String) : String :=
  String.ofList (dropBlankEnd (s.toList.dropWhile isBlank))

def isBlankText (s : String) : Bool :=
  s.toList.all isBlank

end Handoff.Text
