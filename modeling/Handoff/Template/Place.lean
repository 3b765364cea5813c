import Handoff.Json.Source
import Handoff.Template.Basic
import Handoff.Template.Helper
/-!
# Places of a template

What stands between the braces of a place: a path into the data, a helper with arguments and options,
or such a call in parentheses. The parts may stand apart as white space of JSON texts allows. Every
function here reads the start of a text and hands on the rest; where a part has two readings, the
first one that fits is taken for good.

Bounds on steps are lengths of texts, and each step uses up some text.
-/
namespace Handoff.Template

/-- The rest of a text behind what it begins with. -/
def behind? (what : String) (cs : List Char) : Option (List Char) :=
  if what.toList.isPrefixOf cs then some (cs.drop what.length) else none

/-- What was read of a text when `rest` is left of it. -/
def taken (cs rest : List Char) : List Char :=
  cs.take (cs.length - rest.length)

/-! ## Paths -/

/-- Whether a character may stand in a name: ASCII letters, digits and some signs, and all beyond
ASCII. -/
def isNameChar (c : Char) : Bool :=
  c.isAlphanum || c == '_' || c == '-' || c == '$' || 127 < c.toNat

/-- A name. -/
def name? (cs : List Char) : Option (String × List Char) :=
  match cs.takeWhile isNameChar with
  | [] => none
  | name => some (String.ofList name, cs.dropWhile isNameChar)

/-- Whether a character stands between the steps of a path. -/
def isStepSign (c : Char) : Bool :=
  c == '.' || c == '/'

/-- One step of a path: a name, or anything in square brackets. -/
def step? : List Char → Option (String × List Char)
  | '[' :: cs =>
    match cs.dropWhile (· != ']') with
    | [] => none
    | _ :: rest => some (String.ofList (cs.takeWhile (· != ']')), rest)
  | cs => name? cs

/-- The steps that follow the first one. -/
def moreSteps : Nat → List Char → List String × List Char
  | bound + 1, c :: cs =>
    match if isStepSign c then step? cs else none with
    | some (name, rest) =>
      let (names, rest) := moreSteps bound rest
      (name :: names, rest)
    | none => ([], c :: cs)
  | _, cs => ([], cs)

/-- The text behind what says that a path starts right here, which it does anyway. -/
def behindHere (cs : List Char) : List Char :=
  match behind? "this" cs, cs with
  | some (c :: rest), _ => if isStepSign c then rest else cs
  | _, '.' :: '/' :: rest => rest
  | _, _ => cs

/-- The text behind what says that a path starts at the top, and whether it says so. -/
def behindTop (cs : List Char) : Bool × List Char :=
  match behind? "@root" cs with
  | some (c :: rest) => if isStepSign c then (true, rest) else (false, cs)
  | _ => (false, cs)

/-- The text behind steps outwards. All data is at the top, so they lead nowhere else. -/
def behindOutward : List Char → List Char
  | '.' :: '.' :: c :: cs => if isStepSign c then behindOutward cs else '.' :: '.' :: c :: cs
  | cs => cs

/-- A path. The name `this` stays where it is. A path behind an at sign starts at a name that only a
block could have given. -/
def path? (cs : List Char) : Option (TemplateValue × List Char) := do
  let (isTop, cs) := behindTop (behindHere cs)
  let (isBlockName, cs) := match cs with
    | '@' :: rest => (!isTop, rest)
    | _ => (false, cs)
  let (first, rest) ← step? (behindOutward cs)
  let (more, rest) := moreSteps rest.length rest
  let names := (first :: more).filter (· != "this")
  return (if isBlockName && !names.isEmpty then .unbound else .field names, rest)

/-! ## Literals -/

/-- The text behind a string's closing quote. -/
def behindQuoted? (quote : Char) : List Char → Option (List Char)
  | '\\' :: 'u' :: a :: b :: c :: d :: rest =>
    if (Source.hexCode? a b c d).isSome then behindQuoted? quote rest else none
  | '\\' :: c :: rest =>
    if c == quote || (c != '"' && (Source.simpleEscape? c).isSome) then behindQuoted? quote rest
    else none
  | c :: rest =>
    if c == quote then some rest else if c == '\\' then none else behindQuoted? quote rest
  | [] => none

/-- The text behind a string. -/
def behindString? : List Char → Option (List Char)
  | '"' :: rest => behindQuoted? '"' rest
  | '\x27' :: rest => behindQuoted? '\x27' rest
  | _ => none

/-- The text behind a number. -/
def behindNumber? (cs : List Char) : Option (List Char) :=
  let unsigned := (behind? "-" cs).getD cs
  if unsigned.head?.any Char.isDigit then
    let whole := unsigned.dropWhile Char.isDigit
    let fraction := ((behind? "." whole).getD whole).dropWhile Char.isDigit
    match (behind? "E-" fraction <|> behind? "E" fraction) with
    | some (d :: ds) => some (if d.isDigit then ds.dropWhile Char.isDigit else fraction)
    | _ => some fraction
  else none

/-- The text behind a number or a word that is a literal. No character of a name may follow it. -/
def behindWord? (cs : List Char) : Option (List Char) :=
  [behindNumber? cs, behind? "null" cs, behind? "true" cs, behind? "false" cs].findSome? fun behind =>
    behind.filter fun rest => !rest.head?.any isNameChar

mutual

/-- The text behind a literal. -/
def behindLiteral? : Nat → List Char → Option (List Char)
  | 0, _ => none
  | bound + 1, cs =>
    match cs with
    | '[' :: rest => behind? "]" (Source.skipSpace (behindItems bound false rest))
    | '\x7b' :: rest => behind? "\x7d" (Source.skipSpace (behindItems bound true rest))
    | cs => behindString? cs <|> behindWord? cs

/-- The text behind an item of a list or, with its key, a member of an object. -/
def behindItem? : Nat → Bool → List Char → Option (List Char)
  | 0, _, _ => none
  | bound + 1, keyed, cs =>
    if keyed then do
      let rest ← behind? ":" (Source.skipSpace (← behindString? cs))
      behindLiteral? bound (Source.skipSpace rest)
    else behindLiteral? bound cs

/-- The text behind items. The first may be missing. -/
def behindItems (bound : Nat) (keyed : Bool) (cs : List Char) : List Char :=
  match bound with
  | 0 => cs
  | bound + 1 => behindMore bound keyed ((behindItem? bound keyed (Source.skipSpace cs)).getD cs)

/-- The text behind items that each follow a comma. -/
def behindMore : Nat → Bool → List Char → List Char
  | 0, _, cs => cs
  | bound + 1, keyed, cs =>
    match Source.skipSpace cs with
    | ',' :: rest =>
      match behindItem? bound keyed (Source.skipSpace rest) with
      | some rest => behindMore bound keyed rest
      | none => cs
    | _ => cs

end

/-- The inside of a string in single quotes, as it stands in double ones. -/
def requote : List Char → List Char
  | '\\' :: '\x27' :: cs => '\x27' :: requote cs
  | '"' :: cs => '\\' :: '"' :: requote cs
  | c :: cs => c :: requote cs
  | [] => []

/-- The value of a literal. -/
def literalValue? (written : List Char) : Option Json :=
  let written := match written with
    | '\x27' :: rest => '"' :: requote rest.dropLast ++ ['"']
    | written => written
  (Json.ofText (String.ofList written)).toOption

/-! ## Arguments -/

/-- Whether a text begins with a word that is no argument. -/
def isReserved (cs : List Char) : Bool :=
  match behind? "as" cs <|> behind? "else" cs with
  | some rest => !(Source.skipSpace rest).head?.any isNameChar
  | none => false

/-- What a helper is called on, its options, and the rest of a text. -/
structure Arguments where
  values : List TemplateValue
  options : List (String × TemplateValue)
  rest : List Char

mutual

/-- An argument: a literal, a path or a call in parentheses. -/
def argument? : Nat → List Char → Option (TemplateValue × List Char)
  | 0, _ => none
  | bound + 1, cs =>
    if isReserved cs then none
    else match behindLiteral? (3 * cs.length) cs with
      | some rest => (literalValue? (taken cs rest)).map fun v => (.literal v, rest)
      | none => path? cs <|> enclosed? bound cs

/-- A call in parentheses. A path there names a helper. -/
def enclosed? : Nat → List Char → Option (TemplateValue × List Char)
  | bound + 1, '(' :: cs => do
    let cs := Source.skipSpace cs
    let (v, rest) ← call? bound cs <|>
      (path? cs).map fun (_, rest) => (.call (String.ofList (taken cs rest)) [] [], rest)
    return (v, ← behind? ")" (Source.skipSpace rest))
  | _, _ => none

/-- A helper and at least one argument or option. -/
def call? : Nat → List Char → Option (TemplateValue × List Char)
  | 0, _ => none
  | bound + 1, cs => do
    let (helper, rest) ← name? cs
    let given := arguments bound rest
    if given.values.isEmpty && given.options.isEmpty then none
    else return (.call helper given.values given.options, given.rest)

/-- An option: a name and its argument. -/
def option? : Nat → List Char → Option ((String × TemplateValue) × List Char)
  | 0, _ => none
  | bound + 1, cs => do
    let (name, rest) ← name? cs
    let rest ← behind? "=" (Source.skipSpace rest)
    let (v, rest) ← argument? bound (Source.skipSpace rest)
    return ((name, v), rest)

/-- As many arguments and options as there are. Of options of one name the last one counts. -/
def arguments : Nat → List Char → Arguments
  | 0, cs => ⟨[], [], cs⟩
  | bound + 1, cs =>
    match option? bound (Source.skipSpace cs), argument? bound (Source.skipSpace cs) with
    | some ((name, v), rest), _ =>
      let more := arguments bound rest
      if more.options.any (·.1 == name) then more
      else { more with options := (name, v) :: more.options }
    | none, some (v, rest) =>
      let more := arguments bound rest
      { more with values := v :: more.values }
    | none, none => ⟨[], [], cs⟩

end

/-! ## Places -/

/-- A place, and whether it drops the white space before and after it. -/
structure Place where
  shown : TemplateValue
  trimsBefore : Bool
  trimsAfter : Bool

/-- The steps that suffice for the arguments in a text. -/
def bound (cs : List Char) : Nat := 4 * cs.length + 4

/-- What a place shows without arguments: a call in parentheses, or a path, which is a helper if it is
written like one. -/
def alone? (cs : List Char) : Option (TemplateValue × List Char) :=
  enclosed? (bound cs) cs <|> do
    let (field, rest) ← path? cs
    let written := String.ofList (taken cs rest)
    return (if helpers.contains written then .call written [] [] else field, rest)

def shown? (cs : List Char) : Option (TemplateValue × List Char) :=
  call? (bound cs) cs <|> alone? cs

/-- Whether the sign for dropping white space stands there, and the text behind it. -/
def edge (cs : List Char) : Bool × List Char :=
  match Source.skipSpace cs with
  | '~' :: rest => (true, Source.skipSpace rest)
  | rest => (false, rest)

/-- Whether a place divides a block, which only a block may hold: `else` or a caret, alone or before a
name and arguments. No gap has to stand between it and the name. -/
def isDivider (cs : List Char) : Bool :=
  match behind? "else" cs <|> behind? "^" cs with
  | none => false
  | some rest =>
    let closes (cs : List Char) : Bool := (behind? "\x7d\x7d" (edge cs).2).isSome
    closes rest ||
      (name? (Source.skipSpace rest)).any fun (_, rest) => closes (arguments (bound rest) rest).rest

/-- A place behind two opening braces. -/
def double? (cs : List Char) : Option (Place × List Char) := do
  let (before, cs) := edge cs
  if isDivider cs then none
  let (v, rest) ← shown? cs
  let (after, rest) := edge rest
  return (⟨v, before, after⟩, ← behind? "\x7d\x7d" rest)

/-- A place behind two of three opening braces that stand together. -/
def triple? (cs : List Char) : Option (Place × List Char) := do
  let (before, cs) := edge (← behind? "\x7b" cs)
  let (v, rest) ← shown? cs
  let (after, rest) := edge rest
  return (⟨v, before, after⟩, ← behind? "\x7d\x7d\x7d" rest)

/-- A place behind two opening braces with a third pair inside. -/
def nested? (cs : List Char) : Option (Place × List Char) := do
  let (before, cs) := edge cs
  let (v, rest) ← shown? (Source.skipSpace (← behind? "\x7b" cs))
  let (after, rest) := edge (← behind? "\x7d" (Source.skipSpace rest))
  return (⟨v, before, after⟩, ← behind? "\x7d\x7d" rest)

/-- A place behind two opening braces with an ampersand, which takes no arguments. -/
def raw? (cs : List Char) : Option (Place × List Char) := do
  let (before, cs) := edge cs
  let (v, rest) ← alone? (Source.skipSpace (← behind? "&" cs))
  let (after, rest) := edge rest
  return (⟨v, before, after⟩, ← behind? "\x7d\x7d" rest)

def place? (cs : List Char) : Option (Place × List Char) :=
  double? cs <|> triple? cs <|> nested? cs <|> raw? cs

end Handoff.Template
