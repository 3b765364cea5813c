import Handoff.Proofs.Naming.Parts
/-!
# Bindings of class names

A binding is the class name with a capital in place of every hyphen before a letter. A hyphen before a
digit has no capital to leave behind, and between two digits nothing else tells where it was:
`label-1-2` and `label-12` are both `label12`. Everywhere else the parts can be read off the binding,
since a digit behind a letter, and a capital, always begin a part.

`fused` is what is left of a class name without the hyphens between digits. It can be computed from the
binding (`unbound`), and the binding from it (`bound`).

Result: `moduleBinding_eq_iff`, two class names have one binding exactly if they differ in hyphens
between digits only.
-/
namespace Handoff.Naming

/-- Characters without the hyphens between digits, where `before` stands in front of them. -/
def fusedAfter (before : Option Char) : List Char → List Char
  | [] => []
  | c :: rest =>
    if c == '-' && before.any Char.isDigit && rest.head?.any Char.isDigit then fusedAfter (some c) rest
    else c :: fusedAfter (some c) rest

/-- A class name without the hyphens between digits. -/
def fused (className : String) : List Char := fusedAfter none className.toList

theorem fusedAfter_keep (before : Option Char) {c : Char} (h : c ≠ '-') (rest : List Char) :
    fusedAfter before (c :: rest) = c :: fusedAfter (some c) rest := by
  simp [fusedAfter, h]

theorem ne_hyphen_of_isNamePart {c : Char} (h : isNamePart c = true) : c ≠ '-' := by
  rintro rfl
  exact absurd h (by decide)

theorem isNamePart_of_isDigit {c : Char} (h : c.isDigit = true) : isNamePart c = true := by
  simp [isNamePart, h]

/-! ## From fused names to bindings -/

/-- Characters with a capital in place of every hyphen, one of which may stand before them. -/
def bound (hyphen : Bool) : List Char → List Char
  | [] => []
  | c :: rest =>
    if c == '-' then bound true rest else (if hyphen then c.toUpper else c) :: bound false rest

theorem bound_hyphen (hyphen : Bool) (rest : List Char) :
    bound hyphen ('-' :: rest) = bound true rest := rfl

theorem bound_keep (hyphen : Bool) {c : Char} (h : c ≠ '-') (rest : List Char) :
    bound hyphen (c :: rest) = (if hyphen then c.toUpper else c) :: bound false rest := by
  simp [bound, h]

theorem bound_digit (hyphen : Bool) {c : Char} (digit : c.isDigit = true) (rest : List Char) :
    bound hyphen (c :: rest) = c :: bound false rest := by
  have same : c.toUpper = c :=
    Char.toUpper_eq_of_not_isLower (by simp [isLower_eq_false_of_isDigit digit])
  rw [bound_keep hyphen (ne_hyphen_of_isNamePart (isNamePart_of_isDigit digit)), same, ite_self]

/-- A hyphen before a digit leaves nothing behind. -/
theorem bound_fusedAfter (hyphen : Bool) (before : Option Char) (cs : List Char) :
    bound hyphen (fusedAfter before cs) = bound hyphen cs := by
  induction cs generalizing before hyphen with
  | nil => rfl
  | cons c rest ih =>
    rw [fusedAfter]
    split
    · next dropped =>
      simp only [Bool.and_eq_true, beq_iff_eq] at dropped
      obtain ⟨⟨rfl, -⟩, behind⟩ := dropped
      cases rest with
      | nil => cases behind
      | cons d rest =>
        have digit : d.isDigit = true := behind
        have keep := fusedAfter_keep (some '-')
          (ne_hyphen_of_isNamePart (isNamePart_of_isDigit digit)) rest
        calc bound hyphen (fusedAfter (some '-') (d :: rest))
            = bound true (fusedAfter (some '-') (d :: rest)) := by
              rw [keep, bound_digit _ digit, bound_digit _ digit]
          _ = bound true (d :: rest) := ih true (some '-')
          _ = bound hyphen ('-' :: d :: rest) := (bound_hyphen hyphen _).symm
    · rw [bound, bound, ih, ih]

theorem bound_append {w : List Char} (h : Consists isNamePart w) (rest : List Char) :
    bound false (w ++ rest) = w ++ bound false rest := by
  induction w with
  | nil => rfl
  | cons c w ih =>
    rw [List.cons_append, bound_keep false (ne_hyphen_of_isNamePart h.head), ih h.tail]
    rfl

theorem small_eq {w : List Char} (h : Consists isNamePart w) : Text.small w = w := by
  refine (List.map_congr_left fun c hc => ?_).trans (List.map_id w)
  have kept := h c hc
  simp only [isNamePart, Bool.or_eq_true] at kept
  apply Char.toLower_eq_of_not_isUpper
  rcases kept with letter | digit
  · simp [isUpper_eq_false_of_isLower letter]
  · simp [isUpper_eq_false_of_isDigit digit]

theorem bound_part {w : List Char} (part : IsPart w) (rest : List Char) :
    bound false ('-' :: w ++ rest) = Text.capital w ++ bound false rest := by
  cases w with
  | nil => exact absurd rfl part.1
  | cons c w =>
    have chars := part.chars
    rw [List.cons_append, bound_hyphen, List.cons_append,
      bound_keep true (ne_hyphen_of_isNamePart chars.head), bound_append chars.tail, Text.capital,
      small_eq chars.tail]
    rfl

theorem bound_parts {parts : List (List Char)} (part : ∀ w ∈ parts, IsPart w) :
    bound false (parts.flatMap ('-' :: ·)) = parts.flatMap Text.capital := by
  induction parts with
  | nil => rfl
  | cons w ws ih =>
    rw [List.flatMap_cons, List.flatMap_cons, bound_part (part w (List.mem_cons_self ..)),
      ih fun v hv => part v (List.mem_cons_of_mem _ hv)]

/-- The binding of a class name, computed from its characters. -/
theorem moduleBinding_eq {name : String} {first : List Char} {rest : List (List Char)}
    (spelled : Spelled name (first :: rest)) :
    moduleBinding name = String.ofList (first ++ rest.flatMap Text.capital) := by
  have chars := (spelled.part first (List.mem_cons_self ..)).chars
  unfold moduleBinding Text.camel
  rw [spelled.words_eq]
  dsimp only
  rw [small_eq chars]

/-! ## From bindings to fused names -/

/-- Characters with a hyphen before every capital, and before every digit behind a letter. -/
def unbound (before : Option Char) : List Char → List Char
  | [] => []
  | c :: rest =>
    if c.isUpper || (c.isDigit && before.any Char.isAlpha) then
      '-' :: c.toLower :: unbound (some c) rest
    else c :: unbound (some c) rest

theorem unbound_lower (before : Option Char) {c : Char} (letter : c.isLower = true)
    (rest : List Char) : unbound before (c :: rest) = c :: unbound (some c) rest := by
  simp [unbound, isUpper_eq_false_of_isLower letter, isDigit_eq_false_of_isLower letter]

theorem unbound_capital (before : Option Char) {c : Char} (letter : c.isLower = true)
    (rest : List Char) :
    unbound before (c.toUpper :: rest) = '-' :: c :: unbound (some c.toUpper) rest := by
  have same : c.toLower = c :=
    Char.toLower_eq_of_not_isUpper (by simp [isUpper_eq_false_of_isLower letter])
  simp [unbound, isAlpha_of_isLower letter, same]

theorem unbound_digit (before : Option Char) {c : Char} (digit : c.isDigit = true)
    (rest : List Char) : unbound before (c :: rest) =
      (if before.any Char.isAlpha then ['-'] else []) ++ c :: unbound (some c) rest := by
  by_cases letter : before.any Char.isAlpha = true
  · simp [unbound, digit, letter, toLower_of_isDigit digit]
  · simp [unbound, letter, isUpper_eq_false_of_isDigit digit]

/-- Letters behind a letter, and digits behind a digit, are passed over. -/
theorem unbound_append {x : Char} {w : List Char}
    (same : (x.isAlpha = true ∧ Consists Char.isLower w) ∨ (x.isDigit = true ∧ Consists Char.isDigit w))
    (rest : List Char) :
    ∃ z : Char, z.isAlpha = x.isAlpha ∧ unbound (some x) (w ++ rest) = w ++ unbound (some z) rest := by
  induction w generalizing x with
  | nil => exact ⟨x, rfl, rfl⟩
  | cons c w ih =>
    rcases same with ⟨letter, letters⟩ | ⟨digit, digits⟩
    · have next := isAlpha_of_isLower letters.head
      obtain ⟨z, kind, eq⟩ := ih (.inl ⟨next, letters.tail⟩)
      refine ⟨z, by rw [kind, next, letter], ?_⟩
      rw [List.cons_append, unbound_lower _ letters.head, eq, List.cons_append]
    · have next := isAlpha_eq_false_of_isDigit digits.head
      have own := isAlpha_eq_false_of_isDigit digit
      obtain ⟨z, kind, eq⟩ := ih (.inr ⟨digits.head, digits.tail⟩)
      refine ⟨z, by rw [kind, next, own], ?_⟩
      rw [List.cons_append, unbound_digit _ digits.head, eq]
      simp [own]

/-- Whether a part is a number. -/
def isNumber (w : List Char) : Bool := w.all Char.isDigit

theorem isNumber_of_letters {w : List Char} (filled : w ≠ []) (letters : Consists Char.isLower w) :
    isNumber w = false := by
  cases w with
  | nil => exact absurd rfl filled
  | cons c w => simp [isNumber, isDigit_eq_false_of_isLower letters.head]

theorem isNumber_of_digits {w : List Char} (digits : Consists Char.isDigit w) : isNumber w = true :=
  consists_iff_all.mp digits

theorem isDigit_eq_isNumber {w : List Char} (part : IsPart w) {c : Char} (hc : c ∈ w) :
    c.isDigit = isNumber w := by
  rcases part.2 with letters | digits
  · rw [isNumber_of_letters part.1 letters, isDigit_eq_false_of_isLower (letters c hc)]
  · rw [isNumber_of_digits digits, digits c hc]

/-- A part gets its hyphen back, unless it is a number behind a number. -/
theorem unbound_part {w : List Char} (part : IsPart w) (before : Option Char) (rest : List Char) :
    ∃ z : Char, z.isAlpha = !isNumber w ∧ unbound before (Text.capital w ++ rest) =
      (if isNumber w && !before.any Char.isAlpha then [] else ['-']) ++ w ++ unbound (some z) rest := by
  have chars := part.chars
  obtain ⟨filled, kind⟩ := part
  cases w with
  | nil => exact absurd rfl filled
  | cons c w =>
    rw [Text.capital, small_eq chars.tail]
    rcases kind with letters | digits
    · have capital : c.toUpper.isAlpha = true := by simp [isAlpha_of_isLower letters.head]
      have word := isNumber_of_letters filled letters
      obtain ⟨z, kind, eq⟩ := unbound_append (.inl ⟨capital, letters.tail⟩) rest
      refine ⟨z, by rw [kind, capital, word]; rfl, ?_⟩
      rw [List.cons_append, unbound_capital before letters.head, eq, word]
      simp
    · have number := isNumber_of_digits digits
      obtain ⟨z, kind, eq⟩ := unbound_append (.inr ⟨digits.head, digits.tail⟩) rest
      refine ⟨z, by rw [kind, isAlpha_eq_false_of_isDigit digits.head, number]; rfl, ?_⟩
      have same : c.toUpper = c :=
        Char.toUpper_eq_of_not_isLower (by simp [isLower_eq_false_of_isDigit digits.head])
      rw [List.cons_append, same, unbound_digit before digits.head, eq, number]
      cases before.any Char.isAlpha <;> simp

theorem fusedAfter_append (before : Option Char) {w : List Char} (filled : w ≠ [])
    (chars : Consists isNamePart w) (rest : List Char) :
    ∃ z ∈ w, fusedAfter before (w ++ rest) = w ++ fusedAfter (some z) rest := by
  induction w generalizing before with
  | nil => exact absurd rfl filled
  | cons c w ih =>
    rw [List.cons_append, fusedAfter_keep before (ne_hyphen_of_isNamePart chars.head)]
    cases w with
    | nil => exact ⟨c, List.mem_cons_self .., rfl⟩
    | cons d w =>
      obtain ⟨z, hz, eq⟩ := ih (some c) (List.cons_ne_nil d w) chars.tail
      exact ⟨z, List.mem_cons_of_mem _ hz, by rw [eq]; rfl⟩

/-- A part keeps its hyphen, unless it is a number behind a number. -/
theorem fusedAfter_part {w : List Char} (part : IsPart w) (x : Char) (rest : List Char) :
    ∃ z : Char, z.isDigit = isNumber w ∧ fusedAfter (some x) ('-' :: w ++ rest) =
      (if isNumber w && x.isDigit then [] else ['-']) ++ w ++ fusedAfter (some z) rest := by
  obtain ⟨z, hz, eq⟩ := fusedAfter_append (some '-') part.1 part.chars rest
  refine ⟨z, isDigit_eq_isNumber part hz, ?_⟩
  have head : (w ++ rest).head?.any Char.isDigit = isNumber w := by
    cases w with
    | nil => exact absurd rfl part.1
    | cons c w => exact isDigit_eq_isNumber part (List.mem_cons_self ..)
  rw [List.cons_append, fusedAfter, head, eq, Option.any_some]
  cases isNumber w <;> cases x.isDigit <;> simp

/-- Hyphens that are left in a fused name are those that its binding tells. -/
theorem unbound_parts {parts : List (List Char)} (part : ∀ w ∈ parts, IsPart w) {x y : Char}
    (kind : y.isAlpha = !x.isDigit) :
    unbound (some y) (parts.flatMap Text.capital) = fusedAfter (some x) (parts.flatMap ('-' :: ·)) := by
  induction parts generalizing x y with
  | nil => rfl
  | cons w ws ih =>
    have own := part w (List.mem_cons_self ..)
    obtain ⟨y', alpha, unbound⟩ := unbound_part own (some y) (ws.flatMap Text.capital)
    obtain ⟨x', digit, fused⟩ := fusedAfter_part own x (ws.flatMap ('-' :: ·))
    have later := ih (fun v hv => part v (List.mem_cons_of_mem _ hv)) (x := x') (y := y')
      (by rw [alpha, digit])
    rw [List.flatMap_cons, List.flatMap_cons, unbound, fused, later, Option.any_some, kind, Bool.not_not]

/-! ## Both ways -/

theorem unbound_moduleBinding {name : String} (h : LedByLetters name) :
    unbound none (moduleBinding name).toList = fused name ∧
      bound false (fused name) = (moduleBinding name).toList := by
  obtain ⟨first, rest, letters, spelled⟩ := h
  have part := spelled.part first (List.mem_cons_self ..)
  have behind : ∀ w ∈ rest, IsPart w := fun w hw => spelled.part w (List.mem_cons_of_mem _ hw)
  rw [moduleBinding_eq spelled, String.toList_ofList]
  unfold fused
  constructor
  · rw [spelled.text]
    cases first with
    | nil => exact absurd rfl part.1
    | cons c more =>
      have letter := letters.head
      obtain ⟨y, alpha, unbound⟩ := unbound_append
        (.inl ⟨isAlpha_of_isLower letter, letters.tail⟩) (rest.flatMap Text.capital)
      obtain ⟨x, mem, fused⟩ := fusedAfter_append none part.1 part.chars (rest.flatMap ('-' :: ·))
      rw [hyphenated, fused, List.cons_append, unbound_lower none letter, unbound,
        unbound_parts behind (x := x), List.cons_append]
      rw [alpha, isAlpha_of_isLower letter, isDigit_eq_false_of_isLower (letters x mem)]
      rfl
  · rw [bound_fusedAfter, spelled.text, hyphenated, bound_append part.chars, bound_parts behind]

/-- Two class names have one binding exactly if they differ in hyphens between digits only. -/
theorem moduleBinding_eq_iff {a b : String} (ha : LedByLetters a) (hb : LedByLetters b) :
    moduleBinding a = moduleBinding b ↔ fused a = fused b := by
  obtain ⟨unboundA, boundA⟩ := unbound_moduleBinding ha
  obtain ⟨unboundB, boundB⟩ := unbound_moduleBinding hb
  constructor
  · intro same
    rw [← unboundA, ← unboundB, same]
  · intro same
    rw [← String.toList_inj, ← boundA, ← boundB, same]

end Handoff.Naming
