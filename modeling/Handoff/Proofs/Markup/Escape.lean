import Handoff.Proofs.Markup.Roles
/-!
# Escapes, read back

A reader goes over a text from left to right and takes spellings for the characters that they stand
for. It finds the text that was escaped if no spelling begins another, and if every character is written
by a spelling of its own or is one that no spelling begins with. The ampersand is such a spelling in
every dialect, so a text that looks escaped before it is escaped comes back as it was.

Results:
* `decode_flatMap`: what is put together from spellings is read back.
* `attr_eq_replacements`: four replacements one after the other make the escape of an attribute.
* `escapes_readBack`: what the escapes leave out, and what a reader makes of them.
-/
namespace Handoff.Escape

/-! ## Spellings -/

/-- A text read from left to right. The spelling that begins at a place stands for its character, and
where none begins a character stands for itself. -/
def decode (codes : Codes) : List Char → List Char
  | [] => []
  | c :: rest =>
    match codes.find? fun code => code.1.isPrefixOf (c :: rest) with
    | some code => code.2 :: decode codes (rest.drop (code.1.length - 1))
    | none => c :: decode codes rest
termination_by cs => cs.length
decreasing_by
  · rw [List.length_drop, List.length_cons]
    omega
  · exact Nat.lt_succ_self _

/-- No spelling is empty, and none begins another. -/
def Unmixed (codes : Codes) : Prop :=
  ∀ a ∈ codes, a.1 ≠ [] ∧ ∀ b ∈ codes, a.1 <+: b.1 → a = b

instance (codes : Codes) : Decidable (Unmixed codes) :=
  inferInstanceAs (Decidable (∀ a ∈ codes, a.1 ≠ [] ∧ ∀ b ∈ codes, a.1 <+: b.1 → a = b))

/-- A piece of text is written for a character: a spelling of it, or the character where no spelling
begins with it. -/
def Spells (codes : Codes) (c : Char) (piece : List Char) : Prop :=
  (piece, c) ∈ codes ∨ piece = [c] ∧ ∀ code ∈ codes, code.1.head? ≠ some c

variable {codes : Codes}

/-- Where a spelling begins, no other does. -/
theorem find?_spelling (unmixed : Unmixed codes) {code : List Char × Char} (mem : code ∈ codes)
    (rest : List Char) :
    (codes.find? fun other => other.1.isPrefixOf (code.1 ++ rest)) = some code := by
  have begins : code.1 <+: code.1 ++ rest := List.prefix_append ..
  cases found : codes.find? fun other => other.1.isPrefixOf (code.1 ++ rest) with
  | none =>
    have never := List.find?_eq_none.mp found code mem
    exact absurd (List.isPrefixOf_iff_prefix.mpr begins) never
  | some other =>
    have known : other ∈ codes := List.mem_of_find?_eq_some found
    have here : other.1.isPrefixOf (code.1 ++ rest) = true := by simpa using List.find?_some found
    rcases List.prefix_or_prefix_of_prefix (List.isPrefixOf_iff_prefix.mp here) begins with first | first
    · rw [(unmixed other known).2 code mem first]
    · rw [(unmixed code mem).2 other known first]

theorem find?_character {c : Char} (kept : ∀ code ∈ codes, code.1.head? ≠ some c)
    (unmixed : Unmixed codes) (rest : List Char) :
    (codes.find? fun other => other.1.isPrefixOf (c :: rest)) = none := by
  refine List.find?_eq_none.mpr fun code mem begins => ?_
  obtain ⟨more, split⟩ := List.isPrefixOf_iff_prefix.mp begins
  cases spelling : code.1 with
  | nil => exact (unmixed code mem).1 spelling
  | cons x xs =>
    rw [spelling, List.cons_append] at split
    apply kept code mem
    rw [spelling, (List.cons.inj split).1]
    rfl

/-- What is written for a character is read as that character, whatever comes behind it. -/
theorem decode_piece (unmixed : Unmixed codes) {c : Char} {piece : List Char}
    (spells : Spells codes c piece) (rest : List Char) :
    decode codes (piece ++ rest) = c :: decode codes rest := by
  rcases spells with mem | ⟨rfl, kept⟩
  · have found := find?_spelling unmixed mem rest
    cases piece with
    | nil => exact absurd rfl (unmixed _ mem).1
    | cons x xs =>
      rw [List.cons_append] at found ⊢
      rw [decode, found]
      simp
  · rw [List.singleton_append, decode, find?_character kept unmixed]

/-- What is put together from spellings is read back. -/
theorem decode_flatMap (unmixed : Unmixed codes) {spell : Char → List Char}
    (spells : ∀ c, Spells codes c (spell c)) (cs : List Char) :
    decode codes (cs.flatMap spell) = cs := by
  induction cs with
  | nil => rw [List.flatMap_nil, decode]
  | cons c cs ih => rw [List.flatMap_cons, decode_piece unmixed (spells c), ih]

def read (codes : Codes) (written : String) : String :=
  String.ofList (decode codes written.toList)

/-! ## Spellings of the dialects -/

/-- What a reader of a dialect knows between tags. -/
def textCodes (d : MarkupDialect) : Codes := entities ++ braces d

theorem unmixed_entities : Unmixed entities := by decide

theorem unmixed_textCodes (d : MarkupDialect) : Unmixed (textCodes d) := by
  cases d <;> decide

/-- A reader takes what is written by a table for what it stands for, if it knows the spellings of the
table and begins none with a character that is written as it is. -/
theorem Encodes.spells {table : Codes} (known : table ⊆ codes)
    (begins : ∀ code ∈ codes, code.1.head? ∈ table.map fun entry => some entry.2)
    {c : Char} {piece : List Char} (encodes : Encodes table c piece) : Spells codes c piece := by
  rcases encodes with spelled | ⟨single, kept⟩
  · exact .inl (known spelled)
  · refine .inr ⟨single, fun code mem first => ?_⟩
    obtain ⟨entry, hentry, head⟩ := List.mem_map.mp (begins code mem)
    have same : entry.2 = c := Option.some.inj (head.trans first)
    exact kept (List.mem_map.mpr ⟨entry, hentry, same⟩)

theorem spells_attributeChar (c : Char) : Spells entities c (attributeChar c) :=
  (encodes_attributeChar c).spells (List.Subset.refl _) (by decide)

theorem spells_textChar (d : MarkupDialect) (c : Char) : Spells (textCodes d) c (textChar d c) :=
  (encodes_textChar d c).spells (by cases d <;> decide) (by cases d <;> decide)

theorem read_attr (s : String) : read entities (attr s) = s := by
  unfold read attr
  rw [String.toList_ofList, decode_flatMap unmixed_entities spells_attributeChar, String.ofList_toList]

theorem read_text (d : MarkupDialect) (s : String) : read (textCodes d) (text d s) = s := by
  unfold read text
  rw [String.toList_ofList, decode_flatMap (unmixed_textCodes d) (spells_textChar d),
    String.ofList_toList]

/-! ## Replacements -/

/-- Every place of a character taken by a spelling. -/
def replace (c : Char) (spelling : String) (cs : List Char) : List Char :=
  cs.flatMap fun x => if x = c then spelling.toList else [x]

/-- Four replacements one after the other make the escape of an attribute. Ampersands come first: the
later ones bring in ampersands that stay. -/
theorem attr_eq_replacements (s : String) : attr s = String.ofList
    (replace '>' "&gt;" (replace '<' "&lt;" (replace '"' "&quot;" (replace '&' "&amp;" s.toList)))) := by
  unfold attr replace
  rw [List.flatMap_assoc, List.flatMap_assoc, List.flatMap_assoc]
  refine congrArg String.ofList (List.flatMap_congr fun c _ => ?_)
  unfold attributeChar
  split_ifs with amp quote low high
  · subst amp; rfl
  · subst quote; rfl
  · subst low; rfl
  · subst high; rfl
  · simp only [if_neg quote, if_neg low, if_neg high, List.flatMap_singleton]

/-! ## Braces -/

def isBrace (c : Char) : Bool := c == '\x7b' || c == '\x7d'

/-- A brace is written as a quoted expression, and any other character without braces. -/
def QuotesBrace (c : Char) (piece : List Char) : Prop :=
  c = '\x7b' ∧ piece = "\x7b'\x7b'\x7d".toList ∨ c = '\x7d' ∧ piece = "\x7b'\x7d'\x7d".toList ∨
    isBrace c = false ∧ piece.any isBrace = false

/-- A text is written with a quoted expression for each of its braces and without any others. -/
def BracesQuoted (s written : String) : Prop :=
  ∃ pieces, written.toList = pieces.flatten ∧ List.Forall₂ QuotesBrace s.toList pieces

theorem isBrace_eq_false {d : MarkupDialect} (spelled : d ≠ .static) {c : Char}
    (kept : c ∉ (writtenCodes d).map Prod.snd) : isBrace c = false := by
  have both : '\x7b' ∈ (writtenCodes d).map Prod.snd ∧ '\x7d' ∈ (writtenCodes d).map Prod.snd := by
    cases d with
    | componentized => decide
    | templated => decide
    | static => exact absurd rfl spelled
  rw [isBrace, Bool.or_eq_false_iff, beq_eq_false_iff_ne, beq_eq_false_iff_ne]
  refine ⟨?_, ?_⟩
  · rintro rfl
    exact kept both.1
  · rintro rfl
    exact kept both.2

theorem quotesBrace_textChar (c : Char) : QuotesBrace c (textChar .componentized c) := by
  have table : ∀ code ∈ writtenCodes .componentized, QuotesBrace code.2 code.1 := by
    unfold QuotesBrace
    decide
  rcases encodes_textChar .componentized c with known | ⟨single, kept⟩
  · exact table _ known
  · have plain := isBrace_eq_false (by decide) kept
    rw [single]
    exact .inr (.inr ⟨plain, by simpa using plain⟩)

theorem bracesQuoted_text (s : String) : BracesQuoted s (text .componentized s) := by
  refine ⟨s.toList.map (textChar .componentized), ?_, ?_⟩
  · unfold text
    rw [String.toList_ofList, List.flatMap_def]
  · rw [List.forall₂_map_right_iff, List.forall₂_same]
    exact fun c _ => quotesBrace_textChar c

/-- A template has no braces between tags but those of its own expressions. -/
theorem not_mem_text_templated {s : String} {c : Char} (brace : isBrace c = true) :
    c ∉ (text .templated s).toList := by
  have none : (text .templated s).toList.all (!isBrace ·) = true := by
    refine all_text (by decide) (fun x kept => ?_) s
    rw [isBrace_eq_false (by decide) kept]
    rfl
  intro mem
  have plain := List.all_eq_true.mp none c mem
  rw [brace] at plain
  cases plain

/-! ## Escapes -/

/-- An escape leaves out what would end the text, and is undone by a reader that goes over it once from
left to right, so that no two texts have the same escape. -/
theorem escapes_readBack (s : String) (d : MarkupDialect) :
    (attr s = String.ofList
        (replace '>' "&gt;" (replace '<' "&lt;" (replace '"' "&quot;" (replace '&' "&amp;" s.toList)))) ∧
      '"' ∉ (attr s).toList ∧ '<' ∉ (attr s).toList ∧ '>' ∉ (attr s).toList ∧
      read entities (attr s) = s) ∧
    ('<' ∉ (text d s).toList ∧ '>' ∉ (text d s).toList ∧
      '\x7b' ∉ (text .templated s).toList ∧ '\x7d' ∉ (text .templated s).toList ∧
      BracesQuoted s (text .componentized s) ∧
      read (textCodes d) (text d s) = s) ∧
    Function.Injective attr ∧ Function.Injective (text d) := by
  have value : ∀ c ∈ (attr s).toList, c ≠ '<' ∧ c ≠ '>' := bare_attr s
  have between : ∀ c ∈ (text d s).toList, c ≠ '<' ∧ c ≠ '>' := bare_text d s
  refine ⟨⟨attr_eq_replacements s, not_mem_attr s, ?_, ?_, read_attr s⟩,
    ⟨?_, ?_, not_mem_text_templated rfl, not_mem_text_templated rfl, bracesQuoted_text s,
      read_text d s⟩, ?_, ?_⟩
  · exact fun mem => (value _ mem).1 rfl
  · exact fun mem => (value _ mem).2 rfl
  · exact fun mem => (between _ mem).1 rfl
  · exact fun mem => (between _ mem).2 rfl
  · exact Function.LeftInverse.injective (g := read entities) read_attr
  · exact Function.LeftInverse.injective (g := read (textCodes d)) (read_text d)

/-- What looks escaped is escaped once more. -/
example : text .componentized "\x7b'\x7b'\x7d &lt;" = "\x7b'\x7b'\x7d'\x7b'\x7b'\x7d'\x7b'\x7d'\x7d &amp;lt;" := by
  decide

end Handoff.Escape
