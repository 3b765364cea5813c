import Handoff.Proofs.Json.Numeral
/-!
# JSON texts read back

The text of a value is read as the source of that value, member by member in their order, if its
numerals are read back. The reader counts its steps; two for each character are enough.

Results:
* `piece_escapeChar`, `stringRest_quote`: quoted texts read back.
* `reads_chars`, `readText_text`: the text of a value is read as its source.
* `finite_readText`: all numbers of a text are finite.
-/
namespace Handoff
open Number (isNumeric)

namespace Source

/-! ## Strings -/

theorem hexCode?_control : ∀ n < 32,
    hexCode? '0' '0' (Json.hexDigit (n / 16)) (Json.hexDigit (n % 16)) = some n := by
  decide

/-- What stands for a character is one step that gives it. -/
theorem piece_escapeChar (c : Char) (rest : List Char) :
    piece (Json.escapeChar c ++ rest) = .char c rest := by
  unfold Json.escapeChar
  split_ifs with quote slash feed return' tab back form control
  · rw [quote]; rfl
  · rw [slash]; rfl
  · rw [feed]; rfl
  · rw [return']; rfl
  · rw [tab]; rfl
  · rw [back]; rfl
  · rw [form]; rfl
  · have code := hexCode?_control c.toNat control
    have low : isLowHalf c.toNat = false := by
      unfold isLowHalf
      rw [Bool.and_eq_false_iff, decide_eq_false_iff_not]
      omega
    have high : isHighHalf c.toNat = false := by
      unfold isHighHalf
      rw [Bool.and_eq_false_iff, decide_eq_false_iff_not]
      omega
    simp only [List.cons_append, List.nil_append, piece, code, low, high, Char.ofNat_toNat]
    rfl
  · show piece (c :: rest) = _
    unfold piece
    split
    · next e => cases e
    · next e => exact absurd (List.cons.inj e).1 quote
    · next e => exact absurd (List.cons.inj e).1 slash
    · next e => exact absurd (List.cons.inj e).1 slash
    · next e => exact absurd (List.cons.inj e).1 slash
    · next e => exact absurd (List.cons.inj e).1 slash
    · next e =>
      cases e
      rw [if_neg control]

theorem stringRest_escaped (done cs rest : List Char) :
    stringRest true done (cs.flatMap Json.escapeChar ++ '"' :: rest) =
      (.string (String.ofList (done.reverse ++ cs)), some rest) := by
  induction cs generalizing done with
  | nil =>
    rw [stringRest]
    split
    · next r e =>
      cases e
      simp
    · next e => cases e
    · next e => cases e
    · next e => cases e
  | cons c cs ih =>
    rw [List.flatMap_cons, List.append_assoc, stringRest]
    have step := piece_escapeChar c (cs.flatMap Json.escapeChar ++ '"' :: rest)
    split
    · next e => rw [step] at e; cases e
    · next c' r e =>
      rw [step] at e
      cases e
      rw [ih, List.reverse_cons, List.append_assoc]
      rfl
    · next e => rw [step] at e; cases e
    · next e => rw [step] at e; cases e

theorem stringRest_quote (s : String) (rest : List Char) :
    stringRest true [] (s.toList.flatMap Json.escapeChar ++ '"' :: rest) =
      (.string s, some rest) := by
  rw [stringRest_escaped, List.reverse_nil, List.nil_append, String.ofList_toList]

/-! ## Values -/

end Source

namespace Json

/-- The source of a value's text. -/
def source : Json → Source
  | .null => .null
  | .boolean b => .boolean b
  | .number n => .number n
  | .string s => .string s
  | .array items => .array (itemSources items) none
  | .object members => .object (memberSources members) none
where
  itemSources : List Json → List Source
    | [] => []
    | v :: vs => source v :: itemSources vs
  memberSources : List (String × Json) → List (Source × Source)
    | [] => []
    | (key, v) :: rest => (.string key, source v) :: memberSources rest

/-- The numerals in a value, in their order. -/
def numerals : Json → List Numeral
  | .number n => [n]
  | .array items => itemNumerals items
  | .object members => memberNumerals members
  | _ => []
where
  itemNumerals : List Json → List Numeral
    | [] => []
    | v :: vs => numerals v ++ itemNumerals vs
  memberNumerals : List (String × Json) → List Numeral
    | [] => []
    | (_, v) :: rest => numerals v ++ memberNumerals rest

/-- What a value's text begins with is no white space and closes no list. -/
theorem chars_begin {v : Json} (h : v.Finite) :
    ∃ c cs, v.chars = c :: cs ∧ Source.isSpace c = false ∧ c ≠ ']' := by
  obtain ⟨c, cs, eq, lead⟩ := chars_lead h
  refine ⟨c, cs, eq, ?_, ?_⟩
  · by_contra space
    rw [Bool.not_eq_false] at space
    simp only [Source.isSpace, Bool.or_eq_true, beq_iff_eq] at space
    rcases space with ((rfl | rfl) | rfl) | rfl <;> cases v <;>
      exact absurd lead (of_decide_eq_false rfl)
  · rintro rfl
    cases v <;> exact absurd lead (of_decide_eq_false rfl)

/-- What a value needs to be read back: its numbers can be written, and are read back. -/
def Readable (v : Json) : Prop :=
  v.Finite ∧ ∀ n ∈ v.numerals, n.ReadsBack

mutual

/-- The numerals of a finite value are finite. -/
theorem Finite.numerals : ∀ {v : Json}, v.Finite → ∀ n ∈ v.numerals, n.Finite
  | .number _, h, n, hn => by cases List.mem_singleton.mp hn; exact h
  | .array _, h, n, hn => finite_itemNumerals h n hn
  | .object _, h, n, hn => finite_memberNumerals h n hn
  | .null, _, _, hn | .boolean _, _, _, hn | .string _, _, _, hn => absurd hn List.not_mem_nil

theorem finite_itemNumerals : ∀ {items : List Json}, Finite.itemsFinite items →
    ∀ n ∈ numerals.itemNumerals items, n.Finite
  | [], _, _, hn => absurd hn List.not_mem_nil
  | _ :: _, h, n, hn => (List.mem_append.mp hn).elim (h.1.numerals n) (finite_itemNumerals h.2 n)

theorem finite_memberNumerals : ∀ {members : List (String × Json)}, Finite.membersFinite members →
    ∀ n ∈ numerals.memberNumerals members, n.Finite
  | [], _, _, hn => absurd hn List.not_mem_nil
  | _ :: _, h, n, hn => (List.mem_append.mp hn).elim (h.1.numerals n) (finite_memberNumerals h.2 n)

end

theorem Readable.items {items : List Json} (h : Readable (.array items)) :
    ∀ v ∈ items, Readable v := by
  obtain ⟨finite, back⟩ := h
  induction items with
  | nil => exact fun _ hv => absurd hv List.not_mem_nil
  | cons v vs ih =>
    rw [List.forall_mem_cons]
    exact ⟨⟨finite.1, fun n hn => back n (List.mem_append_left _ hn)⟩,
      ih finite.2 fun n hn => back n (List.mem_append_right _ hn)⟩

theorem Readable.members {members : List (String × Json)} (h : Readable (.object members)) :
    ∀ e ∈ members, Readable e.2 := by
  obtain ⟨finite, back⟩ := h
  induction members with
  | nil => exact fun _ hv => absurd hv List.not_mem_nil
  | cons e rest ih =>
    rw [List.forall_mem_cons]
    exact ⟨⟨finite.1, fun n hn => back n (List.mem_append_left _ hn)⟩,
      ih finite.2 fun n hn => back n (List.mem_append_right _ hn)⟩

end Json

namespace Source

theorem closes_moreItems (vs : List Json) (r : List Char) :
    Closes (Json.moreItems vs ++ ']' :: r) := by
  cases vs with
  | nil => exact closes_cons (.inr (.inl rfl))
  | cons v vs => exact closes_cons (.inl rfl)

theorem closes_moreMembers (rest : List (String × Json)) (r : List Char) :
    Closes (Json.moreMembers rest ++ '\x7d' :: r) := by
  cases rest with
  | nil => exact closes_cons (.inr (.inr rfl))
  | cons e rest => exact closes_cons (.inl rfl)

theorem valueOf_array {steps : ℕ} {c : Char} {cs : List Char} (space : isSpace c = false)
    (close : c ≠ ']') : valueOf (steps + 1) ('[' :: c :: cs) =
      (.array (itemsOf steps (c :: cs)).1 (itemsOf steps (c :: cs)).2.1,
        (itemsOf steps (c :: cs)).2.2) := by
  rw [valueOf]
  simp only [skipSpace_cons (c := '[') rfl, skipSpace_cons space]
  split
  · next e => cases e
  · next e => exact absurd (List.cons.inj e).1 close
  · rfl

theorem valueOf_object {steps : ℕ} {cs : List Char} : valueOf (steps + 1) ('\x7b' :: '"' :: cs) =
    (.object (membersOf steps ('"' :: cs)).1 (membersOf steps ('"' :: cs)).2.1,
      (membersOf steps ('"' :: cs)).2.2) := rfl

theorem quote_append (s : String) (r : List Char) :
    Json.quote s ++ r = '"' :: (s.toList.flatMap Json.escapeChar ++ '"' :: r) := by
  rw [Json.quote, List.cons_append, List.cons_append, List.append_assoc]
  rfl

section
variable {steps : ℕ} {cs left rest : List Char} {s : Source}

theorem itemsOf_last (value : valueOf steps cs = (s, some left))
    (close : skipSpace left = ']' :: rest) : itemsOf (steps + 1) cs = ([s], none, some rest) := by
  rw [itemsOf]
  simp only [value, close]

theorem itemsOf_more {items : List Source} {later : Option (List Char)}
    (value : valueOf steps cs = (s, some left)) (comma : skipSpace left = ',' :: rest)
    (more : itemsOf steps rest = (items, none, later)) :
    itemsOf (steps + 1) cs = (s :: items, none, later) := by
  rw [itemsOf]
  simp only [value, comma, more]

theorem membersOf_last (key : String) (value : valueOf steps cs = (s, some left))
    (close : skipSpace left = '\x7d' :: rest) :
    membersOf (steps + 1) (Json.quote key ++ ':' :: cs) =
      ([(.string key, s)], none, some rest) := by
  rw [quote_append, membersOf]
  simp only [skipSpace_cons (c := '"') rfl, stringRest_quote, skipSpace_cons (c := ':') rfl, value,
    close]

theorem membersOf_more {members : List (Source × Source)} {later : Option (List Char)}
    (key : String) (value : valueOf steps cs = (s, some left))
    (comma : skipSpace left = ',' :: rest) (more : membersOf steps rest = (members, none, later)) :
    membersOf (steps + 1) (Json.quote key ++ ':' :: cs) =
      ((.string key, s) :: members, none, later) := by
  rw [quote_append, membersOf]
  simp only [skipSpace_cons (c := '"') rfl, stringRest_quote, skipSpace_cons (c := ':') rfl, value,
    comma, more]

end

def ReadsValues (steps : ℕ) : Prop :=
  ∀ (v : Json) r, v.Readable → 2 * v.chars.length ≤ steps → Closes r →
    valueOf steps (v.chars ++ r) = (v.source, some r)

/-- The same for the items of a list, up to its bracket. -/
def ReadsItems (steps : ℕ) : Prop :=
  ∀ (v : Json) vs r, (∀ w ∈ v :: vs, w.Readable) →
    2 * (v.chars.length + (Json.moreItems vs).length) + 1 ≤ steps →
    itemsOf steps (v.chars ++ (Json.moreItems vs ++ ']' :: r)) =
      (Json.source.itemSources (v :: vs), none, some r)

/-- The same for the members of an object, up to its brace. -/
def ReadsMembers (steps : ℕ) : Prop :=
  ∀ key (v : Json) rest r, (∀ e ∈ (key, v) :: rest, e.2.Readable) →
    2 * ((Json.quote key).length + v.chars.length + (Json.moreMembers rest).length) + 1 ≤ steps →
    membersOf steps (Json.quote key ++ ':' :: (v.chars ++ (Json.moreMembers rest ++ '\x7d' :: r))) =
      (Json.source.memberSources ((key, v) :: rest), none, some r)

theorem readsValues_succ {steps : ℕ} (items : ReadsItems steps) (members : ReadsMembers steps) :
    ReadsValues (steps + 1) := by
  intro v r readable enough hr
  match v with
  | .null => rfl
  | .boolean true => rfl
  | .boolean false => rfl
  | .number n => exact valueOf_number readable.1 (readable.2 n (List.mem_singleton_self n)) steps hr
  | .string s =>
    show valueOf (steps + 1) (Json.quote s ++ r) = _
    rw [quote_append]
    exact stringRest_quote s r
  | .array [] => rfl
  | .array (v :: vs) =>
    have length := congrArg List.length (Json.array_chars v vs [])
    simp only [List.length_append, List.length_cons, List.length_nil] at length
    have read := items v vs r readable.items (by omega)
    obtain ⟨c, cs, eq, space, close⟩ := Json.chars_begin readable.1.1
    rw [Json.array_chars]
    rw [eq, List.cons_append] at read ⊢
    rw [valueOf_array space close, read]
    rfl
  | .object [] => rfl
  | .object ((key, v) :: rest) =>
    have length := congrArg List.length (Json.object_chars key v rest [])
    simp only [List.length_append, List.length_cons, List.length_nil] at length
    have read := members key v rest r readable.members (by omega)
    rw [Json.object_chars]
    rw [quote_append] at read ⊢
    rw [valueOf_object, read]
    rfl

theorem readsItems_succ {steps : ℕ} (values : ReadsValues steps) (items : ReadsItems steps) :
    ReadsItems (steps + 1) := by
  intro v vs r readable enough
  obtain ⟨first, later⟩ := List.forall_mem_cons.mp readable
  have value := values v _ first (by omega) (closes_moreItems vs r)
  cases vs with
  | nil => exact itemsOf_last value (skipSpace_cons rfl)
  | cons w ws =>
    simp only [Json.moreItems, List.length_cons, List.length_append] at enough
    have more := items w ws r later (by omega)
    rw [Json.moreItems_cons] at value ⊢
    exact itemsOf_more value (skipSpace_cons rfl) more

theorem readsMembers_succ {steps : ℕ} (values : ReadsValues steps) (members : ReadsMembers steps) :
    ReadsMembers (steps + 1) := by
  intro key v rest r readable enough
  obtain ⟨first, later⟩ := List.forall_mem_cons.mp readable
  have value := values v _ first (by omega) (closes_moreMembers rest r)
  cases rest with
  | nil => exact membersOf_last key value (skipSpace_cons rfl)
  | cons e rest =>
    obtain ⟨key', w⟩ := e
    simp only [Json.moreMembers, List.length_cons, List.length_append] at enough
    have more := members key' w rest r later (by omega)
    rw [Json.moreMembers_cons] at value ⊢
    exact membersOf_more key value (skipSpace_cons rfl) more

theorem reads_chars (steps : ℕ) : ReadsValues steps ∧ ReadsItems steps ∧ ReadsMembers steps := by
  induction steps with
  | zero =>
    refine ⟨fun v r readable enough _ => ?_, fun v vs r _ enough => ?_,
      fun key v rest r _ enough => ?_⟩
    · obtain ⟨c, cs, eq, -, -⟩ := Json.chars_begin readable.1
      rw [eq, List.length_cons] at enough
      omega
    · omega
    · omega
  | succ steps ih =>
    obtain ⟨values, items, members⟩ := ih
    exact ⟨readsValues_succ items members, readsItems_succ values items,
      readsMembers_succ values members⟩

/-- The text of a value is read as its source. -/
theorem readText_text {v : Json} (h : v.Readable) : readText v.text = (v.source, none) := by
  have read := (reads_chars (2 * v.chars.length + 2)).1 v [] h (by omega) closes_nil
  rw [List.append_nil] at read
  unfold readText Json.text
  rw [String.toList_ofList]
  dsimp only
  rw [read]
  rfl

/-! ## What is read is finite -/

theorem itemsFinite_iff {items : List Source} :
    Finite.itemsFinite items ↔ ∀ s ∈ items, s.Finite := by
  induction items with
  | nil => exact ⟨fun _ _ h => absurd h List.not_mem_nil, fun _ => trivial⟩
  | cons s rest ih => rw [List.forall_mem_cons, ← ih, Finite.itemsFinite]

theorem membersFinite_iff {members : List (Source × Source)} :
    Finite.membersFinite members ↔ ∀ e ∈ members, e.2.Finite := by
  induction members with
  | nil => exact ⟨fun _ _ h => absurd h List.not_mem_nil, fun _ => trivial⟩
  | cons e rest ih => rw [List.forall_mem_cons, ← ih, Finite.membersFinite]

theorem finite_numberRest (negative : Bool) (cs : List Char) :
    (numberRest negative cs).1.Finite := by
  obtain ⟨opening, reading, skipping, eq⟩ | ⟨s, left, eq, -, finite, -⟩ :=
    reads_numberRest negative cs
  · rw [eq]
    trivial
  · rw [eq]
    exact finite

theorem finite_stringRest (readable : Bool) (done cs : List Char) :
    (stringRest readable done cs).1.Finite := by
  rw [stringRest]
  split
  · split <;> trivial
  · next c rest step =>
    have shorter : rest.length < cs.length := by
      have := piece_rest_lt (show cs ≠ [] by rintro rfl; cases step)
      rwa [step] at this
    exact finite_stringRest readable (c :: done) rest
  · next rest step =>
    have shorter : rest.length < cs.length := by
      have := piece_rest_lt (show cs ≠ [] by rintro rfl; cases step)
      rwa [step] at this
    exact finite_stringRest false done rest
  · trivial
termination_by cs.length

theorem finite_wordRest {value : Source} (h : value.Finite) (word cs : List Char) :
    (wordRest value word cs).1.Finite := by
  induction word generalizing cs with
  | nil => exact h
  | cons w ws ih =>
    cases cs with
    | nil => trivial
    | cons c rest =>
      unfold wordRest
      split
      · exact ih rest
      · trivial

section

variable {steps : ℕ} (values : ∀ cs, (valueOf steps cs).1.Finite)
  (items : ∀ cs, Finite.itemsFinite (itemsOf steps cs).1)
  (members : ∀ cs, Finite.membersFinite (membersOf steps cs).1)

include items members in
theorem finite_valueOf_succ (cs : List Char) : (valueOf (steps + 1) cs).1.Finite := by
  rw [valueOf]
  split
  · trivial
  · exact finite_wordRest (show Finite .null from trivial) ..
  · exact finite_wordRest (show Finite (.boolean true) from trivial) ..
  · exact finite_wordRest (show Finite (.boolean false) from trivial) ..
  · exact finite_stringRest ..
  · exact finite_numberRest ..
  · split
    · trivial
    · trivial
    · exact items _
  · split
    · trivial
    · trivial
    · exact members _
  · split
    · exact finite_numberRest ..
    · trivial

include values items in
theorem finite_itemsOf_succ (cs : List Char) : Finite.itemsFinite (itemsOf (steps + 1) cs).1 := by
  rw [itemsOf]
  have first := values cs
  split
  · next e => rw [e] at first; exact ⟨first, trivial⟩
  · next e =>
    rw [e] at first
    split
    · exact ⟨first, trivial⟩
    · exact ⟨first, trivial⟩
    · exact ⟨first, items _⟩
    · exact ⟨first, trivial⟩

include values members in
theorem finite_membersOf_succ (cs : List Char) :
    Finite.membersFinite (membersOf (steps + 1) cs).1 := by
  rw [membersOf]
  split
  · split
    · exact ⟨trivial, trivial⟩
    · split
      · exact ⟨trivial, trivial⟩
      · next rest _ =>
        have first := values rest
        split
        · next e => rw [e] at first; exact ⟨first, trivial⟩
        · next e =>
          rw [e] at first
          split
          · exact ⟨first, trivial⟩
          · exact ⟨first, trivial⟩
          · exact ⟨first, members _⟩
          · exact ⟨first, trivial⟩
      · exact ⟨trivial, trivial⟩
  · exact ⟨trivial, trivial⟩
  · exact ⟨trivial, trivial⟩

end

theorem finite_valueOf (steps : ℕ) : (∀ cs, (valueOf steps cs).1.Finite) ∧
    (∀ cs, Finite.itemsFinite (itemsOf steps cs).1) ∧
    ∀ cs, Finite.membersFinite (membersOf steps cs).1 := by
  induction steps with
  | zero => exact ⟨fun _ => trivial, fun _ => trivial, fun _ => trivial⟩
  | succ steps ih =>
    obtain ⟨values, items, members⟩ := ih
    exact ⟨finite_valueOf_succ items members, finite_itemsOf_succ values items,
      finite_membersOf_succ values members⟩

/-- A text has no way to write a number that is not finite. -/
theorem finite_readText (text : String) : (readText text).1.Finite := by
  have value := (finite_valueOf (2 * text.toList.length + 2)).1 text.toList
  unfold readText
  dsimp only
  split
  · next e => rw [e] at value; exact value
  · next e => rw [e] at value; exact value

end Source
end Handoff
