import Handoff.Json.Source
import Handoff.Proofs.Json.Text
import Handoff.Proofs.Number.Reading
/-!
# Numerals read back

What stands behind a numeral does not change what is read of it, as long as it closes a list or an
object or goes on with the next part. So a numeral whose text, taken alone, is read as that numeral
is read like that wherever it stands. Whatever is read as a numeral is a finite number.

Results:
* `reads_numberRest`: what a reader of numbers does with a text.
* `valueOf_number`: a numeral that is read back alone is read back inside a text.
-/
namespace Handoff
open Number (isNumeric)

/-! ## What can fail -/

section
variable {ε α β : Type}

theorem exists_of_bind_eq_ok {x : Except ε α} {f : α → Except ε β} {b : β}
    (h : (x >>= f) = .ok b) : ∃ a, x = .ok a ∧ f a = .ok b := by
  cases x with
  | error e => cases h
  | ok a => exact ⟨a, rfl, h⟩

theorem exists_of_map_eq_ok {x : Except ε α} {f : α → β} {b : β} (h : f <$> x = .ok b) :
    ∃ a, x = .ok a ∧ f a = b := by
  cases x with
  | error e => cases h
  | ok a => exact ⟨a, rfl, Except.ok.inj h⟩

theorem eq_none_of_forM {ending : Option Fault} {rest : Except Fault β} {b : β}
    (h : (do ending.forM throw; rest) = .ok b) : ending = none ∧ rest = .ok b := by
  cases ending with
  | none => exact ⟨rfl, h⟩
  | some f => cases h

end

theorem exists_of_ofText {text : String} {v : Json} (h : Json.ofText text = .ok v) :
    ∃ s, Source.readText text = (s, none) ∧ s.toJson maxDepth = .ok v := by
  unfold Json.ofText at h
  obtain ⟨w, value, h⟩ := exists_of_bind_eq_ok h
  obtain ⟨trailing, h⟩ := eq_none_of_forM h
  cases h
  exact ⟨_, Prod.ext rfl trailing, value⟩

/-- The text of a numeral is read as that numeral. -/
def Numeral.ReadsBack (n : Numeral) : Prop :=
  Json.ofText (Json.number n).text = .ok (.number n)

deriving instance DecidableEq for Numeral

/-- Whether a numeral is read back can be tried. -/
instance (n : Numeral) : Decidable n.ReadsBack :=
  match h : Json.ofText (Json.number n).text with
  | .ok (.number m) =>
    decidable_of_iff (m = n) (by rw [Numeral.ReadsBack, h, Except.ok.injEq, Json.number.injEq])
  | .ok .null | .ok (.boolean _) | .ok (.string _) | .ok (.array _) | .ok (.object _) | .error _ =>
    .isFalse (by rw [Numeral.ReadsBack, h]; intro eq; cases eq)

namespace Source

/-- Whether all numbers are finite. -/
def Finite : Source → Prop
  | .number n => n.toFloat.isFinite = true
  | .array items _ => itemsFinite items
  | .object members _ => membersFinite members
  | _ => True
where
  itemsFinite : List Source → Prop
    | [] => True
    | v :: vs => Finite v ∧ itemsFinite vs
  membersFinite : List (Source × Source) → Prop
    | [] => True
    | (_, v) :: rest => Finite v ∧ membersFinite rest

/-! ## Numbers -/

/-- What can stand behind a value of a list or an object, or behind the whole. -/
def Closes (r : List Char) : Prop := ∀ c rest, r = c :: rest → c = ',' ∨ c = ']' ∨ c = '\x7d'

theorem closes_nil : Closes [] := by
  intro c rest h
  cases h

theorem closes_cons {c : Char} {rest : List Char} (h : c = ',' ∨ c = ']' ∨ c = '\x7d') :
    Closes (c :: rest) := by
  intro c' rest' eq
  cases eq
  exact h

theorem digits_append {cs r : List Char} (hr : Closes r) :
    digits (cs ++ r) = ((digits cs).1, (digits cs).2 ++ r) := by
  unfold digits
  dsimp only
  induction cs with
  | nil =>
    cases r with
    | nil => rfl
    | cons c rest =>
      have other : ¬c.isDigit = true := by
        rcases hr c rest rfl with rfl | rfl | rfl <;> decide
      rw [List.nil_append, List.takeWhile_cons_of_neg other, List.dropWhile_cons_of_neg other]
      rfl
  | cons c cs ih =>
    by_cases digit : c.isDigit = true
    · obtain ⟨taken, dropped⟩ := Prod.mk.inj ih
      rw [List.cons_append, List.takeWhile_cons_of_pos digit, List.dropWhile_cons_of_pos digit,
        List.takeWhile_cons_of_pos digit, List.dropWhile_cons_of_pos digit, List.map_cons, taken,
        dropped, List.map_cons]
    · rw [List.cons_append, List.takeWhile_cons_of_neg digit, List.dropWhile_cons_of_neg digit,
        List.takeWhile_cons_of_neg digit, List.dropWhile_cons_of_neg digit]
      rfl

theorem exists_cons_of_append {c : Char} {cs r rest : List Char} (hr : Closes r)
    (other : ¬(c = ',' ∨ c = ']' ∨ c = '\x7d')) (h : cs ++ r = c :: rest) :
    ∃ cs', cs = c :: cs' := by
  cases cs with
  | nil => exact absurd (hr c rest h) other
  | cons d cs' =>
    obtain ⟨rfl, -⟩ := List.cons.inj h
    exact ⟨cs', rfl⟩

/-- An exponent after its sign. -/
def exponentDigits (down negative : Bool) (whole fraction : List Nat) (cs : List Char) :
    Source × Option (List Char) :=
  let (ds, rest) := digits cs
  if ds.isEmpty then missingDigits rest
  else
    let size : Int := ofDigits ds
    (realOf negative whole fraction (if down then -size else size), some rest)

/-- A fraction after its point. -/
def fractionRest (negative : Bool) (whole : List Nat) (cs : List Char) :
    Source × Option (List Char) :=
  let (fraction, rest) := digits cs
  if fraction.isEmpty then missingDigits rest
  else match rest with
    | 'e' :: rest => exponentRest negative whole fraction rest
    | 'E' :: rest => exponentRest negative whole fraction rest
    | _ => (realOf negative whole fraction 0, some rest)

/-- What a reader of numbers does with a text. It breaks off, or it leaves an end of the text, and
what it gives is finite and does not depend on what stands behind the text. -/
def Reads (read : List Char → Source × Option (List Char)) (cs : List Char) : Prop :=
  (∃ opening reading skipping, read cs = (.broken opening reading skipping, none)) ∨
  ∃ s left, read cs = (s, some left) ∧ left <:+ cs ∧ s.Finite ∧
    ∀ r, Closes r → read (cs ++ r) = (s, some (left ++ r))

/-- A reader that goes on as another one does behind the beginning of a text. -/
theorem Reads.of_suffix {read read' : List Char → Source × Option (List Char)}
    {whole cs : List Char} (h : Reads read' cs) (behind : cs <:+ whole)
    (same : ∀ r, Closes r → read (whole ++ r) = read' (cs ++ r)) : Reads read whole := by
  have alone := same [] closes_nil
  rw [List.append_nil, List.append_nil] at alone
  obtain ⟨opening, reading, skipping, broken⟩ | ⟨s, left, eq, suffix, finite, later⟩ := h
  · exact .inl ⟨opening, reading, skipping, alone.trans broken⟩
  · exact .inr ⟨s, left, alone.trans eq, suffix.trans behind, finite, fun r hr =>
      (same r hr).trans (later r hr)⟩

/-- A reader that stops where a text ends, or before, whatever stands behind it. -/
theorem Reads.of_stop {read : List Char → Source × Option (List Char)} {cs left : List Char}
    {s : Source} (behind : left <:+ cs) (finite : s.Finite)
    (same : ∀ r, Closes r → read (cs ++ r) = (s, some (left ++ r))) : Reads read cs := by
  have alone := same [] closes_nil
  rw [List.append_nil, List.append_nil] at alone
  exact .inr ⟨s, left, alone, behind, finite, same⟩

theorem finite_realOf (negative : Bool) (whole fraction : List Nat) (exponent : ℤ) :
    (realOf negative whole fraction exponent).Finite := by
  unfold realOf
  generalize Number.absorb 0 whole = first
  obtain ⟨significand, taken⟩ := first
  dsimp only
  generalize Number.absorb significand fraction = second
  obtain ⟨significand, used⟩ := second
  dsimp only
  split
  · next x scaled =>
    have finite := Number.isFinite_scale scaled
    show (if negative then -x else x).isFinite = true
    split
    · exact Number.isFinite_neg finite
    · exact finite
  · trivial

theorem finite_integerOf (negative : Bool) (whole : List Nat) :
    (integerOf negative whole).Finite := by
  unfold integerOf
  dsimp only
  split
  · split
    · next fits =>
      have : Int64.minValue.toInt = -2 ^ 63 := rfl
      exact Number.isFinite_ofInt (by omega)
    · exact finite_realOf ..
  · split
    · next fits =>
      have : Number.wordBound = 2 ^ 64 := rfl
      exact Number.isFinite_ofInt (by omega)
    · exact finite_realOf ..

section
variable {negative : Bool} {whole fraction : List Nat}

theorem suffix_digits (cs : List Char) : (digits cs).2 <:+ cs :=
  List.dropWhile_suffix _

theorem reads_exponentDigits (negative : Bool) (whole fraction : List Nat) (down : Bool)
    (cs : List Char) :
    Reads (exponentDigits down negative whole fraction) cs := by
  unfold Reads exponentDigits
  dsimp only
  by_cases empty : (digits cs).1.isEmpty = true
  · left
    rw [if_pos empty]
    exact ⟨_, _, _, rfl⟩
  · right
    rw [if_neg empty]
    refine ⟨_, _, rfl, suffix_digits cs, finite_realOf .., fun r hr => ?_⟩
    rw [digits_append hr]
    exact if_neg empty

theorem exponentRest_unsigned {c : Char} {cs : List Char} (plus : c ≠ '+') (minus : c ≠ '-') :
    exponentRest negative whole fraction (c :: cs) =
      exponentDigits false negative whole fraction (c :: cs) := by
  unfold exponentRest
  split
  next down rest parts =>
    split at parts
    · next e => exact absurd (List.cons.inj e).1 plus
    · next e => exact absurd (List.cons.inj e).1 minus
    · cases parts
      rfl

theorem reads_exponentRest (negative : Bool) (whole fraction : List Nat) (cs : List Char) :
    Reads (exponentRest negative whole fraction) cs := by
  cases cs with
  | nil => exact .inl ⟨_, _, _, rfl⟩
  | cons c cs =>
    by_cases plus : c = '+'
    · subst plus
      exact (reads_exponentDigits negative whole fraction false cs).of_suffix
        (List.suffix_cons ..) fun _ _ => rfl
    · by_cases minus : c = '-'
      · subst minus
        exact (reads_exponentDigits negative whole fraction true cs).of_suffix
          (List.suffix_cons ..) fun _ _ => rfl
      · exact (reads_exponentDigits negative whole fraction false (c :: cs)).of_suffix
          (List.suffix_refl _) fun _ _ => exponentRest_unsigned plus minus

/-- What stands behind digits: an exponent, or the end of the number. -/
def scaledRest (negative : Bool) (whole fraction : List Nat) (number : Source) (cs : List Char) :
    Source × Option (List Char) :=
  match cs with
  | 'e' :: rest => exponentRest negative whole fraction rest
  | 'E' :: rest => exponentRest negative whole fraction rest
  | _ => (number, some cs)

theorem reads_scaledRest (negative : Bool) (whole fraction : List Nat) {number : Source}
    (finite : number.Finite) (cs : List Char) :
    Reads (scaledRest negative whole fraction number) cs := by
  by_cases scaled : ∃ c rest, (c = 'e' ∨ c = 'E') ∧ cs = c :: rest
  · obtain ⟨c, rest, letter, rfl⟩ := scaled
    refine (reads_exponentRest negative whole fraction rest).of_suffix (List.suffix_cons ..)
      fun r hr => ?_
    rcases letter with rfl | rfl <;> rfl
  · refine .of_stop (List.suffix_refl cs) finite fun r hr => ?_
    unfold scaledRest
    split
    · next e =>
      obtain ⟨rest, eq⟩ := exists_cons_of_append hr (by decide) e
      exact absurd ⟨_, rest, .inl rfl, eq⟩ scaled
    · next e =>
      obtain ⟨rest, eq⟩ := exists_cons_of_append hr (by decide) e
      exact absurd ⟨_, rest, .inr rfl, eq⟩ scaled
    · rfl

theorem reads_fractionRest (negative : Bool) (whole : List Nat) (cs : List Char) :
    Reads (fractionRest negative whole) cs := by
  by_cases empty : (digits cs).1.isEmpty = true
  · left
    unfold fractionRest
    dsimp only
    rw [if_pos empty]
    exact ⟨_, _, _, rfl⟩
  · have finite := finite_realOf negative whole (digits cs).1 0
    refine (reads_scaledRest negative whole (digits cs).1 finite (digits cs).2).of_suffix
      (suffix_digits cs) fun r hr => ?_
    unfold fractionRest
    rw [digits_append hr]
    dsimp only
    rw [if_neg empty]
    rfl

theorem reads_numberRest (negative : Bool) (cs : List Char) : Reads (numberRest negative) cs := by
  have behind := suffix_digits cs
  by_cases empty : (digits cs).1.isEmpty = true
  · left
    unfold numberRest
    dsimp only
    rw [if_pos empty]
    exact ⟨_, _, _, rfl⟩
  · by_cases zero : 1 < (digits cs).1.length ∧ (digits cs).1.head? = some 0
    · left
      unfold numberRest
      dsimp only
      rw [if_neg empty, if_pos zero]
      exact ⟨_, _, _, rfl⟩
    · by_cases point : ∃ rest, (digits cs).2 = '.' :: rest
      · obtain ⟨rest, eq⟩ := point
        rw [eq] at behind
        refine (reads_fractionRest negative (digits cs).1 rest).of_suffix
          ((List.suffix_cons ..).trans behind) fun r hr => ?_
        unfold numberRest
        rw [digits_append hr, eq]
        exact (if_neg empty).trans (if_neg zero)
      · have finite := finite_integerOf negative (digits cs).1
        refine (reads_scaledRest negative (digits cs).1 [] finite (digits cs).2).of_suffix behind
          fun r hr => ?_
        unfold numberRest
        rw [digits_append hr]
        dsimp only
        rw [if_neg empty, if_neg zero]
        split
        · next e => exact absurd (exists_cons_of_append hr (by decide) e) point
        · next e => rw [e]; rfl
        · next e => rw [e]; rfl
        · next small capital =>
          unfold scaledRest
          split
          · next e => exact absurd e (small _)
          · next e => exact absurd e (capital _)
          · rfl

end

theorem not_isSpace_of_isNumeric {c : Char} (h : isNumeric c = true) : isSpace c = false := by
  by_contra space
  rw [Bool.not_eq_false] at space
  simp only [isSpace, Bool.or_eq_true, beq_iff_eq] at space
  rcases space with ((rfl | rfl) | rfl) | rfl <;> exact absurd h (by decide)

theorem skipSpace_cons {c : Char} {rest : List Char} (h : isSpace c = false) :
    skipSpace (c :: rest) = c :: rest :=
  List.dropWhile_cons_of_neg (by rw [h]; decide)

theorem valueOf_numeric {steps : ℕ} {c : Char} {cs : List Char} (h : isNumeric c = true) :
    valueOf (steps + 1) (c :: cs) =
      if c = '-' then numberRest true cs
      else if c.isDigit then numberRest false (c :: cs) else (fault .malformed, none) := by
  unfold valueOf
  rw [skipSpace_cons (not_isSpace_of_isNumeric h)]
  split
  · next e => cases e
  · next e => cases e; cases h
  · next e => cases e; cases h
  · next e => cases e; cases h
  · next e => cases e; cases h
  · next e => cases e; rfl
  · next e => cases e; cases h
  · next e => cases e; cases h
  · next minus _ _ e =>
    cases e
    rw [if_neg (show ¬c = '-' from minus)]

/-- Only the source of a numeral is a numeral as a whole value. -/
theorem eq_number_of_toJson {s : Source} {n : Numeral} {depth : ℕ}
    (h : s.toJson depth = .ok (.number n)) : s = .number n := by
  cases s with
  | number m =>
    cases h
    rfl
  | array items ending =>
    cases depth with
    | zero => cases h
    | succ depth =>
      obtain ⟨values, -, h⟩ := exists_of_bind_eq_ok h
      obtain ⟨-, h⟩ := eq_none_of_forM h
      cases h
  | object members ending =>
    cases depth with
    | zero => cases h
    | succ depth =>
      obtain ⟨values, -, h⟩ := exists_of_bind_eq_ok h
      obtain ⟨-, h⟩ := eq_none_of_forM h
      cases h
  | _ => cases h

theorem reads_numeric {c : Char} (cs : List Char) (h : isNumeric c = true) :
    ∃ read, Reads read (c :: cs) ∧
      ∀ steps r, valueOf (steps + 1) (c :: cs ++ r) = read (c :: cs ++ r) := by
  refine ⟨fun text => if c = '-' then numberRest true (text.drop 1)
    else if c.isDigit then numberRest false text else (fault .malformed, none), ?_,
    fun steps r => valueOf_numeric h⟩
  split_ifs with minus digit
  · exact (reads_numberRest true cs).of_suffix (List.suffix_cons ..) fun _ _ => rfl
  · exact reads_numberRest false (c :: cs)
  · exact .inl ⟨_, _, _, rfl⟩

theorem eq_nil_of_skipSpace {left : List Char} (numeric : ∀ c ∈ left, isNumeric c = true)
    (h : (skipSpace left).isEmpty = true) : left = [] := by
  cases left with
  | nil => rfl
  | cons c rest =>
    rw [skipSpace_cons (not_isSpace_of_isNumeric (numeric c (List.mem_cons_self ..)))] at h
    cases h

/-- What reads a numeral back reads it as well when the text goes on. -/
theorem valueOf_number {n : Numeral} (finite : n.Finite) (back : n.ReadsBack) (steps : ℕ)
    {r : List Char} (hr : Closes r) : valueOf (steps + 1) (n.chars ++ r) = (.number n, some r) := by
  have numeric := Json.numeral_isNumeric finite
  obtain ⟨read, reads, same⟩ : ∃ read, Reads read n.chars ∧
      ∀ steps r, valueOf (steps + 1) (n.chars ++ r) = read (n.chars ++ r) := by
    obtain ⟨c, cs, eq⟩ := List.exists_cons_of_ne_nil (Json.numeral_chars_ne_nil finite)
    rw [eq] at numeric ⊢
    exact reads_numeric cs (numeric c (List.mem_cons_self ..))
  obtain ⟨s, whole, value⟩ := exists_of_ofText back
  cases eq_number_of_toJson value
  have text : (Json.number n).text.toList = n.chars := String.toList_ofList
  have alone : valueOf (2 * n.chars.length + 2) n.chars = read n.chars := by
    have := same (2 * n.chars.length + 1) []
    rwa [List.append_nil] at this
  unfold readText at whole
  rw [text] at whole
  dsimp only at whole
  rw [alone] at whole
  obtain ⟨opening, reading, skipping, broken⟩ | ⟨s, left, eq, behind, -, later⟩ := reads
  · rw [broken] at whole
    cases whole
  · rw [eq] at whole
    obtain ⟨rfl, trailing⟩ := Prod.mk.inj whole
    have none : left = [] := by
      refine eq_nil_of_skipSpace (fun c hc => numeric c (behind.subset hc)) ?_
      by_contra more
      rw [if_neg more] at trailing
      cases trailing
    rw [same, later r hr, none]
    rfl

end Source
end Handoff
