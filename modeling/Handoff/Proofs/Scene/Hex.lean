import Handoff.Scene.Color
import Mathlib.Data.List.Basic
/-!
# Which texts spell a color

A color is spelled by three bytes, or four with its opacity, each by two digits in base 16, behind any
number of hashes. The reader takes more than that: a plus sign may stand in front of the last digit of a
byte in place of the first. On texts without a plus sign it takes nothing else than digits.

Results:
* `hexValue?_eq_some_iff`, `hexByte?_eq_some_iff`: what counts as a digit, and as a byte.
* `ofHex_eq_some_iff`: which texts spell which colors.
* `ofHex_spelled_iff`: where only digits do.
-/
namespace Handoff.Color

/-- The digits in base 16, each at the place of its value. -/
def smallDigits : List Char :=
  ['0', '1', '2', '3', '4', '5', '6', '7', '8', '9', 'a', 'b', 'c', 'd', 'e', 'f']

def capitalDigits : List Char :=
  ['0', '1', '2', '3', '4', '5', '6', '7', '8', '9', 'A', 'B', 'C', 'D', 'E', 'F']

def HexDigit (c : Char) (value : ℕ) : Prop :=
  smallDigits[value]? = some c ∨ capitalDigits[value]? = some c

instance (c : Char) (value : ℕ) : Decidable (HexDigit c value) :=
  inferInstanceAs (Decidable (_ ∨ _))

def TwoDigits (high low : Char) (byte : ℕ) : Prop :=
  ∃ h l, HexDigit high h ∧ HexDigit low l ∧ byte = 16 * h + l

def PlusDigit (high low : Char) (byte : ℕ) : Prop :=
  high = '+' ∧ HexDigit low byte

/-- Pairs of characters, one for each of some bytes. -/
inductive Pairs (spells : Char → Char → ℕ → Prop) : List Char → List ℕ → Prop
  | nil : Pairs spells [] []
  | cons {c d : Char} {byte : ℕ} {cs : List Char} {bytes : List ℕ} (first : spells c d byte)
      (rest : Pairs spells cs bytes) : Pairs spells (c :: d :: cs) (byte :: bytes)

/-- The color of red, green and blue, and of its opacity if there is a fourth byte. -/
def ofChannels : List ℕ → Option Color
  | [r, g, b] => some ⟨Float.ofNat r / 255, Float.ofNat g / 255, Float.ofNat b / 255, 1⟩
  | [r, g, b, a] =>
    some ⟨Float.ofNat r / 255, Float.ofNat g / 255, Float.ofNat b / 255, Float.ofNat a / 255⟩
  | _ => none

def hashless (text : String) : List Char :=
  text.toList.dropWhile (· == '#')

def IsHexText (cs : List Char) : Prop :=
  (cs.length = 6 ∨ cs.length = 8) ∧ ∀ c ∈ cs, ∃ value, HexDigit c value

/-! ## Digits -/

theorem hexDigit_of_hexValue? {c : Char} {value : ℕ} (h : hexValue? c = some value) :
    HexDigit c value := by
  -- No digit lies beyond ASCII, and there the tables can be compared.
  have table : ∀ n < 128, ∀ v ∈ hexValue? (Char.ofNat n), HexDigit (Char.ofNat n) v := by decide
  have low : c.toNat < 128 := by
    unfold hexValue? at h
    split at h
    · next digit =>
      exact Nat.lt_of_le_of_lt (Char.isDigit_iff_toNat.mp digit).2 (by decide)
    · split at h
      · next small =>
        rw [Bool.and_eq_true, decide_eq_true_eq, decide_eq_true_eq] at small
        exact Nat.lt_of_le_of_lt small.2 (by decide)
      · split at h
        · next capital =>
          rw [Bool.and_eq_true, decide_eq_true_eq, decide_eq_true_eq] at capital
          exact Nat.lt_of_le_of_lt capital.2 (by decide)
        · cases h
  have digit := table c.toNat low value
  rw [Char.ofNat_toNat] at digit
  exact digit h

/-- The digits are read at their values, and nothing else is. -/
theorem hexValue?_eq_some_iff {c : Char} {value : ℕ} :
    hexValue? c = some value ↔ HexDigit c value := by
  refine ⟨hexDigit_of_hexValue?, fun digit => ?_⟩
  have small : ∀ v (h : v < smallDigits.length), hexValue? smallDigits[v] = some v := by decide
  have capital : ∀ v (h : v < capitalDigits.length), hexValue? capitalDigits[v] = some v := by decide
  rcases digit with there | there
  · obtain ⟨lt, rfl⟩ := List.getElem?_eq_some_iff.mp there
    exact small value lt
  · obtain ⟨lt, rfl⟩ := List.getElem?_eq_some_iff.mp there
    exact capital value lt

theorem not_hexDigit_plus (value : ℕ) : ¬HexDigit '+' value := by
  rw [← hexValue?_eq_some_iff, show hexValue? '+' = none from rfl]
  exact fun h => by cases h

/-- A byte is spelled by two digits, or by a plus sign and a digit. -/
theorem hexByte?_eq_some_iff {high low : Char} {byte : ℕ} :
    hexByte? high low = some byte ↔ TwoDigits high low byte ∨ PlusDigit high low byte := by
  unfold hexByte? TwoDigits PlusDigit
  simp only [← hexValue?_eq_some_iff]
  cases hexValue? low with
  | none => simp
  | some l =>
    by_cases plus : high = '+'
    · subst plus
      have none : hexValue? '+' = none := rfl
      simp [none]
    · dsimp only
      rw [if_neg plus, Option.map_eq_some_iff]
      simp [plus, eq_comm]

/-! ## Texts -/

section
variable {spells more : Char → Char → ℕ → Prop} {cs : List Char} {bytes : List ℕ}

theorem Pairs.mono (h : Pairs spells cs bytes)
    (sub : ∀ c ∈ cs, ∀ d byte, spells c d byte → more c d byte) : Pairs more cs bytes := by
  induction h with
  | nil => exact .nil
  | cons first _ ih =>
    exact .cons (sub _ (List.mem_cons_self ..) _ _ first)
      (ih fun c hc => sub c (List.mem_cons_of_mem _ (List.mem_cons_of_mem _ hc)))

theorem Pairs.length_eq (h : Pairs spells cs bytes) : cs.length = 2 * bytes.length := by
  induction h with
  | nil => rfl
  | cons _ _ ih =>
    rw [List.length_cons, List.length_cons, List.length_cons, ih]
    omega

theorem Pairs.digits (h : Pairs TwoDigits cs bytes) : ∀ c ∈ cs, ∃ value, HexDigit c value := by
  induction h with
  | nil => exact fun _ h => by cases h
  | cons first _ ih =>
    obtain ⟨h, l, high, low, -⟩ := first
    rw [List.forall_mem_cons, List.forall_mem_cons]
    exact ⟨⟨h, high⟩, ⟨l, low⟩, ih⟩

theorem exists_pairs (n : ℕ) (even : cs.length = 2 * n) (digits : ∀ c ∈ cs, ∃ value, HexDigit c value) :
    ∃ bytes, Pairs TwoDigits cs bytes := by
  induction n generalizing cs with
  | zero => exact ⟨[], List.eq_nil_of_length_eq_zero even ▸ .nil⟩
  | succ n ih =>
    match cs, even with
    | c :: d :: rest, even =>
      rw [List.forall_mem_cons, List.forall_mem_cons] at digits
      obtain ⟨⟨h, high⟩, ⟨l, low⟩, digits⟩ := digits
      obtain ⟨bytes, pairs⟩ := ih (by simp only [List.length_cons] at even; omega) digits
      exact ⟨_, .cons ⟨h, l, high, low, rfl⟩ pairs⟩

end

theorem bytes_of_ofChannels {bytes : List ℕ} {c : Color} (h : ofChannels bytes = some c) :
    (∃ r g b, bytes = [r, g, b]) ∨ ∃ r g b a, bytes = [r, g, b, a] := by
  unfold ofChannels at h
  split at h
  · exact .inl ⟨_, _, _, rfl⟩
  · exact .inr ⟨_, _, _, _, rfl⟩
  · cases h

def SpellsByte (high low : Char) (byte : ℕ) : Prop :=
  TwoDigits high low byte ∨ PlusDigit high low byte

/-- The texts of a color are those of its bytes. -/
theorem ofHex_eq_some_iff {text : String} {c : Color} : ofHex text = some c ↔
    ∃ bytes, Pairs SpellsByte (hashless text) bytes ∧ ofChannels bytes = some c := by
  have byte {high low : Char} {b : ℕ} : hexByte? high low = some b ↔ SpellsByte high low b :=
    hexByte?_eq_some_iff
  unfold ofHex hashless
  constructor
  · intro h
    split at h
    · next six =>
      simp only [Option.bind_eq_bind, Option.bind_eq_some_iff, Option.pure_def, Option.some.injEq] at h
      obtain ⟨r, hr, g, hg, b, hb, rfl⟩ := h
      rw [six]
      exact ⟨[r, g, b], .cons (byte.mp hr) (.cons (byte.mp hg) (.cons (byte.mp hb) .nil)), rfl⟩
    · next eight =>
      simp only [Option.bind_eq_bind, Option.bind_eq_some_iff, Option.pure_def, Option.some.injEq] at h
      obtain ⟨r, hr, g, hg, b, hb, a, ha, rfl⟩ := h
      rw [eight]
      exact ⟨[r, g, b, a], .cons (byte.mp hr) (.cons (byte.mp hg) (.cons (byte.mp hb)
        (.cons (byte.mp ha) .nil))), rfl⟩
    · cases h
  · rintro ⟨bytes, pairs, color⟩
    generalize text.toList.dropWhile (· == '#') = body at *
    rcases bytes_of_ofChannels color with ⟨r, g, b, rfl⟩ | ⟨r, g, b, a, rfl⟩
    · obtain _ | ⟨hr, _ | ⟨hg, _ | ⟨hb, _ | _⟩⟩⟩ := pairs
      cases color
      simp [byte.mpr hr, byte.mpr hg, byte.mpr hb, ofBytes, rgb]
    · obtain _ | ⟨hr, _ | ⟨hg, _ | ⟨hb, _ | ⟨ha, _ | _⟩⟩⟩⟩ := pairs
      cases color
      simp [byte.mpr hr, byte.mpr hg, byte.mpr hb, byte.mpr ha, ofBytes, rgb, withAlpha]

theorem exists_ofHex {text : String} (digits : IsHexText (hashless text)) :
    ∃ bytes c, Pairs TwoDigits (hashless text) bytes ∧ ofChannels bytes = some c ∧
      ofHex text = some c := by
  obtain ⟨length, digits⟩ := digits
  have reads {bytes : List ℕ} {c : Color} (pairs : Pairs TwoDigits (hashless text) bytes)
      (color : ofChannels bytes = some c) : ofHex text = some c :=
    ofHex_eq_some_iff.mpr ⟨bytes, pairs.mono fun _ _ _ _ => .inl, color⟩
  rcases length with six | eight
  · obtain ⟨bytes, pairs⟩ := exists_pairs 3 six digits
    have three : bytes.length = 3 := by
      have := pairs.length_eq
      omega
    obtain ⟨r, g, b, rfl⟩ := List.length_eq_three.mp three
    exact ⟨_, _, pairs, rfl, reads pairs rfl⟩
  · obtain ⟨bytes, pairs⟩ := exists_pairs 4 eight digits
    have four : bytes.length = 4 := by
      have := pairs.length_eq
      omega
    match bytes, four with
    | [r, g, b, a], _ => exact ⟨_, _, pairs, rfl, reads pairs rfl⟩

/-- Without plus signs, what spells a color is a text of digits. -/
theorem isHexText_of_ofHex {text : String} {c : Color} (h : ofHex text = some c)
    (plain : '+' ∉ hashless text) : IsHexText (hashless text) := by
  obtain ⟨bytes, pairs, color⟩ := ofHex_eq_some_iff.mp h
  have pairs : Pairs TwoDigits (hashless text) bytes := by
    refine pairs.mono fun c hc d byte spells => spells.resolve_right ?_
    rintro ⟨rfl, -⟩
    exact plain hc
  refine ⟨?_, pairs.digits⟩
  rw [pairs.length_eq]
  rcases bytes_of_ofChannels color with ⟨r, g, b, rfl⟩ | ⟨r, g, b, a, rfl⟩
  · exact .inl rfl
  · exact .inr rfl

/-- What is read as a color is three or four bytes, behind any number of hashes, each spelled by two
digits or by a plus sign and a digit. A text of six or eight digits is read, by the values of its pairs of
digits; and only texts with a plus sign are read besides. -/
theorem ofHex_spelled_iff (text : String) :
    (∀ c, ofHex text = some c ↔
      ∃ bytes, Pairs SpellsByte (hashless text) bytes ∧ ofChannels bytes = some c) ∧
    (IsHexText (hashless text) → ∃ bytes c, Pairs TwoDigits (hashless text) bytes ∧
      ofChannels bytes = some c ∧ ofHex text = some c) ∧
    (((ofHex text).isSome = true ↔ IsHexText (hashless text)) ↔
      ¬((ofHex text).isSome = true ∧ '+' ∈ hashless text)) := by
  refine ⟨fun c => ofHex_eq_some_iff, exists_ofHex, ?_⟩
  constructor
  · rintro law ⟨read, plus⟩
    obtain ⟨value, digit⟩ := (law.mp read).2 '+' plus
    exact not_hexDigit_plus value digit
  · intro plain
    constructor
    · intro read
      obtain ⟨c, color⟩ := Option.isSome_iff_exists.mp read
      exact isHexText_of_ofHex color fun plus => plain ⟨read, plus⟩
    · intro digits
      obtain ⟨_, c, -, -, color⟩ := exists_ofHex digits
      exact Option.isSome_iff_exists.mpr ⟨c, color⟩

/-- Signs in place of first digits are read, although they are no digits. -/
theorem ofHex_spelled_plus :
    ofHex "#+1+2+3" = some (ofBytes 1 2 3) ∧ ¬IsHexText (hashless "#+1+2+3") := by
  have read : ofHex "#+1+2+3" = some (ofBytes 1 2 3) := rfl
  have law := (ofHex_spelled_iff "#+1+2+3").2.2
  refine ⟨read, fun digits => ?_⟩
  exact law.mp (iff_of_true (by rw [read]; rfl) digits) ⟨by rw [read]; rfl, by decide⟩

end Handoff.Color
