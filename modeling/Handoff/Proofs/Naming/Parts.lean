import Handoff.Proofs.Text.Words
/-!
# The parts of a class name

A class name falls into parts between hyphens. A part is a run of small letters or a run of digits,
never a mixture: the words of a name end where letters meet digits, and a number is a part of its own.
The first part is letters, since the category steps in before a digit.

Cutting a class name into words gives its parts back. That is what bindings are made from.

Results:
* `ClassNamer.next_ledByLetters`: names that are given out have parts, the first one of letters.
* `LedByLetters.isClassName`: such names are class names, `[a-z][a-z0-9]*(-[a-z0-9]+)*`.
* `Spelled.words_eq`: the words of such a name are its parts.
-/
namespace Handoff

/-! ## Letters and digits -/

theorem isAlpha_eq_false_of_isDigit {c : Char} (h : c.isDigit = true) : c.isAlpha = false := by
  simp [Char.isDigit, Char.isAlpha, Char.isUpper, Char.isLower, UInt32.le_iff_toNat_le] at h ⊢
  omega

theorem isAlpha_of_isLower {c : Char} (h : c.isLower = true) : c.isAlpha = true := by
  simp [Char.isAlpha, h]

theorem isUpper_eq_false_of_isLower {c : Char} (h : c.isLower = true) : c.isUpper = false :=
  Bool.eq_false_iff.mpr (Char.not_isUpper_of_isLower h)

theorem isUpper_eq_false_of_isDigit {c : Char} (h : c.isDigit = true) : c.isUpper = false := by
  have letter := isAlpha_eq_false_of_isDigit h
  simp only [Char.isAlpha, Bool.or_eq_false_iff] at letter
  exact letter.1

theorem isLower_eq_false_of_isDigit {c : Char} (h : c.isDigit = true) : c.isLower = false := by
  have letter := isAlpha_eq_false_of_isDigit h
  simp only [Char.isAlpha, Bool.or_eq_false_iff] at letter
  exact letter.2

theorem isDigit_eq_false_of_isLower {c : Char} (h : c.isLower = true) : c.isDigit = false :=
  Bool.eq_false_iff.mpr fun digit => by simp [isLower_eq_false_of_isDigit digit] at h

theorem toLower_of_isDigit {c : Char} (h : c.isDigit = true) : c.toLower = c :=
  Char.toLower_eq_of_not_isUpper (by simp [isUpper_eq_false_of_isDigit h])

namespace Text

/-! ## Words are letters or digits -/

/-- Letters only, or digits only. -/
def Uniform (w : List Char) : Prop := Consists Char.isAlpha w ∨ Consists Char.isDigit w

theorem uniform_nil : Uniform [] := .inl (consists_nil _)

theorem uniform_singleton {c : Char} (h : c.isAlphanum = true) : Uniform [c] := by
  rcases Bool.or_eq_true_iff.mp h with letter | digit
  · exact .inl ((consists_nil _).cons letter)
  · exact .inr ((consists_nil _).cons digit)

/-- A word goes on only with what it is made of: letters and digits do not meet in it. -/
theorem Uniform.cons {b c : Char} {w : List Char} (before : b.isAlphanum = true) {after : Option Char}
    (joined : breaksBetween b c after = false) (h : Uniform (c :: w)) : Uniform (b :: c :: w) := by
  simp only [breaksBetween, Bool.or_eq_false_iff, Bool.and_eq_false_iff] at joined
  simp only [Char.isAlphanum, Char.isAlpha, Bool.or_eq_true] at before
  rcases h with letters | digits
  · have letter := letters.head
    simp only [Char.isAlpha, Bool.or_eq_true] at letter
    refine .inl (letters.cons ?_)
    simp only [Char.isAlpha, Bool.or_eq_true]
    grind
  · have digit := digits.head
    refine .inr (digits.cons ?_)
    grind

/-- Every piece of a name is uniform, and the first one goes on with what stands before it. -/
theorem uniform_pieces {cs : List Char} (worded : Consists isWordChar cs) {before : Option Char}
    {word : List Char} {words : List (List Char)} (cut : pieces before cs = word :: words) :
    (∀ w ∈ word :: words, Uniform w) ∧
      ∀ b, before = some b → b.isAlphanum = true → Uniform (b :: word) := by
  induction cs generalizing before word words with
  | nil =>
    cases cut
    exact ⟨by simp [uniform_nil], fun b _ kept => uniform_singleton kept⟩
  | cons c rest ih =>
    obtain ⟨next, more, later⟩ := exists_pieces (some c) rest
    obtain ⟨all, goes⟩ := ih worded.tail later
    by_cases separates : isSeparator c = true
    · rw [pieces_separator before rest separates, later] at cut
      cases cut
      refine ⟨?_, fun b _ kept => uniform_singleton kept⟩
      simpa [uniform_nil] using all
    · have inside := Bool.eq_false_iff.mpr separates
      have kept : c.isAlphanum = true := by simpa [isWordChar, inside] using worded.head
      have own := goes c rfl kept
      rw [pieces_inside before inside later] at cut
      split at cut
      · cases cut
        refine ⟨?_, fun b _ kept => uniform_singleton kept⟩
        intro w hw
        rcases List.mem_cons.mp hw with rfl | hw
        · exact uniform_nil
        · rcases List.mem_cons.mp hw with rfl | hw
          · exact own
          · exact all w (List.mem_cons_of_mem _ hw)
      · next joined =>
        cases cut
        constructor
        · intro w hw
          rcases List.mem_cons.mp hw with rfl | hw
          · exact own
          · exact all w (List.mem_cons_of_mem _ hw)
        · rintro b rfl before
          exact own.cons before (Bool.eq_false_iff.mpr joined)

theorem uniform_words {name : String} (worded : Worded name) : ∀ w ∈ words name.toList, Uniform w := by
  obtain ⟨word, more, cut⟩ := exists_pieces none name.toList
  intro w hw
  have mem := (List.mem_filter.mp hw).1
  rw [cut] at mem
  exact (uniform_pieces worded cut).1 w mem

end Text

/-! ## Parts -/

namespace Naming

/-- A part of a class name: small letters only, or digits only. -/
def IsPart (w : List Char) : Prop :=
  w ≠ [] ∧ (Consists Char.isLower w ∨ Consists Char.isDigit w)

def hyphenated : List (List Char) → List Char
  | [] => []
  | w :: ws => w ++ ws.flatMap ('-' :: ·)

/-- A name that falls into these parts. -/
structure Spelled (name : String) (parts : List (List Char)) : Prop where
  part : ∀ w ∈ parts, IsPart w
  text : name.toList = hyphenated parts

/-- A name whose first part is letters. -/
def LedByLetters (name : String) : Prop :=
  ∃ first rest, Consists Char.isLower first ∧ Spelled name (first :: rest)

theorem isPart_small {w : List Char} (filled : w ≠ []) (uniform : Text.Uniform w) :
    IsPart (Text.small w) := by
  refine ⟨by simpa [Text.small] using filled, uniform.imp ?_ ?_⟩
  · intro letters c hc
    obtain ⟨d, hd, rfl⟩ := List.mem_map.mp hc
    rw [Char.isLower_toLower_eq_isAlpha]
    exact letters d hd
  · intro digits c hc
    obtain ⟨d, hd, rfl⟩ := List.mem_map.mp hc
    rw [toLower_of_isDigit (digits d hd)]
    exact digits d hd

theorem kebabWords_eq (ws : List (List Char)) :
    Text.kebabWords ws = hyphenated (ws.map Text.small) := by
  induction ws with
  | nil => rfl
  | cons w rest ih =>
    cases rest with
    | nil => simp [Text.kebabWords, hyphenated]
    | cons v rest =>
      rw [Text.kebabWords, ih]
      · simp [hyphenated]
      · exact List.cons_ne_nil v rest

theorem spelled_kebab {name : String} (worded : Text.Worded name) :
    Spelled (Text.kebab name) ((Text.words name.toList).map Text.small) where
  part := by
    intro w hw
    obtain ⟨v, hv, rfl⟩ := List.mem_map.mp hw
    exact isPart_small (by simpa using (List.mem_filter.mp hv).2) (Text.uniform_words worded v hv)
  text := by rw [Text.kebab, String.toList_ofList, kebabWords_eq]

theorem Spelled.append {name : String} {w v : List Char} {ws : List (List Char)}
    (h : Spelled name (w :: ws)) (part : IsPart v) {more : String} (text : more.toList = '-' :: v) :
    Spelled (name ++ more) (w :: (ws ++ [v])) where
  part := by
    intro u hu
    rw [← List.cons_append] at hu
    rcases List.mem_append.mp hu with hu | hu
    · exact h.part u hu
    · rw [List.mem_singleton.mp hu]
      exact part
  text := by simp [h.text, text, hyphenated]

theorem Spelled.prepend {front name : String} {first w : List Char} {ws : List (List Char)}
    (letters : Consists Char.isLower first) (filled : first ≠ []) (text : front.toList = first)
    (h : Spelled name (w :: ws)) : LedByLetters (front ++ "-" ++ name) := by
  refine ⟨first, w :: ws, letters, ?_, ?_⟩
  · intro u hu
    rcases List.mem_cons.mp hu with rfl | hu
    · exact ⟨filled, .inl letters⟩
    · exact h.part u hu
  · simp [h.text, text, hyphenated]

/-! ## Class names -/

def isNamePart (c : Char) : Bool := c.isLower || c.isDigit

/-- A class name: `[a-z][a-z0-9]*(-[a-z0-9]+)*`. -/
def IsClassName (name : List Char) : Prop :=
  ∃ (first : Char) (more : List Char) (words : List (List Char)), first.isLower = true ∧ Consists isNamePart more ∧
    (∀ w ∈ words, w ≠ [] ∧ Consists isNamePart w) ∧
    name = first :: more ++ words.flatMap ('-' :: ·)

theorem IsPart.chars {w : List Char} (h : IsPart w) : Consists isNamePart w := by
  intro c hc
  rcases h.2 with letters | digits
  · simp [isNamePart, letters c hc]
  · simp [isNamePart, digits c hc]

theorem LedByLetters.isClassName {name : String} (h : LedByLetters name) :
    IsClassName name.toList := by
  obtain ⟨first, rest, letters, spelled⟩ := h
  cases first with
  | nil => exact absurd rfl (spelled.part [] (List.mem_cons_self ..)).1
  | cons c more =>
    refine ⟨c, more, rest, letters.head, fun d hd => ?_, fun w hw => ?_, spelled.text⟩
    · simp [isNamePart, letters.tail d hd]
    · have part := spelled.part w (List.mem_cons_of_mem _ hw)
      exact ⟨part.1, part.chars⟩

theorem Spelled.head {name : String} {w : List Char} {ws : List (List Char)}
    (h : Spelled name (w :: ws)) : ∃ c cs, name.toList = c :: cs ∧ c ∈ w := by
  cases w with
  | nil => exact absurd rfl (h.part [] (List.mem_cons_self ..)).1
  | cons c more => exact ⟨c, _, h.text, List.mem_cons_self ..⟩

end Naming

namespace Category

theorem kebab_label (c : Category) : Text.kebab c.label = c.label := by
  cases c <;> decide +kernel

theorem label_letters (c : Category) : Consists Char.isLower c.label.toList := by
  rw [consists_iff_all]
  cases c <;> decide +kernel

theorem label_filled (c : Category) : c.label.toList ≠ [] := by
  cases c <;> decide +kernel

end Category

namespace ClassNamer
open Naming (IsPart Spelled LedByLetters hyphenated spelled_kebab)

theorem ledByLetters_label (c : Category) : LedByLetters c.label := by
  refine ⟨c.label.toList, [], c.label_letters, ?_, by simp [hyphenated]⟩
  intro w hw
  rw [List.mem_singleton.mp hw]
  exact ⟨c.label_filled, .inl c.label_letters⟩

/-- The base name of a layer starts with letters, if need be with those of its category. -/
theorem base_ledByLetters (name : String) (c : Category) : LedByLetters (base name c.label) := by
  have label := ledByLetters_label c
  have own := spelled_kebab (Naming.wordsOnly_worded name)
  unfold base
  rw [c.kebab_label]
  generalize (Text.words (Naming.wordsOnly name).toList).map Text.small = parts at own
  generalize Text.kebab (Naming.wordsOnly name) = given at own
  dsimp only
  cases parts with
  | nil =>
    have empty : given.isEmpty = true := String.isEmpty_iff.mpr (String.toList_inj.mp own.text)
    obtain ⟨first, rest, letters, spelled⟩ := label
    obtain ⟨x, xs, text, mem⟩ := spelled.head
    have letter := isDigit_eq_false_of_isLower (letters x mem)
    simp only [empty, if_true, text, letter, Bool.false_eq_true, if_false]
    exact ledByLetters_label c
  | cons w ws =>
    obtain ⟨x, xs, text, mem⟩ := own.head
    have filled : given.isEmpty = false := by simp [← String.toList_inj, text]
    simp only [filled, Bool.false_eq_true, if_false, text]
    rcases (own.part w (List.mem_cons_self ..)).2 with letters | digits
    · rw [if_neg (by simp [isDigit_eq_false_of_isLower (letters x mem)])]
      exact ⟨w, ws, letters, own⟩
    · rw [if_pos (digits x mem)]
      exact own.prepend c.label_letters c.label_filled rfl

theorem numbered_ledByLetters {name : String} (h : LedByLetters name) (n : Nat) :
    LedByLetters (numbered name n) := by
  obtain ⟨first, rest, letters, spelled⟩ := h
  have digits : Consists Char.isDigit (Nat.toDigits 10 n) :=
    fun c hc => Nat.isDigit_of_mem_toDigits (by decide) (by decide) hc
  refine ⟨first, rest ++ [Nat.toDigits 10 n], letters, ?_⟩
  unfold numbered
  rw [String.append_assoc]
  refine spelled.append ⟨Nat.toDigits_ne_nil, .inr digits⟩ ?_
  rw [String.toList_append, Nat.toString_eq_repr, Nat.toList_repr]
  rfl

/-- Names that are given out have parts, the first one of letters. -/
theorem next_ledByLetters (namer : ClassNamer) (name : String) (c : Category) :
    LedByLetters (namer.next name c.label).1 := by
  have own := base_ledByLetters name c
  unfold next
  generalize base name c.label = b at own ⊢
  dsimp only
  split
  · exact numbered_ledByLetters own _
  · exact own

end ClassNamer

/-! ## Parts and words -/

namespace Naming

theorem isSeparator_eq_false {w : List Char} (part : IsPart w) : ∀ c ∈ w, Text.isSeparator c = false := by
  intro c hc
  have kept := part.chars c hc
  rw [Bool.eq_false_iff]
  intro separates
  simp only [Text.isSeparator, Bool.or_eq_true, beq_iff_eq] at separates
  rcases separates with (rfl | rfl) | rfl <;> exact absurd kept (by decide)

/-- No word ends inside a part. -/
theorem breaksBetween_eq_false {b c : Char} {w : List Char} (part : IsPart (b :: c :: w))
    (after : Option Char) : Text.breaksBetween b c after = false := by
  rcases part.2 with letters | digits
  · simp [Text.breaksBetween, isUpper_eq_false_of_isLower letters.head, letters.head,
      isUpper_eq_false_of_isLower letters.tail.head, isDigit_eq_false_of_isLower letters.head,
      isDigit_eq_false_of_isLower letters.tail.head]
  · simp [Text.breaksBetween, isUpper_eq_false_of_isDigit digits.head,
      isUpper_eq_false_of_isDigit digits.tail.head, isLower_eq_false_of_isDigit digits.head,
      isLower_eq_false_of_isDigit digits.tail.head]

theorem IsPart.tail {c d : Char} {w : List Char} (h : IsPart (c :: d :: w)) : IsPart (d :: w) :=
  ⟨List.cons_ne_nil d w, h.2.imp Consists.tail Consists.tail⟩

/-- A part is one word, however the name goes on behind the hyphen that ends it. -/
theorem pieces_part {w : List Char} (part : IsPart w) {before : Option Char}
    (joins : ∀ c after, w.head? = some c → before.any (Text.breaksBetween · c after) = false)
    {behind : List Char} {words : List (List Char)}
    (cut : ∀ b, Text.pieces (some b) behind = [] :: words) :
    Text.pieces before (w ++ behind) = w :: words := by
  induction w generalizing before with
  | nil => exact absurd rfl part.1
  | cons c w ih =>
    have inside := isSeparator_eq_false part c (List.mem_cons_self ..)
    have later : Text.pieces (some c) (w ++ behind) = w :: words := by
      cases w with
      | nil => exact cut c
      | cons d w =>
        apply ih part.tail
        intro e after eq
        cases eq
        exact breaksBetween_eq_false part after
    rw [List.cons_append, Text.pieces_inside before inside later, joins c _ rfl]
    rfl

theorem pieces_hyphenated {parts : List (List Char)} (part : ∀ w ∈ parts, IsPart w) (b : Char) :
    Text.pieces (some b) (parts.flatMap ('-' :: ·)) = [] :: parts := by
  induction parts generalizing b with
  | nil => rfl
  | cons w ws ih =>
    have behind := ih fun v hv => part v (List.mem_cons_of_mem _ hv)
    rw [List.flatMap_cons, List.cons_append, Text.pieces_separator _ _ rfl]
    congr 1
    apply pieces_part (part w (List.mem_cons_self ..)) _ behind
    intro c after _
    simp [Text.breaksBetween]

/-- The words of a class name are its parts. -/
theorem Spelled.words_eq {name : String} {parts : List (List Char)} (h : Spelled name parts) :
    Text.words name.toList = parts := by
  have filled : parts.filter (fun w => !w.isEmpty) = parts :=
    List.filter_eq_self.mpr fun w hw => by simpa using (h.part w hw).1
  unfold Text.words
  rw [h.text]
  cases parts with
  | nil => rfl
  | cons w ws =>
    have behind := pieces_hyphenated fun v hv => h.part v (List.mem_cons_of_mem _ hv)
    rw [hyphenated, pieces_part (h.part w (List.mem_cons_self ..)) (fun _ _ _ => rfl) behind, filled]

end Naming
end Handoff
