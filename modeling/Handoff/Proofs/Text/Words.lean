import Handoff.Classification
import Handoff.Naming
import Mathlib
/-!
# What generated names are made of

Words are cut out of a name and joined again, so a joined name holds no characters but those of the
name, in small or capital letters, and hyphens. Names of classes, bindings and components all start
from `Naming.wordsOnly`, which keeps ASCII letters and digits only. Lemmas on the two cases of these letters
come with the whole of Mathlib, and with none of its parts.

Results:
* `flatten_words`: the words of a name hold what does not separate words, in order.
* `kebab_chars`, `camel_chars`, `pascal_chars`: what the three ways to join words keep.
* `ClassNamer.next_chars`: class names are letters, digits and hyphens.
* `Naming.componentName_chars`: names of components are letters and digits.
-/
namespace Handoff

/-! ## Letters -/

theorem isAlphanum_toLower {c : Char} (h : c.isAlphanum = true) : c.toLower.isAlphanum = true := by
  by_cases upper : c.isUpper = true
  · have letter : c.toLower.isAlpha = true := by
      rw [Char.isAlpha_toLower_eq_isAlpha, Char.isAlpha, upper, Bool.true_or]
    rw [Char.isAlphanum, letter, Bool.true_or]
  · rwa [Char.toLower_eq_of_not_isUpper upper]

theorem isAlphanum_toUpper {c : Char} (h : c.isAlphanum = true) : c.toUpper.isAlphanum = true := by
  by_cases lower : c.isLower = true
  · have letter : c.toUpper.isAlpha = true := by
      rw [Char.isAlpha_toUpper_eq_isAlpha, Char.isAlpha, lower, Bool.or_true]
    rw [Char.isAlphanum, letter, Bool.true_or]
  · rwa [Char.toUpper_eq_of_not_isLower lower]

theorem toNat_of_isAlphanum {c : Char} (h : c.isAlphanum = true) :
    (65 ≤ c.toNat ∧ c.toNat ≤ 90) ∨ (97 ≤ c.toNat ∧ c.toNat ≤ 122) ∨
      (48 ≤ c.toNat ∧ c.toNat ≤ 57) := by
  simp only [Char.isAlphanum, Char.isAlpha, Char.isUpper, Char.isLower, Char.isDigit,
    Bool.or_eq_true, Bool.and_eq_true, decide_eq_true_eq, UInt32.le_iff_toNat_le, ge_iff_le] at h
  change ((65 ≤ c.toNat ∧ c.toNat ≤ 90) ∨ (97 ≤ c.toNat ∧ c.toNat ≤ 122)) ∨
    (48 ≤ c.toNat ∧ c.toNat ≤ 57) at h
  rwa [or_assoc] at h

/-- Whether a character may stand in a class name. -/
def isNameChar (c : Char) : Bool := c.isAlphanum || c == '-'

theorem isNameChar_of_isAlphanum {c : Char} (h : c.isAlphanum = true) : isNameChar c = true := by
  unfold isNameChar
  rw [h]
  rfl

/-- Whether all characters of a text satisfy a condition. -/
def Consists (p : Char → Bool) (cs : List Char) : Prop := ∀ c ∈ cs, p c = true

theorem consists_iff_all {p : Char → Bool} {cs : List Char} : Consists p cs ↔ cs.all p = true :=
  List.all_eq_true.symm

theorem Consists.cons {p : Char → Bool} {c : Char} {cs : List Char} (hc : p c = true)
    (h : Consists p cs) : Consists p (c :: cs) := by
  intro d hd
  rcases List.mem_cons.mp hd with rfl | hd
  · exact hc
  · exact h d hd

theorem Consists.tail {p : Char → Bool} {c : Char} {cs : List Char} (h : Consists p (c :: cs)) :
    Consists p cs :=
  fun d hd => h d (List.mem_cons_of_mem _ hd)

theorem Consists.head {p : Char → Bool} {c : Char} {cs : List Char} (h : Consists p (c :: cs)) :
    p c = true :=
  h c (List.mem_cons_self ..)

theorem consists_nil (p : Char → Bool) : Consists p [] := fun _ h => by cases h

theorem Consists.append {p : Char → Bool} {a b : List Char} (ha : Consists p a) (hb : Consists p b) :
    Consists p (a ++ b) :=
  fun c hc => (List.mem_append.mp hc).elim (ha c) (hb c)

namespace Text

/-! ## Words -/

theorem pieces_separator (before : Option Char) {c : Char} (rest : List Char)
    (separates : isSeparator c = true) : pieces before (c :: rest) = [] :: pieces (some c) rest := by
  rw [pieces]
  simp [separates]

theorem pieces_inside (before : Option Char) {c : Char} {rest word : List Char}
    {words : List (List Char)} (inside : isSeparator c = false)
    (later : pieces (some c) rest = word :: words) :
    pieces before (c :: rest) =
      if before.any (breaksBetween · c rest.head?) then [] :: (c :: word) :: words
      else (c :: word) :: words := by
  rw [pieces]
  simp [inside, later]

theorem exists_pieces (before : Option Char) (cs : List Char) :
    ∃ word words, pieces before cs = word :: words := by
  induction cs generalizing before with
  | nil => exact ⟨[], [], rfl⟩
  | cons c rest ih =>
    obtain ⟨word, words, later⟩ := ih (some c)
    by_cases separates : isSeparator c = true
    · exact ⟨_, _, pieces_separator before rest separates⟩
    · rw [pieces_inside before (Bool.eq_false_iff.mpr separates) later]
      split
      · exact ⟨_, _, rfl⟩
      · exact ⟨_, _, rfl⟩

/-- Only what separates words is lost where a text is cut, wherever that is. -/
theorem flatten_pieces (before : Option Char) (cs : List Char) :
    (pieces before cs).flatten = cs.filter fun c => !isSeparator c := by
  induction cs generalizing before with
  | nil => rfl
  | cons c rest ih =>
    by_cases separates : isSeparator c = true
    · rw [pieces_separator before rest separates, List.flatten_cons, ih,
        List.filter_cons_of_neg (by simp [separates]), List.nil_append]
    · have inside := Bool.eq_false_iff.mpr separates
      obtain ⟨word, words, later⟩ := exists_pieces (some c) rest
      have joined : ((c :: word) :: words).flatten = (c :: rest).filter fun c => !isSeparator c := by
        rw [List.filter_cons_of_pos (by simp [inside]), ← ih (some c), later]
        rfl
      rw [pieces_inside before inside later]
      split
      · exact joined
      · exact joined

/-- The words of a name hold what does not separate words, in order. -/
theorem flatten_words (cs : List Char) : (words cs).flatten = cs.filter fun c => !isSeparator c := by
  unfold words
  rw [List.flatten_filter_not_isEmpty, flatten_pieces]

theorem mem_of_mem_words {name w : List Char} (h : w ∈ words name) :
    ∀ c ∈ w, c ∈ name ∧ isSeparator c = false := by
  intro c hc
  have inside : c ∈ (words name).flatten := List.mem_flatten.mpr ⟨w, h, hc⟩
  rw [flatten_words, List.mem_filter, Bool.not_eq_true'] at inside
  exact inside

/-- Whether a character is a letter, a digit or what separates words. -/
def isWordChar (c : Char) : Bool := c.isAlphanum || isSeparator c

/-- A name of letters, digits and what separates words. -/
def Worded (name : String) : Prop := Consists isWordChar name.toList

theorem words_chars {name : String} (h : Worded name) :
    ∀ w ∈ words name.toList, Consists Char.isAlphanum w := by
  intro w hw c hc
  obtain ⟨mem, separates⟩ := mem_of_mem_words hw c hc
  have kept := h c mem
  unfold isWordChar at kept
  rwa [separates, Bool.or_false] at kept

theorem small_chars {w : List Char} (h : Consists Char.isAlphanum w) :
    Consists Char.isAlphanum (small w) := by
  intro c hc
  obtain ⟨d, hd, rfl⟩ := List.mem_map.mp hc
  exact isAlphanum_toLower (h d hd)

theorem capital_chars {w : List Char} (h : Consists Char.isAlphanum w) :
    Consists Char.isAlphanum (capital w) := by
  cases w with
  | nil => exact h
  | cons c rest => exact (small_chars h.tail).cons (isAlphanum_toUpper h.head)

theorem capitals_chars {ws : List (List Char)} (h : ∀ w ∈ ws, Consists Char.isAlphanum w) :
    Consists Char.isAlphanum (ws.flatMap capital) := by
  intro c hc
  obtain ⟨w, hw, hc⟩ := List.mem_flatMap.mp hc
  exact capital_chars (h w hw) c hc

theorem kebabWords_chars {ws : List (List Char)} (h : ∀ w ∈ ws, Consists Char.isAlphanum w) :
    Consists isNameChar (kebabWords ws) := by
  have word {w : List Char} (hw : w ∈ ws) : Consists isNameChar (small w) :=
    fun c hc => isNameChar_of_isAlphanum (small_chars (h w hw) c hc)
  induction ws with
  | nil => exact consists_nil _
  | cons w rest ih =>
    cases rest with
    | nil => exact word (List.mem_cons_self ..)
    | cons v rest =>
      have later : Consists isNameChar (kebabWords (v :: rest)) :=
        ih (fun w hw => h w (List.mem_cons_of_mem _ hw)) fun hw => word (List.mem_cons_of_mem _ hw)
      exact (word (List.mem_cons_self ..)).append (.cons rfl later)

theorem kebab_chars {name : String} (h : Worded name) : Consists isNameChar (kebab name).toList := by
  unfold kebab
  rw [String.toList_ofList]
  exact kebabWords_chars (words_chars h)

theorem pascal_chars {name : String} (h : Worded name) :
    Consists Char.isAlphanum (pascal name).toList := by
  unfold pascal
  rw [String.toList_ofList]
  exact capitals_chars (words_chars h)

theorem head_capitals {ws : List (List Char)} {c : Char} {rest : List Char}
    (h : ws.flatMap capital = c :: rest) : ∃ d : Char, c = d.toUpper := by
  induction ws with
  | nil => cases h
  | cons w ws ih =>
    cases w with
    | nil => exact ih h
    | cons d w => exact ⟨d, (List.cons.inj h).1.symm⟩

theorem camel_chars {name : String} (h : Worded name) :
    Consists Char.isAlphanum (camel name).toList := by
  have words := words_chars h
  unfold camel
  split
  · exact consists_nil _
  · next first rest eq =>
    rw [eq] at words
    rw [String.toList_ofList]
    exact (small_chars (words first (List.mem_cons_self ..))).append
      (capitals_chars fun w hw => words w (List.mem_cons_of_mem _ hw))

theorem worded_of_isNameChar {name : String} (h : Consists isNameChar name.toList) : Worded name := by
  intro c hc
  have kept := h c hc
  unfold isNameChar at kept
  unfold isWordChar
  rw [Bool.or_eq_true] at kept ⊢
  rcases kept with kept | hyphen
  · exact .inl kept
  · rw [beq_iff_eq] at hyphen
    subst hyphen
    exact .inr rfl

end Text

/-! ## Names -/

namespace Naming

theorem spaced_chars (cs : List Char) : Consists Text.isWordChar (spaced cs) := by
  fun_induction spaced cs with
  | case1 => exact consists_nil _
  | case2 c rest kept ih =>
    refine ih.cons ?_
    unfold Text.isWordChar
    rw [show c.isAlphanum = true from kept]
    rfl
  | case3 c dropped => exact (consists_nil _).cons rfl
  | case4 c dropped d rest kept ih => exact ih.cons rfl
  | case5 c dropped d rest kept ih => exact ih

theorem wordsOnly_worded (name : String) : Text.Worded (wordsOnly name) := by
  unfold Text.Worded wordsOnly
  rw [String.toList_ofList]
  intro c hc
  apply spaced_chars name.toList c
  have inner := (List.dropWhile_sublist (fun c => c == ' ')).subset (List.mem_reverse.mp hc)
  exact (List.dropWhile_sublist (fun c => c == ' ')).subset (List.mem_reverse.mp inner)

/-- Names of components are letters and digits. -/
theorem componentName_chars (name : String) : Consists Char.isAlphanum (componentName name).toList := by
  have pascal := Text.pascal_chars (wordsOnly_worded name)
  have usual : Consists Char.isAlphanum "Component".toList := by
    rw [consists_iff_all]
    decide +kernel
  unfold componentName
  dsimp only
  split
  · exact usual
  · split
    · rw [String.toList_append]
      exact usual.append pascal
    · exact pascal

theorem componentName_letter (name : String) :
    ∃ first rest, (componentName name).toList = first :: rest ∧ first.isAlpha = true := by
  have chars := componentName_chars name
  unfold componentName at chars ⊢
  dsimp only at chars ⊢
  split at chars
  · exact ⟨'C', _, rfl, rfl⟩
  · next first rest eq =>
    split at chars
    · next digit =>
      rw [if_pos digit, String.toList_append]
      exact ⟨'C', _, rfl, rfl⟩
    · next letter =>
      rw [if_neg letter]
      refine ⟨first, rest, eq, ?_⟩
      have kept := chars first (eq ▸ List.mem_cons_self ..)
      rw [Char.isAlphanum, Bool.or_eq_true] at kept
      exact kept.resolve_right letter

theorem componentName_capital (name : String) :
    ∃ first rest, (componentName name).toList = first :: rest ∧ first.isUpper = true := by
  have chars := Text.pascal_chars (wordsOnly_worded name)
  unfold componentName
  dsimp only
  split
  · exact ⟨'C', _, rfl, rfl⟩
  · next first rest eq =>
    split
    · rw [String.toList_append]
      exact ⟨'C', _, rfl, rfl⟩
    · next digit =>
      refine ⟨first, rest, eq, ?_⟩
      have letter := chars first (eq ▸ List.mem_cons_self ..)
      rw [Char.isAlphanum, Bool.or_eq_true] at letter
      replace letter := letter.resolve_right digit
      rw [Text.pascal, String.toList_ofList] at eq
      obtain ⟨d, rfl⟩ := Text.head_capitals eq
      rw [Char.isUpper_toUpper_eq_isAlpha]
      rwa [Char.isAlpha_toUpper_eq_isAlpha] at letter

theorem moduleBinding_chars {className : String} (h : Consists isNameChar className.toList) :
    Consists Char.isAlphanum (moduleBinding className).toList :=
  Text.camel_chars (Text.worded_of_isNameChar h)

end Naming

namespace ClassNamer

theorem hyphen_chars : Consists isNameChar "-".toList :=
  consists_iff_all.mpr rfl

theorem base_chars (name : String) {fallback : String} (h : Text.Worded fallback) :
    Consists isNameChar (base name fallback).toList := by
  have own := Text.kebab_chars (Naming.wordsOnly_worded name)
  have other := Text.kebab_chars h
  have first : Consists isNameChar
      (if (Text.kebab (Naming.wordsOnly name)).isEmpty then Text.kebab fallback
        else Text.kebab (Naming.wordsOnly name)).toList := by
    split
    · exact other
    · exact own
  unfold base
  dsimp only
  split
  · split
    · rw [String.toList_append, String.toList_append]
      exact (other.append hyphen_chars).append first
    · exact first
  · exact first

theorem numbered_chars {base : String} (h : Consists isNameChar base.toList) (n : Nat) :
    Consists isNameChar (numbered base n).toList := by
  unfold numbered
  rw [String.toList_append, String.toList_append, Nat.toString_eq_repr, Nat.toList_repr]
  refine (h.append hyphen_chars).append fun c hc => ?_
  have digit : c.isDigit = true := Nat.isDigit_of_mem_toDigits (by decide) (by decide) hc
  apply isNameChar_of_isAlphanum
  unfold Char.isAlphanum
  rw [digit, Bool.or_true]

/-- Class names are letters, digits and hyphens. -/
theorem next_chars (namer : ClassNamer) (name : String) {fallback : String}
    (h : Text.Worded fallback) : Consists isNameChar (namer.next name fallback).1.toList := by
  have own := base_chars name h
  unfold next
  generalize base name fallback = b at own ⊢
  dsimp only
  split
  · exact numbered_chars own _
  · exact own

end ClassNamer

theorem Category.label_worded (c : Category) : Text.Worded c.label := by
  rw [Text.Worded, consists_iff_all]
  cases c <;> decide +kernel

end Handoff
