import Handoff.Proofs.Text.Words
import Handoff.Scene.Color
import Handoff.Text.Lines
/-!
# Texts in which no tag begins

A text without an opening bracket can stand anywhere beside markup. Numbers and colors are such texts,
and parts put together are one if each of them is.

Results:
* `Text.holds_intercalate`: what holds of joined texts.
* `Text.tagless_append`, `Text.tagless_intercalate`: parts put together.
* `Number.css_chars`: what a number is written with.
* `Number.tagless_css`, `Color.tagless_css`: what is made of numbers.
-/
namespace Handoff

namespace Text

/-- No tag begins in the text. -/
def Tagless (s : String) : Prop := '<' ∉ s.toList

theorem tagless_of_all {s : String} (h : (s.toList.all fun c => c != '<') = true) : Tagless s :=
  fun mem => absurd (List.all_eq_true.mp h _ mem) (by decide)

@[simp]
theorem tagless_append {a b : String} : Tagless (a ++ b) ↔ Tagless a ∧ Tagless b := by
  rw [Tagless, String.toList_append, List.mem_append, not_or]
  rfl

/-- What holds of parts and of a separator, and of two texts together, holds of the parts joined. -/
theorem holds_intercalate (P : List Char → Prop) (nil : P [])
    (append : ∀ {a b : List Char}, P a → P b → P (a ++ b)) {separator : String} {parts : List String}
    (hs : P separator.toList) (each : ∀ part ∈ parts, P part.toList) :
    P (String.intercalate separator parts).toList := by
  rw [String.toList_intercalate]
  induction parts with
  | nil => exact nil
  | cons part parts ih =>
    have first := each part (List.mem_cons_self ..)
    have later := ih fun p hp => each p (List.mem_cons_of_mem _ hp)
    cases parts with
    | nil => simpa using first
    | cons next parts =>
      rw [List.map_cons, List.map_cons, List.intercalate_cons_cons, ← List.map_cons]
      exact append (append first hs) later

theorem tagless_intercalate {separator : String} {parts : List String} (hs : Tagless separator)
    (each : ∀ part ∈ parts, Tagless part) : Tagless (String.intercalate separator parts) :=
  holds_intercalate (fun cs => '<' ∉ cs) List.not_mem_nil
    (fun ha hb => by rw [List.mem_append, not_or]; exact ⟨ha, hb⟩) hs each

theorem tagless_of_consists {p : Char → Bool} {s : String} (h : Consists p s.toList)
    (low : p '<' = false) : Tagless s := by
  intro mem
  rw [h _ mem] at low
  cases low

theorem tagless_of_subset {a b : List Char} (h : Tagless (String.ofList b)) (sub : a ⊆ b) :
    Tagless (String.ofList a) := by
  unfold Tagless at h ⊢
  rw [String.toList_ofList] at h ⊢
  exact fun mem => h (sub mem)

theorem tagless_trimEnd {s : String} (h : Tagless s) : Tagless (trimEnd s) := by
  refine tagless_of_subset (b := s.toList) (by rwa [String.ofList_toList]) ?_
  intro c hc
  have kept := (List.dropWhile_sublist isBlank).subset (List.mem_reverse.mp hc)
  exact List.mem_reverse.mp kept

theorem tagless_spaces (n : Nat) : Tagless (spaces n) := by
  unfold Tagless spaces
  rw [String.toList_ofList]
  exact fun mem => absurd (List.eq_of_mem_replicate mem) (by decide)

end Text

open Text (Tagless tagless_of_all tagless_append)

/-! ## Numbers -/

namespace Number

/-- Whether a character may stand in a number, or in what stands for one that is none. -/
def isNumberChar (c : Char) : Bool := c.isAlphanum || c == '-' || c == '.'

theorem isNumberChar_of_isDigit {c : Char} (h : c.isDigit = true) : isNumberChar c = true := by
  simp [isNumberChar, Char.isAlphanum, h]

theorem toDigits_chars (n : Nat) : Consists isNumberChar (Nat.toDigits 10 n) :=
  fun _ hc => isNumberChar_of_isDigit (Nat.isDigit_of_mem_toDigits (by decide) (by decide) hc)

theorem toString_chars (n : Nat) : Consists isNumberChar (toString n).toList := by
  rw [Nat.toString_eq_repr, Nat.toList_repr]
  exact toDigits_chars n

theorem fixedQuotient_chars (places num den : Nat) :
    Consists isNumberChar (fixedQuotient places num den).toList := by
  have zeros (n : Nat) : Consists isNumberChar (List.replicate n '0') := fun c hc => by
    rw [List.eq_of_mem_replicate hc]
    rfl
  have point : Consists isNumberChar ".".toList := consists_iff_all.mpr rfl
  unfold fixedQuotient
  simp only [String.toList_append, String.toList_ofList]
  exact ((toString_chars _).append point).append ((zeros _).append (toDigits_chars _))

theorem dropEnd_subset (p : Char → Bool) (cs : List Char) : dropEnd p cs ⊆ cs := by
  intro c hc
  exact List.mem_reverse.mp ((List.dropWhile_sublist p).subset (List.mem_reverse.mp hc))

theorem sign_chars (b : Bool) : Consists isNumberChar (if b then "-" else "").toList := by
  cases b <;> exact consists_iff_all.mpr rfl

theorem thousandths_chars (v : Exact) : Consists isNumberChar (thousandths v).toList := by
  have whole := fixedQuotient_chars 3 v.numerator v.denominator
  unfold thousandths
  dsimp only
  rw [String.toList_append, String.toList_ofList]
  refine (sign_chars _).append fun c hc => whole c ?_
  exact dropEnd_subset _ _ (dropEnd_subset _ _ hc)

/-- A number is written with letters, digits, hyphens and points. -/
theorem css_chars (x : Float) : Consists isNumberChar (css x).toList := by
  unfold css
  split
  · exact consists_iff_all.mpr rfl
  · split <;> exact consists_iff_all.mpr rfl
  · split
    · unfold wholeText
      rw [String.toList_append]
      exact (sign_chars _).append (toString_chars _)
    · exact thousandths_chars _

theorem tagless_toString (n : Nat) : Tagless (toString n) :=
  Text.tagless_of_consists (toString_chars n) rfl

theorem tagless_css (x : Float) : Tagless (css x) :=
  Text.tagless_of_consists (css_chars x) rfl

end Number

theorem Color.tagless_css (c : Color) : Tagless c.css := by
  have number (n : Nat) : Tagless (toString n) := Number.tagless_toString n
  have opening : Tagless "rgba(" := tagless_of_all rfl
  have comma : Tagless ", " := tagless_of_all rfl
  have closing : Tagless ")" := tagless_of_all rfl
  unfold css
  dsimp only
  simp only [tagless_append]
  exact ⟨⟨⟨⟨⟨⟨⟨⟨opening, number _⟩, comma⟩, number _⟩, comma⟩, number _⟩, comma⟩,
    Number.tagless_css _⟩, closing⟩

end Handoff
