import Handoff.Text.Lower
import Mathlib.Data.List.Infix
import Mathlib.Tactic.SplitIfs
/-!
# Parts of a text, whatever their case

In lower case a text does not always have the parts that it had before. A capital sigma is written in
one of two ways, and which one depends on what stands around it, so that a part of a text may look
different on its own; and a dotted capital `İ` becomes two characters, of which the first is a part that
the text did not have. Texts without these two letters are taken to lower case character by character,
and there a word is found in lower case exactly if the text holds it in some case.

Results:
* `toList_lower`: simple texts, character by character.
* `holdsAnyCase_iff`: which words a simple text holds.
-/
namespace Handoff.Text

/-- A text holds a word, in whatever case: some part of the text is the word once both are in lower
case. -/
def HoldsAnyCase (word text : String) : Prop :=
  ∃ part, part <:+: text.toList ∧ lower (String.ofList part) = lower word

/-- A text without the letters whose lower case is not one character, always the same. -/
def Simple (text : String) : Prop := 'Σ' ∉ text.toList ∧ 'İ' ∉ text.toList

instance (text : String) : Decidable (Simple text) := inferInstanceAs (Decidable (_ ∧ _))

/-- The first character of the lower case of a letter. -/
def lowerLetter (c : Char) : Char := (lowerChar c).headD c

theorem lowerChar_eq {c : Char} (h : c ≠ 'İ') : lowerChar c = [lowerLetter c] := by
  unfold lowerLetter lowerChar
  dsimp only
  split_ifs
  · rfl
  · split <;> rfl

theorem lowerAfter_eq {cs : List Char} (simple : ∀ c ∈ cs, c ≠ 'Σ' ∧ c ≠ 'İ') (before : List Char) :
    lowerAfter before cs = cs.map lowerLetter := by
  induction cs generalizing before with
  | nil => rfl
  | cons c cs ih =>
    obtain ⟨⟨sigma, dotted⟩, rest⟩ := List.forall_mem_cons.mp simple
    rw [lowerAfter, if_neg sigma, lowerChar_eq dotted, ih rest, List.map_cons,
      List.singleton_append]

/-- A simple text is taken to lower case character by character. -/
theorem toList_lower {text : List Char} (simple : ∀ c ∈ text, c ≠ 'Σ' ∧ c ≠ 'İ') :
    (lower (String.ofList text)).toList = text.map lowerLetter := by
  rw [lower, String.toList_ofList, String.toList_ofList, lowerAfter_eq simple]

/-- In a simple text the words found in lower case are those that it holds in some case. -/
theorem holdsAnyCase_iff {word text : String} (simple : Simple text) :
    HoldsAnyCase word text ↔ (lower word).toList <:+: (lower text).toList := by
  have each : ∀ c ∈ text.toList, c ≠ 'Σ' ∧ c ≠ 'İ' := fun c hc =>
    ⟨fun sigma => simple.1 (sigma ▸ hc), fun dotted => simple.2 (dotted ▸ hc)⟩
  have whole := toList_lower each
  rw [String.ofList_toList] at whole
  rw [whole, List.infix_map_iff]
  refine exists_congr fun part => and_congr_right fun inside => ?_
  have alike := toList_lower fun c hc => each c (inside.subset hc)
  rw [← alike, String.toList_inj, eq_comm]

theorem holdsAnyCase_of_infix {word text : String} (h : word.toList <:+: text.toList) :
    HoldsAnyCase word text :=
  ⟨word.toList, h, by rw [String.ofList_toList]⟩

end Handoff.Text
