import Handoff.Proofs.Text.Indent
/-!
# Joined lines, pushed right

Indentation takes a text apart into lines, pushes each of them right and joins them again. On a text that
was joined from lines in the first place, that comes to pushing each of these lines right, with two
exceptions: a blank line stays where it is, and a carriage return at the end of a line is lost.

Results:
* `linesOf_joinLines`: the lines of joined lines.
* `indentChars_joinLines_eq_iff`: which joined lines are pushed right and otherwise stay as they are.
-/
namespace Handoff.Text

/-! ## Texts of one row -/

/-- No line feed stands in a text. -/
def OneRow (s : String) : Prop := '\n' ∉ s.toList

instance (s : String) : Decidable (OneRow s) := inferInstanceAs (Decidable (¬_))

theorem oneRow_of_all {s : String} (h : (s.toList.all fun c => c != '\n') = true) : OneRow s :=
  fun feed => absurd (List.all_eq_true.mp h _ feed) (by decide)

@[simp]
theorem oneRow_append {a b : String} : OneRow (a ++ b) ↔ OneRow a ∧ OneRow b := by
  rw [OneRow, String.toList_append, List.mem_append, not_or]
  rfl

theorem oneRow_spaces (n : Nat) : OneRow (spaces n) := by
  unfold OneRow spaces
  rw [String.toList_ofList]
  exact fun feed => absurd (List.eq_of_mem_replicate feed) (by decide)

theorem spaces_add (m n : Nat) : spaces (m + n) = spaces n ++ spaces m := by
  unfold spaces
  rw [← String.ofList_append, List.replicate_append_replicate, Nat.add_comm]

/-- A text without a line break: no line feed stands in it, and no carriage return at its end, where a
line feed behind the text would make it a part of a line end. -/
def Unbroken (s : String) : Prop := OneRow s ∧ s.toList.getLast? ≠ some '\r'

instance (s : String) : Decidable (Unbroken s) := inferInstanceAs (Decidable (_ ∧ _))

/-! ## Joined lines -/

theorem joinLines_cons {lines : List (List Char)} (some : lines ≠ []) (line : List Char) :
    joinLines (line :: lines) = line ++ '\n' :: joinLines lines := by
  cases lines with
  | nil => exact absurd rfl some
  | cons next lines => rw [joinLines]; exact List.cons_ne_nil next lines

theorem joinLines_eq_intercalate (lines : List (List Char)) :
    joinLines lines = ['\n'].intercalate lines := by
  induction lines with
  | nil => rfl
  | cons line lines ih =>
    cases lines with
    | nil => exact List.intercalate_singleton.symm
    | cons next lines =>
      rw [joinLines_cons (List.cons_ne_nil next lines), ih, List.intercalate_cons_cons,
        List.append_assoc, List.singleton_append]

/-- Joined lines can be told apart again, if no line feed stands in them. -/
theorem joinLines_inj {a b : List (List Char)} (someA : a ≠ []) (someB : b ≠ [])
    (plainA : ∀ line ∈ a, '\n' ∉ line) (plainB : ∀ line ∈ b, '\n' ∉ line) :
    joinLines a = joinLines b ↔ a = b := by
  refine ⟨fun same => ?_, congrArg joinLines⟩
  rw [joinLines_eq_intercalate, joinLines_eq_intercalate] at same
  rw [← List.splitOn_intercalate '\n' plainA someA, same, List.splitOn_intercalate '\n' plainB someB]

/-- The lines of joined lines: each without a carriage return at its end, but for the last one, behind
which there is no line feed. -/
theorem linesOf_joinLines {lines : List (List Char)} {last : List Char}
    (plain : ∀ line ∈ lines, '\n' ∉ line) (single : '\n' ∉ last) (some : last ≠ []) :
    linesOf (joinLines (lines ++ [last])) = lines.map withoutReturn ++ [last] := by
  induction lines with
  | nil =>
    rw [List.nil_append, joinLines, linesOf_last single, if_neg some]
    rfl
  | cons line lines ih =>
    rw [List.forall_mem_cons] at plain
    have more : lines ++ [last] ≠ [] := List.append_ne_nil_of_right_ne_nil _ (List.cons_ne_nil last [])
    rw [List.cons_append, joinLines_cons more, linesOf_row_eq plain.1, ih plain.2]
    rfl

/-! ## Lines pushed right -/

/-- A line that indentation pushes right and leaves alone otherwise: it does not end in a carriage
return, and it is not blank, unless no spaces go before it. -/
def Shifts (n : Nat) (line : List Char) : Prop :=
  line.getLast? ≠ some '\r' ∧ (n = 0 ∨ line.all isBlank = false)

instance (n : Nat) (line : List Char) : Decidable (Shifts n line) :=
  inferInstanceAs (Decidable (_ ∧ (_ ∨ _)))

theorem shifts_concat (n : Nat) (front : List Char) {c : Char} (solid : isBlank c = false) :
    Shifts n (front ++ [c]) := by
  constructor
  · rw [List.getLast?_concat]
    rintro ⟨⟩
    exact absurd solid (by decide)
  · rw [List.all_append, List.all_cons, solid, Bool.false_and, Bool.and_false]
    exact .inr rfl

theorem shifts_spaces_iff (n m : Nat) (s : String) :
    Shifts n (spaces m ++ s).toList ↔ Shifts n s.toList := by
  have blank : (List.replicate m ' ').all isBlank = true :=
    List.all_eq_true.mpr fun c hc => by rw [List.eq_of_mem_replicate hc]; rfl
  have last : (List.replicate m ' ' ++ s.toList).getLast? = some '\r' ↔ s.toList.getLast? = some '\r' := by
    rcases List.eq_nil_or_concat' s.toList with none | ⟨front, c, eq⟩
    · rw [none, List.append_nil]
      exact iff_of_false
        (fun ends => absurd (List.eq_of_mem_replicate (List.mem_of_getLast? ends)) (by decide)) (by simp)
    · rw [eq, ← List.append_assoc, List.getLast?_concat, List.getLast?_concat]
  unfold Shifts spaces
  rw [String.toList_append, String.toList_ofList, List.all_append, blank, Bool.true_and, Ne, last]

theorem indentLine_eq_iff (n : Nat) (line : List Char) :
    indentLine n line = List.replicate n ' ' ++ line ↔ n = 0 ∨ line.all isBlank = false := by
  unfold indentLine
  by_cases blank : line.all isBlank = true
  · have stays : line = List.replicate n ' ' ++ line ↔ n = 0 := by
      refine ⟨fun eq => ?_, by rintro rfl; rfl⟩
      have lengths := congrArg List.length eq
      rw [List.length_append, List.length_replicate] at lengths
      omega
    rw [if_pos blank, stays, blank]
    simp
  · rw [if_neg blank]
    simp [Bool.of_not_eq_true blank]

theorem indentLine_withoutReturn_eq_iff (n : Nat) (line : List Char) :
    indentLine n (withoutReturn line) = List.replicate n ' ' ++ line ↔ Shifts n line := by
  unfold withoutReturn Shifts
  split
  · next ends =>
    obtain ⟨front, rfl⟩ := List.getLast?_eq_some_iff.mp ends
    rw [List.dropLast_concat]
    refine iff_of_false (fun same => ?_) (fun shifts => shifts.1 ends)
    -- Whether the line moves or not, the carriage return is missing on the left.
    have lengths := congrArg List.length same
    unfold indentLine at lengths
    split at lengths <;> simp only [List.length_append, List.length_replicate, List.length_cons,
      List.length_nil] at lengths <;> omega
  · next ends => rw [indentLine_eq_iff, iff_and_self]; exact fun _ => ends

theorem withoutReturn_subset (line : List Char) : withoutReturn line ⊆ line := by
  unfold withoutReturn
  split
  · exact List.dropLast_subset line
  · exact List.Subset.refl _

/-- Joined lines of which the last one is pushed right: all of them are, and nothing else happens to
them, exactly if no other line ends in a carriage return or is blank. -/
theorem indentChars_joinLines_eq_iff (n : Nat) {lines : List (List Char)} {last : List Char}
    (plain : ∀ line ∈ lines ++ [last], '\n' ∉ line) (ends : ∀ m, Shifts m last) :
    indentChars n (joinLines (lines ++ [last])) =
        joinLines ((lines ++ [last]).map (List.replicate n ' ' ++ ·)) ↔
      ∀ line ∈ lines, Shifts n line := by
  have some : last ≠ [] := by
    rintro rfl
    exact absurd (ends 1) (by decide)
  have kept : indentLine n last = List.replicate n ' ' ++ last :=
    (indentLine_eq_iff n last).mpr (ends n).2
  have single : '\n' ∉ last := plain last (by simp)
  have others : ∀ line ∈ lines, '\n' ∉ line := fun line mem => plain line (List.mem_append_left _ mem)
  have pushed : ∀ line ∈ (lines ++ [last]).map (List.replicate n ' ' ++ ·), '\n' ∉ line :=
    List.forall_mem_map.mpr fun line mem => not_mem_replicate_append (plain line mem)
  have indented : ∀ line ∈ lines.map (indentLine n ∘ withoutReturn) ++ [List.replicate n ' ' ++ last],
      '\n' ∉ line := by
    rw [List.forall_mem_append, List.forall_mem_map, List.forall_mem_singleton]
    refine ⟨fun line mem => not_mem_indentLine ?_, not_mem_replicate_append single⟩
    exact fun feed => others line mem (withoutReturn_subset line feed)
  rw [indentChars, linesOf_joinLines others single some, List.map_append, List.map_map,
    List.map_singleton, kept, joinLines_inj (by simp) (by simp) indented pushed, List.map_append,
    List.map_singleton, List.append_left_inj, List.map_inj_left]
  exact forall₂_congr fun line _ => indentLine_withoutReturn_eq_iff n line

end Handoff.Text
