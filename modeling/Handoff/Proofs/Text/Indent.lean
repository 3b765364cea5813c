import Handoff.Proofs.Text.Gaps
import Mathlib.Data.List.Basic
/-!
# What indentation leaves

Indentation works line by line. A text that stands within one line stands in the indented text too
(`infix_indentChars`), and every row of an indented text is blank or begins with the indentation
(`mem_rows_indentChars`).
-/
namespace Handoff.Text

theorem infix_of_concat {piece text : List Char} {last : Char} (without : last ∉ piece)
    (h : piece <:+: text ++ [last]) : piece <:+: text := by
  rcases List.infix_concat_iff.mp h with at' | inside
  · rcases List.suffix_concat_iff.mp at' with rfl | ⟨front, rfl, -⟩
    · exact List.nil_infix
    · exact absurd (List.mem_append_right _ (List.mem_singleton_self last)) without
  · exact inside

/-- What stands in a text and crosses no line feed stands before or behind it. -/
theorem infix_row_or {piece row text : List Char} (plain : '\n' ∉ piece)
    (h : piece <:+: row ++ '\n' :: text) : piece <:+: row ∨ piece <:+: text := by
  obtain ⟨before, after, eq⟩ := h
  rcases List.append_eq_append_iff.mp eq with ⟨rest, split, -⟩ | ⟨rest, split, tail⟩
  · exact .inl ⟨before, rest, split.symm⟩
  · cases rest with
    | nil => exact .inl ⟨before, [], by rw [List.append_nil, split, List.append_nil]⟩
    | cons c rest =>
      obtain ⟨rfl, rfl⟩ := List.cons.inj tail
      -- The piece ends behind the line feed, so that it begins there too: it would hold it otherwise.
      have crossed : before ++ piece = row ++ ['\n'] ++ rest := by rw [split]; simp
      rcases List.append_eq_append_iff.mp crossed with ⟨more, front, inside⟩ | ⟨more, -, inside⟩
      · rcases List.eq_nil_or_concat' more with rfl | ⟨more, last, rfl⟩
        · exact .inr ⟨[], after, by rw [inside]; rfl⟩
        · rw [← List.append_assoc] at front
          obtain ⟨-, feed⟩ := List.append_inj' front rfl
          exact absurd (by rw [inside, ← feed]; simp) plain
      · exact .inr ⟨more, after, by rw [← inside]; rfl⟩

theorem indentChars_last (n : Nat) {row : List Char} (plain : '\n' ∉ row) :
    indentChars n row = indentLine n row := by
  unfold indentChars
  rw [linesOf_last plain]
  split
  · next empty => rw [empty]; rfl
  · rfl

/-- The first line of a text is indented by itself; the others follow behind a line feed, if there are
others. -/
theorem indentChars_row (n : Nat) {row : List Char} (plain : '\n' ∉ row) (text : List Char) :
    ∃ line, (row = line ∨ row = line ++ ['\r']) ∧
      (indentChars n (row ++ '\n' :: text) = indentLine n line ∧ linesOf text = [] ∨
        indentChars n (row ++ '\n' :: text) = indentLine n line ++ '\n' :: indentChars n text) := by
  obtain ⟨line, shape, eq⟩ := linesOf_row plain text
  refine ⟨line, shape, ?_⟩
  unfold indentChars
  rw [eq, List.map_cons]
  cases linesOf text with
  | nil => exact .inl ⟨rfl, rfl⟩
  | cons next lines => exact .inr rfl

theorem line_suffix_indentLine (n : Nat) (line : List Char) : line <:+ indentLine n line := by
  unfold indentLine
  split
  · exact List.suffix_rfl
  · exact List.suffix_append _ _

theorem indentChars_of_linesOf_eq_nil {n : Nat} {text : List Char} (h : linesOf text = []) :
    indentChars n text = [] := by
  rw [indentChars, h]
  rfl

/-- What stands within one line stands in the indented text. -/
theorem infix_indentChars {n : Nat} {piece text : List Char} (plain : '\n' ∉ piece)
    (unbroken : '\r' ∉ piece) (h : piece <:+: text) : piece <:+: indentChars n text := by
  induction text using row_induction with
  | last row alone =>
    rw [indentChars_last n alone]
    exact h.trans (line_suffix_indentLine n row).isInfix
  | more row text alone ih =>
    obtain ⟨line, shape, eq⟩ := indentChars_row n alone text
    rcases infix_row_or plain h with first | later
    · have within : piece <:+: line := by
        rcases shape with rfl | rfl
        · exact first
        · exact infix_of_concat unbroken first
      have indented := within.trans (line_suffix_indentLine n line).isInfix
      rcases eq with ⟨eq, -⟩ | eq
      · rw [eq]
        exact indented
      · rw [eq]
        exact indented.trans (List.prefix_append _ _).isInfix
    · rcases eq with ⟨-, none⟩ | eq
      · have found := ih later
        rw [indentChars_of_linesOf_eq_nil none, List.infix_nil] at found
        rw [found]
        exact List.nil_infix
      · rw [eq]
        exact (ih later).trans ((List.suffix_cons _ _).trans (List.suffix_append _ _)).isInfix

/-- A row of an indented text: nothing but blanks, or text behind the indentation. -/
def Indented (n : Nat) (row : List Char) : Prop :=
  row.all isBlank = true ∨ List.replicate n ' ' <+: row

theorem indented_indentLine (n : Nat) (line : List Char) : Indented n (indentLine n line) := by
  unfold indentLine
  split
  · next blank => exact .inl blank
  · exact .inr (List.prefix_append _ _)

theorem not_mem_replicate_append {n : Nat} {line : List Char} (plain : '\n' ∉ line) :
    '\n' ∉ List.replicate n ' ' ++ line := by
  intro mem
  rcases List.mem_append.mp mem with space | mem
  · cases List.eq_of_mem_replicate space
  · exact plain mem

theorem not_mem_indentLine {n : Nat} {line : List Char} (plain : '\n' ∉ line) :
    '\n' ∉ indentLine n line := by
  unfold indentLine
  split
  · exact plain
  · exact not_mem_replicate_append plain

theorem rows_indentLine {n : Nat} {line : List Char} (plain : '\n' ∉ line) :
    rows (indentLine n line) = [indentLine n line] :=
  rows_of_not_mem (not_mem_indentLine plain)

/-- Every row of an indented text is blank or begins with the indentation. -/
theorem mem_rows_indentChars {n : Nat} {text row : List Char} (h : row ∈ rows (indentChars n text)) :
    Indented n row := by
  induction text using row_induction with
  | last first alone =>
    rw [indentChars_last n alone, rows_indentLine alone, List.mem_singleton] at h
    rw [h]
    exact indented_indentLine n first
  | more first text alone ih =>
    obtain ⟨line, shape, eq⟩ := indentChars_row n alone text
    have plain : '\n' ∉ line := by
      rcases shape with rfl | rfl
      · exact alone
      · exact fun mem => alone (List.mem_append_left _ mem)
    rcases eq with ⟨eq, -⟩ | eq
    · rw [eq, rows_indentLine plain, List.mem_singleton] at h
      rw [h]
      exact indented_indentLine n line
    · rw [eq, rows_append_newline, rows_indentLine plain, List.mem_append, List.mem_singleton] at h
      rcases h with rfl | later
      · exact indented_indentLine n line
      · exact ih later

end Handoff.Text
