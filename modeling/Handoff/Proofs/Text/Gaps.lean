import Handoff.Proofs.Text.Rows
import Handoff.Text.Lines
/-!
# Indentation and gaps

Indentation puts spaces in front of lines and drops carriage returns at their ends: it changes how wide
the gaps of a text are, and nothing else. `squeeze` makes all gaps equally wide, so a text and the same
text indented cannot be told apart any more.

Results:
* `squeeze_append_congr`: what stands in front of a gap does not see what `squeeze` does not.
* `linesOf_row_eq`: the first line of a text.
* `squeeze_indentChars`: between two line feeds, a text may be indented.
-/
namespace Handoff.Text

/-! ## Gaps -/

/-- A space, or a part of a line end. -/
def isGap (c : Char) : Bool :=
  c == ' ' || c == '\n' || c == '\r'

/-- A text with one space for every run of spaces and line ends. -/
def squeeze : List Char → List Char
  | [] => []
  | c :: rest =>
    if isGap c then if rest.head?.any isGap then squeeze rest else ' ' :: squeeze rest
    else c :: squeeze rest

theorem squeeze_keep {c : Char} (h : isGap c = false) (rest : List Char) :
    squeeze (c :: rest) = c :: squeeze rest := by
  rw [squeeze, if_neg (by simp [h])]

theorem squeeze_gap_gap {c d : Char} (hc : isGap c = true) (hd : isGap d = true) (rest : List Char) :
    squeeze (c :: d :: rest) = squeeze (d :: rest) := by
  rw [squeeze, if_pos hc, List.head?_cons, Option.any_some, if_pos hd]

theorem squeeze_gap {c d : Char} (hc : isGap c = true) (hd : isGap d = true) (rest : List Char) :
    squeeze (c :: rest) = squeeze (d :: rest) := by
  rw [squeeze, squeeze, if_pos hc, if_pos hd]

theorem exists_squeeze_gap {c : Char} (hc : isGap c = true) (rest : List Char) :
    ∃ more, squeeze (c :: rest) = ' ' :: more := by
  induction rest generalizing c with
  | nil => exact ⟨[], by simp [squeeze, hc]⟩
  | cons d rest ih =>
    by_cases hd : isGap d = true
    · rw [squeeze_gap_gap hc hd]
      exact ih hd
    · rw [squeeze, if_pos hc, List.head?_cons, Option.any_some, if_neg hd]
      exact ⟨_, rfl⟩

theorem squeeze_gaps {c : Char} (hc : isGap c = true) {gaps : List Char}
    (all : ∀ d ∈ gaps, isGap d = true) (rest : List Char) :
    squeeze (c :: (gaps ++ rest)) = squeeze (c :: rest) := by
  induction gaps generalizing c with
  | nil => rfl
  | cons d gaps ih =>
    have hd := all d (List.mem_cons_self ..)
    rw [List.cons_append, squeeze_gap_gap hc hd, ih hd fun e he => all e (List.mem_cons_of_mem _ he)]
    exact squeeze_gap hd hc rest

/-- What stands in front of a gap does not see what is not seen from the gap on. -/
theorem squeeze_append_congr {c d : Char} (hc : isGap c = true) (hd : isGap d = true)
    {x y : List Char} (same : squeeze (c :: x) = squeeze (d :: y)) (front : List Char) :
    squeeze (front ++ c :: x) = squeeze (front ++ d :: y) := by
  induction front with
  | nil => exact same
  | cons b front ih =>
    have next : (front ++ c :: x).head?.any isGap = (front ++ d :: y).head?.any isGap := by
      cases front with
      | nil => simp [hc, hd]
      | cons e front => rfl
    rw [List.cons_append, List.cons_append, squeeze, squeeze, ih, next]

/-! ## Indentation -/

theorem isGap_feed : isGap '\n' = true := rfl

theorem squeeze_indentLine (n : Nat) (line rest : List Char) :
    squeeze ('\n' :: (indentLine n line ++ rest)) = squeeze ('\n' :: (line ++ rest)) := by
  unfold indentLine
  split
  · rfl
  · rw [List.append_assoc]
    exact squeeze_gaps isGap_feed (fun d hd => by rw [List.eq_of_mem_replicate hd]; rfl) _

/-- What is put in front of a text goes into its first line, if it holds no line feed and makes no line
end with what the text begins with. -/
theorem linesOf_append {row text line : List Char} {lines : List (List Char)} (plain : '\n' ∉ row)
    (apart : row.getLast? = some '\r' → text.head? ≠ some '\n') (h : linesOf text = line :: lines) :
    linesOf (row ++ text) = (row ++ line) :: lines := by
  induction row with
  | nil => exact h
  | cons c row ih =>
    have keep : c ≠ '\n' := fun eq => plain (eq ▸ List.mem_cons_self ..)
    have rest : '\n' ∉ row := fun mem => plain (List.mem_cons_of_mem _ mem)
    have later : row.getLast? = some '\r' → text.head? ≠ some '\n' := by
      intro ends
      apply apart
      rw [List.getLast?_cons, ends, Option.getD_some]
    have between : ∀ more, c = '\r' → row ++ text ≠ '\n' :: more := by
      rintro more rfl feed
      cases row with
      | nil =>
        rw [List.nil_append] at feed
        exact apart rfl (by rw [feed, List.head?_cons])
      | cons d row => exact rest ((List.cons.inj feed).1 ▸ List.mem_cons_self ..)
    rw [List.cons_append, linesOf, ih rest later]
    · rfl
    · exact keep
    · exact between

/-- A row without the carriage return that would belong to a line end behind it. -/
def withoutReturn (row : List Char) : List Char :=
  if row.getLast? = some '\r' then row.dropLast else row

/-- The first line of a text is its first row without a carriage return at the end. -/
theorem linesOf_row_eq {row : List Char} (h : '\n' ∉ row) (text : List Char) :
    linesOf (row ++ '\n' :: text) = withoutReturn row :: linesOf text := by
  unfold withoutReturn
  split
  · next ends =>
    obtain ⟨line, rfl⟩ := List.getLast?_eq_some_iff.mp ends
    have plain : '\n' ∉ line := fun mem => h (List.mem_append_left _ mem)
    have broken : linesOf ('\r' :: '\n' :: text) = [] :: linesOf text := by rw [linesOf]
    rw [List.append_assoc, List.dropLast_concat, List.singleton_append,
      linesOf_append plain (fun _ => by simp) broken, List.append_nil]
  · next ends =>
    have broken : linesOf ('\n' :: text) = [] :: linesOf text := by rw [linesOf]
    rw [linesOf_append h (fun eq => absurd eq ends) broken, List.append_nil]

/-- The first line of a text, with or without a carriage return at its end. -/
theorem linesOf_row {row : List Char} (h : '\n' ∉ row) (text : List Char) :
    ∃ line, (row = line ∨ row = line ++ ['\r']) ∧
      linesOf (row ++ '\n' :: text) = line :: linesOf text := by
  refine ⟨withoutReturn row, ?_, linesOf_row_eq h text⟩
  unfold withoutReturn
  split
  · next ends =>
    obtain ⟨line, rfl⟩ := List.getLast?_eq_some_iff.mp ends
    exact .inr (by rw [List.dropLast_concat])
  · exact .inl rfl

theorem linesOf_last {row : List Char} (h : '\n' ∉ row) :
    linesOf row = if row = [] then [] else [row] := by
  induction row with
  | nil => rw [linesOf]; rfl
  | cons c row ih =>
    have keep : c ≠ '\n' := fun eq => h (eq ▸ List.mem_cons_self ..)
    have rest : '\n' ∉ row := fun mem => h (List.mem_cons_of_mem _ mem)
    rw [linesOf, ih rest]
    · cases row <;> rfl
    · exact keep
    · rintro rest' - rfl
      exact rest (List.mem_cons_self ..)

/-- Behind the first of several lines there is a gap, whether the others are empty or not. -/
theorem squeeze_joinLines_cons (line : List Char) (lines : List (List Char)) (front rest : List Char) :
    squeeze (front ++ (joinLines (line :: lines) ++ '\n' :: rest)) =
      squeeze (front ++ (line ++ '\n' :: (joinLines lines ++ '\n' :: rest))) := by
  cases lines with
  | nil =>
    rw [← List.append_assoc, ← List.append_assoc]
    exact squeeze_append_congr isGap_feed isGap_feed
      (squeeze_gap_gap isGap_feed isGap_feed rest).symm (front ++ line)
  | cons next lines =>
    rw [joinLines, List.append_assoc, List.cons_append]
    simp

/-- Between two line feeds, a text may be indented. -/
theorem squeeze_indentChars (n : Nat) (text rest : List Char) :
    squeeze ('\n' :: (indentChars n text ++ '\n' :: rest)) =
      squeeze ('\n' :: (text ++ '\n' :: rest)) := by
  induction text using row_induction with
  | last row plain =>
    unfold indentChars
    rw [linesOf_last plain]
    split
    · next empty => rw [empty]; rfl
    · exact squeeze_indentLine n row _
  | more row text plain ih =>
    obtain ⟨line, shape, eq⟩ := linesOf_row plain text
    -- A carriage return at the end of the row goes into the gap of the line feed behind it.
    have kept (x : List Char) :
        squeeze ('\n' :: (line ++ '\n' :: x)) = squeeze ('\n' :: (row ++ '\n' :: x)) := by
      rcases shape with rfl | rfl
      · rfl
      · rw [List.append_assoc]
        exact (squeeze_append_congr rfl isGap_feed (squeeze_gap_gap rfl isGap_feed x)
          ('\n' :: line)).symm
    calc squeeze ('\n' :: (indentChars n (row ++ '\n' :: text) ++ '\n' :: rest))
      _ = squeeze ('\n' :: (indentLine n line ++ '\n' :: (indentChars n text ++ '\n' :: rest))) := by
        rw [indentChars, eq, List.map_cons]
        exact squeeze_joinLines_cons _ _ ['\n'] rest
      _ = squeeze ('\n' :: (line ++ '\n' :: (indentChars n text ++ '\n' :: rest))) :=
        squeeze_indentLine n line _
      _ = squeeze ('\n' :: (line ++ '\n' :: (text ++ '\n' :: rest))) :=
        squeeze_append_congr isGap_feed isGap_feed ih ('\n' :: line)
      _ = squeeze ('\n' :: (row ++ '\n' :: text ++ '\n' :: rest)) := by
        rw [kept, List.append_assoc, List.cons_append]

end Handoff.Text
