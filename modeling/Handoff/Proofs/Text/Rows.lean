/-!
# Rows of a text

The rows of a text are what its line feeds divide it into; there is one more of them than there are
line feeds. `Stand` says that given lines are rows of a text, in their order, whatever stands between
them. Text put in at the end of a row leaves all rows that were there (`rows_sublist_insert`), and a
line that stands in a text gives a place in it (`Stand.place`). `mem_rows_framed_iff` looks for a row in a
text between two others.
-/
namespace Handoff.Text

open scoped List

/-- What the line feeds of a text divide it into. -/
def rows (text : List Char) : List (List Char) :=
  text.splitOn '\n'

@[simp]
theorem rows_append_newline (before after : List Char) :
    rows (before ++ '\n' :: after) = rows before ++ rows after :=
  List.splitOn_append_cons_self before after

theorem rows_of_not_mem {text : List Char} (h : '\n' ∉ text) : rows text = [text] :=
  List.splitOn_eq_singleton h

theorem rows_not_mem_append_newline {row : List Char} (h : '\n' ∉ row) (after : List Char) :
    rows (row ++ '\n' :: after) = row :: rows after := by
  rw [rows_append_newline, rows_of_not_mem h, List.singleton_append]

theorem row_induction {motive : List Char → Prop} (last : ∀ row, '\n' ∉ row → motive row)
    (more : ∀ row text, '\n' ∉ row → motive text → motive (row ++ '\n' :: text))
    (text : List Char) : motive text := by
  by_cases feed : '\n' ∈ text
  · obtain ⟨row, rest, split, plain⟩ := List.eq_append_cons_of_mem feed
    have shorter : rest.length < text.length := by
      rw [split, List.length_append, List.length_cons]
      omega
    rw [split]
    exact more row rest plain (row_induction last more rest)
  · exact last text feed
termination_by text.length

theorem subset_of_mem_rows {row text : List Char} (h : row ∈ rows text) : row ⊆ text := by
  induction text using row_induction with
  | last last plain =>
    rw [rows_of_not_mem plain, List.mem_singleton] at h
    rw [h]
    exact List.Subset.refl _
  | more first text plain ih =>
    rw [rows_not_mem_append_newline plain, List.mem_cons] at h
    rcases h with rfl | later
    · exact List.subset_append_left _ _
    · exact fun c hc => List.mem_append_right _ (List.mem_cons_of_mem _ (ih later hc))

/-- A text is at the end of a row: nothing is left, or a line feed comes next. -/
def EndsRow (text : List Char) : Prop :=
  text = [] ∨ ∃ more, text = '\n' :: more

/-- A text that leads up to the beginning of a row. -/
def BeginsRow (before : List Char) : Prop :=
  before = [] ∨ ∃ front, before = front ++ ['\n']

/-- What is put in at the end of a row, behind a line feed, leaves all rows. -/
theorem rows_sublist_insert (before piece : List Char) {after : List Char} (h : EndsRow after) :
    rows (before ++ after) <+ rows (before ++ '\n' :: piece ++ after) := by
  rcases h with rfl | ⟨more, rfl⟩
  · simp
  · simp only [List.append_assoc, List.cons_append, rows_append_newline]
    exact (List.Sublist.refl _).append (List.sublist_append_right _ _)

theorem rows_intercalate (first : List Char) (rest : List (List Char)) :
    rows (['\n'].intercalate (first :: rest)) = (first :: rest).flatMap rows := by
  induction rest generalizing first with
  | nil => simp
  | cons second rest ih =>
    rw [List.intercalate_cons_cons, List.append_assoc, List.singleton_append, rows_append_newline,
      ih, ← List.flatMap_cons]

theorem mem_rows_intercalate {row : List Char} {first : String} {rest : List String} :
    row ∈ rows (String.intercalate "\n" (first :: rest)).toList ↔
      ∃ text ∈ first :: rest, row ∈ rows text.toList := by
  have feed : "\n".toList = ['\n'] := rfl
  rw [String.toList_intercalate, List.map_cons, feed, rows_intercalate, ← List.map_cons,
    List.flatMap_map, List.mem_flatMap]

/-! ## Rows of a framed text -/

/-- A row of a text that does not end as the text does has a line feed behind it. -/
theorem feeds_infix_of_mem_rows {row text back : List Char} (single : '\n' ∉ back)
    (apart : ¬back <:+ row) (h : row ∈ rows (text ++ back)) :
    '\n' :: row ++ ['\n'] <:+: '\n' :: text := by
  induction text using row_induction with
  | last last plain =>
    have alone : '\n' ∉ last ++ back := by
      rw [List.mem_append, not_or]
      exact ⟨plain, single⟩
    rw [rows_of_not_mem alone, List.mem_singleton] at h
    exact absurd ⟨last, h.symm⟩ apart
  | more first text plain ih =>
    rw [List.append_assoc, List.cons_append, rows_not_mem_append_newline plain, List.mem_cons] at h
    rcases h with rfl | later
    · exact ⟨[], text, by simp⟩
    · exact (ih later).trans ((List.suffix_append _ _).trans (List.suffix_cons _ _)).isInfix

/-- A row that neither begins as a frame does nor ends as it does is one of what stands in the frame, with
a line feed before and behind it. -/
theorem mem_rows_framed_iff {row front text back : List Char} (plain : '\n' ∉ front ++ row ++ back)
    (begins : ¬front <+: row) (ends : ¬back <:+ row) :
    row ∈ rows (front ++ text ++ back) ↔ '\n' :: row ++ ['\n'] <:+: text := by
  simp only [List.mem_append, not_or] at plain
  obtain ⟨⟨plainFront, plainRow⟩, plainBack⟩ := plain
  constructor
  · intro h
    by_cases feed : '\n' ∈ text
    · obtain ⟨first, rest, rfl, alone⟩ := List.eq_append_cons_of_mem feed
      have single : '\n' ∉ front ++ first := by
        rw [List.mem_append, not_or]
        exact ⟨plainFront, alone⟩
      rw [← List.append_assoc, List.append_assoc, List.cons_append, rows_not_mem_append_newline single,
        List.mem_cons] at h
      rcases h with rfl | later
      · exact absurd (List.prefix_append front first) begins
      · exact (feeds_infix_of_mem_rows plainBack ends later).trans (List.suffix_append _ _).isInfix
    · have single : '\n' ∉ front ++ text ++ back := by
        simp only [List.mem_append, not_or]
        exact ⟨⟨plainFront, feed⟩, plainBack⟩
      rw [rows_of_not_mem single, List.mem_singleton] at h
      exact absurd ⟨text ++ back, by rw [h, List.append_assoc]⟩ begins
  · rintro ⟨before, after, rfl⟩
    have split : front ++ (before ++ ('\n' :: row ++ ['\n']) ++ after) ++ back =
        (front ++ before) ++ '\n' :: (row ++ '\n' :: (after ++ back)) := by simp
    rw [split, rows_append_newline, rows_not_mem_append_newline plainRow]
    exact List.mem_append_right _ (List.mem_cons_self ..)

/-! ## Lines that stand in a text -/

/-- Each of the lines is a row of the text, in their order. -/
def Stand (lines : List String) (text : List Char) : Prop :=
  lines.map String.toList <+ rows text

theorem Stand.nil (text : List Char) : Stand [] text :=
  List.nil_sublist _

theorem Stand.of_cons {line : String} {lines : List String} {text : List Char}
    (h : Stand (line :: lines) text) : Stand lines text :=
  List.sublist_of_cons_sublist h

theorem Stand.prepend {lines : List String} {text : List Char} (h : Stand lines text)
    (before : List Char) : Stand lines (before ++ '\n' :: text) := by
  unfold Stand
  rw [rows_append_newline]
  exact h.trans (List.sublist_append_right _ _)

/-- What is put in at the end of a row leaves the lines where they stand. -/
theorem Stand.insert {lines : List String} {before after : List Char}
    (h : Stand lines (before ++ after)) (ends : EndsRow after) (piece : List Char) :
    Stand lines (before ++ '\n' :: piece ++ after) :=
  h.trans (rows_sublist_insert before piece ends)

theorem map_toList_sublist_flatMap_rows {lines all : List String} (sub : lines <+ all)
    (plain : ∀ line ∈ lines, '\n' ∉ line.toList) :
    lines.map String.toList <+ (all.map String.toList).flatMap rows := by
  induction sub with
  | slnil => exact .slnil
  | cons other _ ih => exact (ih plain).trans (List.sublist_append_right _ _)
  | cons_cons line _ ih =>
    rw [List.forall_mem_cons] at plain
    rw [List.map_cons, List.map_cons, List.flatMap_cons, rows_of_not_mem plain.1]
    exact (ih plain.2).cons_cons _

/-- Lines without line feeds stand in a text that is put together from them and others. -/
theorem Stand.joined {lines all : List String} (sub : lines <+ all)
    (plain : ∀ line ∈ lines, '\n' ∉ line.toList) :
    Stand lines (String.intercalate "\n" all).toList := by
  cases all with
  | nil =>
    rw [List.sublist_nil.mp sub]
    exact .nil _
  | cons first rest =>
    have list := map_toList_sublist_flatMap_rows sub plain
    rw [List.map_cons, ← rows_intercalate, ← List.map_cons] at list
    rw [String.toList_intercalate]
    exact list

/-- A line that stands in a text gives a place in it, from the beginning of a row to its end. The
lines after it stand in everything that ends with what comes behind that place. -/
theorem Stand.place {line : String} {lines : List String} {text : List Char}
    (h : Stand (line :: lines) text) :
    ∃ before rest, text = before ++ (line.toList ++ rest) ∧ BeginsRow before ∧ EndsRow rest ∧
      ∀ after, rest <:+ after → Stand lines after := by
  induction text using row_induction with
  | last row plain =>
    unfold Stand at h
    rw [rows_of_not_mem plain, List.map_cons] at h
    obtain ⟨rfl, none⟩ := List.cons.inj (h.eq_of_length_le (by simp))
    obtain rfl := List.map_eq_nil_iff.mp none
    exact ⟨[], [], (List.append_nil _).symm, .inl rfl, .inl rfl, fun after _ => .nil after⟩
  | more row text plain ih =>
    unfold Stand at h
    rw [rows_not_mem_append_newline plain, List.map_cons] at h
    cases h with
    | cons _ later =>
      obtain ⟨before, rest, rfl, begins, ends, behind⟩ := ih later
      refine ⟨row ++ '\n' :: before, rest, by simp, .inr ?_, ends, behind⟩
      rcases begins with rfl | ⟨front, rfl⟩
      · exact ⟨row, rfl⟩
      · exact ⟨row ++ '\n' :: front, by simp⟩
    | cons_cons _ later =>
      refine ⟨[], '\n' :: text, rfl, .inl rfl, .inr ⟨text, rfl⟩, ?_⟩
      rintro _ ⟨front, rfl⟩
      exact Stand.prepend later front

end Handoff.Text
