import Handoff.Proofs.Number.Order
import Handoff.Utility.Scale
import Mathlib.Tactic.Simproc.ExistsAndEq
/-!
# Snapping to the nearest step

A value snaps to the first of the nearest steps among those that are near enough. A step that is not
near enough is farther away than all that are, so this is the first of the nearest steps in the whole
table. Nothing is asked of the table: its steps may stand in any order, names may be empty or occur
twice, and a step may have no number at all.

The search keeps the first of the nearest steps that it has seen (`FirstLeast.append`); by induction, so
does a search through any table.

Results:
* `le_tolerance_iff`: the bounds on the distance of a step.
* `least_firstLeast`: what the search ends with.
* `FirstLeast.of_filter`: leaving out what is too far away makes no difference.
* `FirstNearest.unique`: a table has one first of the nearest steps.
* `snap?_firstNearest`: when a value snaps to a step, and to which.
-/
namespace Handoff.UtilityScale
open Number (place le_iff_place lt_iff_place place_eq_top_iff place_ne_top_iff)

/-! ## Distances -/

/-- Whether a distance is at most another. What is not a number is farther than all numbers. -/
def NoFarther (x y : Float) : Prop := x ≤ y ∨ y.isNaN = true

theorem noFarther_iff {x y : Float} : NoFarther x y ↔ place x ≤ place y := by
  rw [NoFarther, le_iff_place, ← place_eq_top_iff]
  by_cases top : place y = ⊤
  · exact iff_of_true (.inr top) (top ▸ le_top)
  · rw [or_iff_left top, and_iff_left top]

theorem not_noFarther_iff {x y : Float} : ¬NoFarther x y ↔ place y < place x := by
  rw [noFarther_iff, not_le]

/-- A step is near enough if one of the two bounds allows for its distance. -/
theorem le_tolerance_iff (scale : UtilityScale) (value x : Float) :
    x ≤ scale.tolerance value ↔ x ≤ scale.tolerancePx ∨ x ≤ scale.toleranceRatio * value.abs :=
  Number.le_larger_iff

/-! ## The search -/

/-- The first of the entries whose number is least. -/
def FirstLeast (entries : List (String × Float)) (e : String × Float) : Prop :=
  ∃ before after, entries = before ++ e :: after ∧
    (∀ f ∈ before, ¬NoFarther f.2 e.2) ∧ ∀ f ∈ after, NoFarther e.2 f.2

theorem FirstLeast.noFarther {entries : List (String × Float)} {e : String × Float}
    (h : FirstLeast entries e) : ∀ f ∈ entries, NoFarther e.2 f.2 := by
  obtain ⟨before, after, rfl, first, rest⟩ := h
  intro f hf
  rcases List.mem_append.mp hf with earlier | later
  · exact noFarther_iff.mpr (not_noFarther_iff.mp (first f earlier)).le
  · rcases List.mem_cons.mp later with rfl | later
    · exact noFarther_iff.mpr le_rfl
    · exact rest f later

/-- One entry more: the search keeps the first of the least. -/
theorem FirstLeast.append {entries : List (String × Float)} {best : String × Float}
    (h : FirstLeast entries best) (number : best.2.isNaN = false) (e : String × Float) :
    FirstLeast (entries ++ [e]) (if e.2 < best.2 then e else best) := by
  split
  · next below =>
    refine ⟨entries, [], rfl, fun f hf => not_noFarther_iff.mpr ?_, fun f hf => by cases hf⟩
    exact (lt_iff_place.mp below).1.trans_le (noFarther_iff.mp (h.noFarther f hf))
  · next above =>
    obtain ⟨before, after, rfl, first, rest⟩ := h
    refine ⟨before, after ++ [e], by simp, first, fun f hf => ?_⟩
    rcases List.mem_append.mp hf with earlier | last
    · exact rest f earlier
    · rw [List.mem_singleton.mp last, noFarther_iff]
      rw [lt_iff_place, not_and_not_right] at above
      exact le_of_not_gt fun lt => place_ne_top_iff.mpr number (above lt)

/-- The search through a list, begun with the first of the least of what stands in front of it. -/
theorem FirstLeast.search {entries : List (String × Float)} {best : String × Float}
    (h : FirstLeast entries best) (number : best.2.isNaN = false) (rest : List (String × Float)) :
    FirstLeast (entries ++ rest) (rest.foldl (fun best e => if e.2 < best.2 then e else best) best) := by
  induction rest generalizing entries best with
  | nil => rwa [List.append_nil]
  | cons e rest ih =>
    have next := h.append number e
    have still : (if e.2 < best.2 then e else best).2.isNaN = false := by
      split
      · next below =>
        exact place_ne_top_iff.mp (lt_iff_place.mp below).1.ne_top
      · exact number
    rw [List.foldl_cons, ← List.singleton_append, ← List.append_assoc]
    exact ih next still

/-- The search ends with the first of the least, if it begins with a number. -/
theorem least_firstLeast {entries : List (String × Float)} {e : String × Float}
    (numbers : ∀ f ∈ entries, f.2.isNaN = false) (h : least entries = some e) :
    FirstLeast entries e := by
  cases entries with
  | nil => cases h
  | cons first rest =>
    cases h
    have alone : FirstLeast [first] first := ⟨[], [], rfl, by simp, by simp⟩
    exact alone.search (numbers first (List.mem_cons_self ..)) rest

theorem isSome_least (entries : List (String × Float)) : (least entries).isSome = !entries.isEmpty := by
  cases entries <;> rfl

/-! ## Steps that are too far away -/

/-- The first of the least entries up to a bound is the first of the least of all entries. -/
theorem FirstLeast.of_filter {entries : List (String × Float)} {bound : Float} {e : String × Float}
    (h : FirstLeast (entries.filter fun e => e.2 ≤ bound) e) : FirstLeast entries e := by
  obtain ⟨before, after, split, first, rest⟩ := h
  obtain ⟨start, more, rfl, rfl, cut⟩ := List.filter_eq_append_iff.mp split
  obtain ⟨gap, stop, rfl, beyond, near, rfl⟩ := List.filter_eq_cons_iff.mp cut
  have far {f : String × Float} (h : ¬f.2 ≤ bound) : ¬NoFarther f.2 e.2 := by
    obtain ⟨near, top⟩ := le_iff_place.mp (of_decide_eq_true near)
    rw [le_iff_place, not_and_not_right] at h
    exact not_noFarther_iff.mpr (near.trans_lt (not_le.mp fun le => top (h le)))
  refine ⟨start ++ gap, stop, by simp, fun f hf => ?_, fun f hf => ?_⟩
  · rcases List.mem_append.mp hf with hf | hf
    · by_cases within : f.2 ≤ bound
      · exact first f (List.mem_filter.mpr ⟨hf, decide_eq_true within⟩)
      · exact far within
    · exact far fun within => beyond f hf (decide_eq_true within)
  · by_cases within : f.2 ≤ bound
    · exact rest f (List.mem_filter.mpr ⟨hf, decide_eq_true within⟩)
    · exact noFarther_iff.mpr (not_noFarther_iff.mp (far within)).le

/-! ## Snapping -/

/-- A name belongs to the first entry of a table whose step is nearest to a value. -/
def FirstNearest (steps : Steps) (value : Float) (name : String) : Prop :=
  ∃ before step after, steps = before ++ (name, step) :: after ∧
    (∀ e ∈ steps, NoFarther (distance step value) (distance e.2 value)) ∧
    ∀ e ∈ before, ¬NoFarther (distance e.2 value) (distance step value)

/-- The names of the steps with the distances of the steps. -/
def distances (steps : Steps) (value : Float) : List (String × Float) :=
  steps.map fun e => (e.1, distance e.2 value)

theorem firstNearest_of_firstLeast {steps : Steps} {value : Float} {e : String × Float}
    (h : FirstLeast (distances steps value) e) : FirstNearest steps value e.1 := by
  have all (f : String × Float) (hf : f ∈ steps) : NoFarther e.2 (distance f.2 value) :=
    h.noFarther (f.1, distance f.2 value) (List.mem_map.mpr ⟨f, hf, rfl⟩)
  obtain ⟨before, after, split, first, -⟩ := h
  obtain ⟨start, more, rfl, rfl, cut⟩ := List.map_eq_append_iff.mp split
  obtain ⟨⟨name, step⟩, stop, rfl, rfl, rfl⟩ := List.map_eq_cons_iff.mp cut
  refine ⟨start, step, stop, rfl, all, fun f hf => ?_⟩
  exact first (f.1, distance f.2 value) (List.mem_map.mpr ⟨f, hf, rfl⟩)

theorem snap?_eq (scale : UtilityScale) (steps : Steps) (value : Float) :
    scale.snap? steps value =
      (least ((distances steps value).filter fun e => e.2 ≤ scale.tolerance value)).map Prod.fst := rfl

/-- No more than one name belongs to the first of the nearest steps. -/
theorem FirstNearest.unique {steps : Steps} {value : Float} {a b : String}
    (ha : FirstNearest steps value a) (hb : FirstNearest steps value b) : a = b := by
  obtain ⟨before, step, after, rfl, nearest, first⟩ := ha
  obtain ⟨before', step', after', eq, nearest', first'⟩ := hb
  -- Of two nearest entries, neither can stand in front of the other.
  rcases List.append_eq_append_iff.mp eq with ⟨gap, rfl, rest⟩ | ⟨gap, rfl, rest⟩
  · cases gap with
    | nil => cases rest; rfl
    | cons e gap =>
      cases rest
      exact absurd (nearest (b, step') (by simp)) (first' (a, step) (by simp))
  · cases gap with
    | nil => cases rest; rfl
    | cons e gap =>
      cases rest
      exact absurd (nearest' (a, step) (by simp)) (first (b, step') (by simp))

/-- Some step of a table is near enough to a value, as one of the two bounds has it. -/
def IsNear (scale : UtilityScale) (steps : Steps) (value : Float) : Prop :=
  ∃ e ∈ steps, distance e.2 value ≤ scale.tolerancePx ∨
    distance e.2 value ≤ scale.toleranceRatio * value.abs

theorem isNear_iff (scale : UtilityScale) (steps : Steps) (value : Float) :
    IsNear scale steps value ↔ ∃ name, scale.snap? steps value = some name := by
  unfold IsNear
  simp only [← le_tolerance_iff]
  rw [← Option.isSome_iff_exists, snap?_eq, Option.isSome_map, isSome_least]
  simp [List.filter_eq_nil_iff, distances]

/-- The step that a value snaps to is the first of those nearest to it in the whole table. -/
theorem firstNearest_of_snap? {scale : UtilityScale} {steps : Steps} {value : Float} {name : String}
    (snapped : scale.snap? steps value = some name) : FirstNearest steps value name := by
  rw [snap?_eq] at snapped
  obtain ⟨e, found, rfl⟩ := Option.map_eq_some_iff.mp snapped
  refine firstNearest_of_firstLeast (least_firstLeast (fun f hf => ?_) found).of_filter
  have near := of_decide_eq_true (List.mem_filter.mp hf).2
  obtain ⟨le, top⟩ := le_iff_place.mp near
  exact place_ne_top_iff.mp (le.trans_lt (WithTop.lt_top_iff_ne_top.mpr top)).ne_top

/-- A value snaps to a step exactly if some step of the table is near enough, and then to the first of the
steps nearest to it in the whole table. -/
theorem snap?_firstNearest (scale : UtilityScale) (steps : Steps) (value : Float) :
    ((∃ name, scale.snap? steps value = some name) ↔ IsNear scale steps value) ∧
    ∀ name, scale.snap? steps value = some name ↔
      IsNear scale steps value ∧ FirstNearest steps value name := by
  have near := isNear_iff scale steps value
  refine ⟨near.symm, fun name => ⟨fun snapped => ?_, fun ⟨reached, nearest⟩ => ?_⟩⟩
  · exact ⟨near.mpr ⟨name, snapped⟩, firstNearest_of_snap? snapped⟩
  · obtain ⟨other, snapped⟩ := near.mp reached
    rw [snapped, (firstNearest_of_snap? snapped).unique nearest]

/-- Of two steps equally near, the first one in the table counts, whichever is smaller. -/
example : standard.snap? [("large", 12), ("small", 8)] 10 = some "large" := by decide +kernel

end Handoff.UtilityScale
