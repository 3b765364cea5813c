import Handoff.Proofs.Keyed.History
import Handoff.Proofs.Number.Order
import Handoff.Proofs.Style.Bag
/-!
# Rebuilding a bag from a difference

Setting the entries of a difference on the bag that it was taken from rebuilds the other bag, as far as
numbers tell: an entry that compares as equal is no difference, so a zero may keep the sign it has in the
bag below. Nothing smaller will do. An entry of the difference that is left out leaves a value that
compares as different, or none.

Results:
* `IsNumeric.beq_self`: values are equal to themselves if all their numbers are numbers.
* `rebuilds_diff`, `Rebuilds.keys_diff_subset`: a difference rebuilds, and all of it is needed.
* `keepsOrder_and_rebuilds`: bags as ordered maps, and what differences do.
-/
namespace Handoff

/-! ## Numeric values -/

namespace StyleValue

/-- All numbers of a value are numbers. -/
def IsNumeric : StyleValue → Prop
  | .px x | .number x => x.isNaN = false
  | .color c => c.r.isNaN = false ∧ c.g.isNaN = false ∧ c.b.isNaN = false ∧ c.a.isNaN = false
  | .edges sides => ∀ x ∈ sides, x.isNaN = false
  | .keyword _ => True

instance : DecidablePred IsNumeric
  | .px x | .number x => inferInstanceAs (Decidable (x.isNaN = false))
  | .color c => inferInstanceAs (Decidable
      (c.r.isNaN = false ∧ c.g.isNaN = false ∧ c.b.isNaN = false ∧ c.a.isNaN = false))
  | .edges sides => inferInstanceAs (Decidable (∀ x ∈ sides, x.isNaN = false))
  | .keyword _ => inferInstanceAs (Decidable True)

theorem sides_beq_self {sides : List Float} (h : ∀ x ∈ sides, x.isNaN = false) :
    (sides == sides) = true := by
  induction sides with
  | nil => rfl
  | cons x sides ih =>
    rw [List.cons_beq_cons, Bool.and_eq_true]
    exact ⟨Number.beq_self_iff.mpr (h x (List.mem_cons_self ..)),
      ih fun y hy => h y (List.mem_cons_of_mem _ hy)⟩

/-- Numeric values are equal to themselves. -/
theorem IsNumeric.beq_self {v : StyleValue} (h : v.IsNumeric) : (v == v) = true := by
  cases v with
  | px x => exact Number.beq_self_iff.mpr h
  | number x => exact Number.beq_self_iff.mpr h
  | color c =>
    obtain ⟨r, g, b, a⟩ := h
    show (c.r == c.r && (c.g == c.g && (c.b == c.b && c.a == c.a))) = true
    rw [Number.beq_self_iff.mpr r, Number.beq_self_iff.mpr g, Number.beq_self_iff.mpr b,
      Number.beq_self_iff.mpr a]
    rfl
  | edges sides => exact sides_beq_self h
  | keyword text => exact beq_self_eq_true text

end StyleValue

namespace StyleBag

/-- All values of a bag are numeric. -/
def IsNumeric (bag : StyleBag) : Prop := ∀ key v, bag.get? key = some v → v.IsNumeric

theorem isNumeric_of_entries {bag : StyleBag} (h : ∀ e ∈ bag.entries, e.2.IsNumeric) : bag.IsNumeric :=
  fun key v there => h (key, v) (Keyed.get?_eq_some_iff.mp there)

theorem IsNumeric.beq_self {bag : StyleBag} (h : bag.IsNumeric) (key : String) :
    (bag.get? key == bag.get? key) = true := by
  cases there : bag.get? key with
  | none => rfl
  | some v => exact (h key v there).beq_self

/-! ## Rebuilding -/

/-- A bag whose entries, set on `b`, give what `a` has for the properties of `a`, and what `b` has for
all others. -/
structure Rebuilds (d a b : StyleBag) : Prop where
  own : ∀ key ∈ a.keys, ((overlay d b).get? key == a.get? key) = true
  others : ∀ key, key ∉ a.keys → ((overlay d b).get? key == b.get? key) = true

variable {a b d : StyleBag}

/-- The entries of a difference are those of the bag that the other bag does not have. -/
theorem get?_diff_eq_some_iff {key : String} {v : StyleValue} :
    (diff a b).get? key = some v ↔ a.get? key = some v ∧ (b.get? key == some v) = false := by
  rw [get?_diff, Option.filter_eq_some_iff, bne, Bool.not_eq_true']

/-- A difference rebuilds the bag on the bag that it was taken from. -/
theorem rebuilds_diff (ha : a.IsNumeric) (hb : b.IsNumeric) : Rebuilds (diff a b) a b where
  own := by
    intro key mem
    obtain ⟨v, there⟩ := Keyed.mem_keys_iff.mp mem
    rw [get?_overlay]
    cases same : b.get? key == some v with
    | false =>
      rw [get?_diff_eq_some_iff.mpr ⟨there, same⟩, there]
      exact (ha key v there).beq_self
    | true =>
      have silent : (diff a b).get? key = none := by
        rw [get?_diff, there, Option.filter_some, bne, same]
        rfl
      rw [silent, there]
      exact same
  others := by
    intro key absent
    have silent : (diff a b).get? key = none := by
      rw [get?_diff, Keyed.get?_eq_none_iff.mpr absent]
      rfl
    rw [get?_overlay, silent]
    exact hb.beq_self key

theorem get?_overlay_diff_eq (a b : StyleBag) (key : String) :
    (overlay (diff a b) b).get? key = if key ∈ (diff a b).keys then a.get? key else b.get? key := by
  rw [get?_overlay]
  split
  · next mem =>
    obtain ⟨v, differs⟩ := Keyed.mem_keys_iff.mp mem
    rw [differs, (get?_diff_eq_some_iff.mp differs).1]
    rfl
  · next absent => rw [Keyed.get?_eq_none_iff.mpr absent, Option.none_or]

/-- What rebuilds a bag has all properties of the difference. -/
theorem Rebuilds.keys_diff_subset (h : Rebuilds d a b) : ∀ key ∈ (diff a b).keys, key ∈ d.keys := by
  intro key mem
  obtain ⟨v, differs⟩ := Keyed.mem_keys_iff.mp mem
  obtain ⟨there, different⟩ := get?_diff_eq_some_iff.mp differs
  by_contra absent
  have same := h.own key (Keyed.mem_keys_iff.mpr ⟨v, there⟩)
  rw [get?_overlay, Keyed.get?_eq_none_iff.mpr absent, Option.none_or, there, different] at same
  cases same

theorem size_eq (bag : StyleBag) : bag.size = bag.keys.length :=
  (List.length_map Prod.fst).symm

theorem Rebuilds.size_diff_le (h : Rebuilds d a b) : (diff a b).size ≤ d.size := by
  rw [size_eq, size_eq]
  exact (List.subperm_of_subset (diff a b).distinct h.keys_diff_subset).length_le

theorem isEmpty_diff_iff :
    (diff a b).isEmpty = true ↔ ∀ e ∈ a.entries, (b.get? e.1 == some e.2) = true := by
  have unfolded : (diff a b).isEmpty = true ↔
      a.entries.filter (fun e => b.get? e.1 != some e.2) = [] := List.isEmpty_iff
  rw [unfolded, List.filter_eq_nil_iff]
  simp only [bne, Bool.not_eq_true', Bool.not_eq_false]

/-- Bags are ordered maps, and differences rebuild. After any history of settings and removals a bag has
each property that is set and not removed any more, once, with the value set last; and the properties
stand in the order in which they were set first since their removal. The difference of two bags changes
nothing but its own properties when it is set on the second bag; it rebuilds the first one there, which no
smaller bag does; it is empty exactly if there is nothing to rebuild, and it keeps the order. -/
theorem keepsOrder_and_rebuilds :
    (∀ edits : List (Keyed.Edit StyleValue),
      (Keyed.edited edits).keys.Nodup ∧
      (∀ key v, (Keyed.edited edits).get? key = some v ↔
        ∃ i, IsGreatest (Keyed.settings edits key) i ∧ edits[i]? = some (.set key v)) ∧
      (Keyed.edited edits).keys.Pairwise (Keyed.EntersBefore edits)) ∧
    ∀ a b : StyleBag, a.IsNumeric → b.IsNumeric →
      Rebuilds (diff a b) a b ∧
      (∀ key, (overlay (diff a b) b).get? key =
        if key ∈ (diff a b).keys then a.get? key else b.get? key) ∧
      ((diff a b).isEmpty = true ↔ ∀ e ∈ a.entries, (b.get? e.1 == some e.2) = true) ∧
      (∀ d, Rebuilds d a b → (diff a b).size ≤ d.size) ∧
      (diff a b).entries.Sublist a.entries := by
  refine ⟨fun edits => ?_, fun a b ha hb => ?_⟩
  · exact ⟨(Keyed.edited edits).distinct, Keyed.get?_edited edits, Keyed.keys_edited_pairwise edits⟩
  · exact ⟨rebuilds_diff ha hb, get?_overlay_diff_eq a b, isEmpty_diff_iff, fun _ h => h.size_diff_le,
      List.filter_sublist⟩

/-- The styles of a heading, zeros of both signs among them. -/
def headingStyles : StyleBag :=
  .ofList [(Property.padding, .edges [0, 8, -0, 8]), (Property.fontSize, .px 24),
    (Property.color, .color .black)]

/-- The styles of the heading in small type, the zeros with other signs. -/
def smallHeadingStyles : StyleBag :=
  .ofList [(Property.padding, .edges [-0, 8, 0, 8]), (Property.fontSize, .px 16),
    (Property.color, .color .black)]

/-- Of the small heading, the type is all that there is to rebuild. -/
theorem keepsOrder_and_rebuilds_heading :
    (smallHeadingStyles.IsNumeric ∧ headingStyles.IsNumeric) ∧
      Rebuilds (diff smallHeadingStyles headingStyles) smallHeadingStyles headingStyles ∧
      (diff smallHeadingStyles headingStyles).keys = [Property.fontSize] := by
  have small : smallHeadingStyles.IsNumeric := isNumeric_of_entries (by decide +kernel)
  have large : headingStyles.IsNumeric := isNumeric_of_entries (by decide +kernel)
  exact ⟨⟨small, large⟩, (keepsOrder_and_rebuilds.2 _ _ small large).1, by decide +kernel⟩

end StyleBag
end Handoff
