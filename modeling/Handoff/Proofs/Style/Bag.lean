import Handoff.Proofs.Keyed
import Handoff.Style.Bag
/-!
# Differences of style bags

The difference of two bags keeps the values that are new or different. Overlaying the difference from a
base on that base gives back the bag. Overlaying it on another variant of the base does not always: a
value that is as in the base is no difference, and what the other variant has made of it stays.

Results:
* `get?_diff`, `get?_overlay`, `keys_overlay`: both operations, value by value and key by key.
* `Varies.overlay_diff`, `Varies.overlay_diff_iff`: one difference, and two from the same base.
-/
namespace Handoff

namespace StyleValue

/-- Values other than lengths compare with lengths as different. -/
theorem px_beq_px (x y : Float) : (StyleValue.px x == StyleValue.px y) = (x == y) := rfl

theorem edges_beq_px (sides : List Float) (y : Float) :
    (StyleValue.edges sides == StyleValue.px y) = false := rfl

end StyleValue

namespace StyleBag

/-- A difference keeps a value unless the other bag has one that compares as equal. -/
@[simp]
theorem get?_diff (a b : StyleBag) (key : String) :
    (diff a b).get? key = (a.get? key).filter fun v => b.get? key != some v :=
  Keyed.get?_filter a _ key

/-- The values of an overlay, and beside them those of the bag below. -/
@[simp]
theorem get?_overlay (a b : StyleBag) (key : String) :
    (overlay a b).get? key = (a.get? key).or (b.get? key) :=
  Keyed.get?_insertAll b a.distinct key

/-- An overlay on the same properties keeps their order. -/
theorem keys_overlay {a b : StyleBag} (subset : ∀ key ∈ a.keys, key ∈ b.keys) :
    (overlay a b).keys = b.keys :=
  Keyed.keys_insertAll_of_subset fun _ he => subset _ (List.mem_map_of_mem he)

theorem overlay_on_empty (a : StyleBag) : overlay a .empty = a :=
  Keyed.insertAll_empty a

theorem overlay_of_isEmpty {a : StyleBag} (empty : a.isEmpty = true) (b : StyleBag) :
    overlay a b = b := by
  have none : a.entries = [] := List.isEmpty_iff.mp empty
  rw [overlay, none]
  rfl

theorem keys_diff_subset (a b : StyleBag) : ∀ key ∈ (diff a b).keys, key ∈ a.keys := by
  intro key h
  obtain ⟨e, he, rfl⟩ := List.mem_map.mp h
  exact List.mem_map_of_mem (List.mem_filter.mp he).1

/-! ## Variants of a bag -/

/-- A bag with the properties of a base, where what compares as equal to the base is equal to it. -/
structure Varies (a base : StyleBag) : Prop where
  keys : a.keys = base.keys
  exact : ∀ key v w, base.get? key = some v → a.get? key = some w → (v == w) = true → w = v

theorem Varies.mem_iff {a base : StyleBag} (varies : Varies a base) {key : String} :
    (∃ w, a.get? key = some w) ↔ ∃ v, base.get? key = some v := by
  rw [← Keyed.mem_keys_iff, ← Keyed.mem_keys_iff, varies.keys]

theorem get?_diff_some {a base : StyleBag} {key : String} {v w : StyleValue}
    (there : base.get? key = some v) (varied : a.get? key = some w) :
    (diff a base).get? key = if (v == w) = true then none else some w := by
  have compared : (some v != some w) = !(v == w) := rfl
  rw [get?_diff, there, varied, Option.filter_some, compared]
  cases v == w <;> rfl

theorem mem_keys_diff_iff {a base : StyleBag} {key : String} {v w : StyleValue}
    (there : base.get? key = some v) (varied : a.get? key = some w) :
    key ∈ (diff a base).keys ↔ (v == w) = false := by
  rw [Keyed.mem_keys_iff, get?_diff_some there varied]
  cases v == w <;> simp

/-- Overlaying a difference on any bag sets what is different. -/
theorem get?_overlay_diff {a base : StyleBag} {key : String} {v w : StyleValue}
    (there : base.get? key = some v) (varied : a.get? key = some w) (bag : StyleBag) :
    (overlay (diff a base) bag).get? key = if (v == w) = true then bag.get? key else some w := by
  rw [get?_overlay, get?_diff_some there varied]
  cases v == w <;> rfl

theorem keys_overlay_diff {a base bag : StyleBag} (varies : Varies a base) (keys : bag.keys = base.keys) :
    (overlay (diff a base) bag).keys = base.keys := by
  have subset : ∀ key ∈ (diff a base).keys, key ∈ bag.keys := by
    intro key h
    rw [keys, ← varies.keys]
    exact keys_diff_subset a base key h
  rw [keys_overlay subset, keys]

theorem ext_base {a b base : StyleBag} (ha : a.keys = base.keys) (hb : b.keys = base.keys)
    (h : ∀ key v, base.get? key = some v → a.get? key = b.get? key) : a = b := by
  apply Keyed.ext_get? (ha.trans hb.symm)
  intro key
  by_cases there : key ∈ base.keys
  · obtain ⟨v, hv⟩ := Keyed.mem_keys_iff.mp there
    exact h key v hv
  · rw [Keyed.get?_eq_none_iff.mpr (ha ▸ there), Keyed.get?_eq_none_iff.mpr (hb ▸ there)]

/-- Overlaying the difference on the base gives back the bag. -/
theorem Varies.overlay_diff {a base : StyleBag} (varies : Varies a base) :
    overlay (diff a base) base = a := by
  apply ext_base (keys_overlay_diff varies rfl) varies.keys
  intro key v there
  obtain ⟨w, varied⟩ := varies.mem_iff.mpr ⟨v, there⟩
  rw [get?_overlay_diff there varied, there, varied]
  split
  · next same => rw [varies.exact key v w there varied same]
  · rfl

/-- Overlaying a second difference from the same base gives the second bag exactly if that one is
different wherever the first one is. -/
theorem Varies.overlay_diff_iff {a b base : StyleBag} (ha : Varies a base) (hb : Varies b base) :
    overlay (diff b base) a = b ↔ ∀ key ∈ (diff a base).keys, key ∈ (diff b base).keys := by
  constructor
  · intro eq key mem
    have present : key ∈ base.keys := ha.keys ▸ keys_diff_subset a base key mem
    obtain ⟨v, there⟩ := Keyed.mem_keys_iff.mp present
    obtain ⟨x, first⟩ := ha.mem_iff.mpr ⟨v, there⟩
    obtain ⟨w, second⟩ := hb.mem_iff.mpr ⟨v, there⟩
    rw [mem_keys_diff_iff there first] at mem
    rw [mem_keys_diff_iff there second]
    apply Bool.of_not_eq_true
    intro same
    -- The second bag leaves the value as it is, so what is in force is the first bag's.
    have kept := get?_overlay_diff there second a
    rw [eq, second, if_pos same, first] at kept
    rw [← Option.some.inj kept, same] at mem
    cases mem
  · intro subset
    apply ext_base (keys_overlay_diff hb ha.keys) hb.keys
    intro key v there
    obtain ⟨x, first⟩ := ha.mem_iff.mpr ⟨v, there⟩
    obtain ⟨w, second⟩ := hb.mem_iff.mpr ⟨v, there⟩
    rw [get?_overlay_diff there second, second]
    split
    · next same =>
      have silent : (v == x) = true := by
        apply Bool.of_not_eq_false
        intro changed
        have mem := subset key ((mem_keys_diff_iff there first).mpr changed)
        rw [mem_keys_diff_iff there second, same] at mem
        cases mem
      rw [first, ha.exact key v x there first silent, hb.exact key v w there second same]
    · rfl

end StyleBag
end Handoff
