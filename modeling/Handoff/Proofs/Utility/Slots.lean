import Handoff.Proofs.Number.Equality
import Handoff.Proofs.Style.Bag
import Handoff.Utility.Class
import Mathlib.Tactic.SplitIfs
/-!
# What utility classes set

A class sets one slot or several: a property as a whole, or the padding of some sides. The last class
of a list that sets a slot decides about it. Padding that no class sets is zero.

Results:
* `given_classes`: what the classes of a bag set comes from the value of one property.
* `settings_of_beq`: values that compare as equal set the same.
* `given_side`: the padding of each side.
-/
namespace Handoff

inductive Side where
  | top
  | right
  | bottom
  | left
deriving DecidableEq

/-- The length of a side, of four in the order of a style value. -/
def Side.of (top right bottom left : Float) : Side → Float
  | .top => top
  | .right => right
  | .bottom => bottom
  | .left => left

theorem Side.of_apply (sides : Side → Float) (side : Side) :
    side.of (sides .top) (sides .right) (sides .bottom) (sides .left) = sides side := by
  cases side <;> rfl

/-- What a class can set. -/
inductive Slot where
  /-- A property as a whole. -/
  | property (name : String)
  /-- The padding of one side. -/
  | side (side : Side)
deriving DecidableEq

/-- The property that a slot belongs to. -/
def Slot.key : Slot → String
  | .property name => name
  | .side _ => Property.padding

/-- Whether the classes for some sides set a side. -/
def PaddingSides.covers : PaddingSides → Side → Bool
  | .all, _ => true
  | .vertical, side => side == .top || side == .bottom
  | .horizontal, side => side == .right || side == .left
  | .top, side => side == .top
  | .right, side => side == .right
  | .bottom, side => side == .bottom
  | .left, side => side == .left

namespace UtilityScale

/-- The length that the size of a padding class stands for. -/
def paddingText (scale : UtilityScale) : ClassSize → String
  | .step name => ((scale.spacing.lookup name).map StyleValue.pxText).getD name
  | .px x => StyleValue.pxText x
  | .number x => Number.css x

/-- What a class sets a slot to, if it sets it. Of other classes than those for padding the name tells
what they set their property to. -/
def setting? (scale : UtilityScale) : UtilityClass → Slot → Option String
  | .padding sides size, .side side => if sides.covers side then some (scale.paddingText size) else none
  | .padding _ _, .property _ => none
  | _, .side _ => none
  | c, .property name => if c.property = name then some c.text else none

/-- What a list of classes sets a slot to: the last class that sets it decides. -/
def given? (scale : UtilityScale) (cs : List UtilityClass) (slot : Slot) : Option String :=
  (cs.filterMap fun c => scale.setting? c slot).getLast?

/-- What a slot comes to under a list of classes. Padding that no class sets is zero. -/
def valueOf (scale : UtilityScale) (cs : List UtilityClass) (slot : Slot) : Option String :=
  match slot with
  | .property _ => scale.given? cs slot
  | .side _ => some ((scale.given? cs slot).getD (StyleValue.pxText 0))

variable (scale : UtilityScale)

theorem given?_nil (slot : Slot) : scale.given? [] slot = none := rfl

theorem given?_append (a b : List UtilityClass) (slot : Slot) :
    scale.given? (a ++ b) slot = (scale.given? b slot).or (scale.given? a slot) := by
  rw [given?, List.filterMap_append, List.getLast?_append]
  rfl

/-! ## The classes of a property -/

theorem property_of_setting? {c : UtilityClass} {slot : Slot} {text : String}
    (h : scale.setting? c slot = some text) : c.property = slot.key := by
  cases slot with
  | side side => cases c <;> first | rfl | cases h
  | property name =>
    cases c with
    | padding sides size => cases h
    | _ =>
      simp only [setting?] at h
      split at h
      · next same => exact same
      · cases h

/-- One class for a property other than the padding. -/
def Single (key : String) (cs : List UtilityClass) : Prop :=
  ∃ c, cs = [c] ∧ c.property = key ∧ ∀ sides size, c ≠ .padding sides size

theorem single_propertyClasses {key : String} (ne : key ≠ Property.padding) (v : StyleValue) :
    Single key (scale.propertyClasses key v) := by
  have generic : Single key [.generic key (bracketText v)] :=
    ⟨_, rfl, rfl, fun _ _ => UtilityClass.noConfusion⟩
  have bracketed (family : String) : Single key [.bracketed key family (bracketText v)] :=
    ⟨_, rfl, rfl, fun _ _ => UtilityClass.noConfusion⟩
  unfold propertyClasses
  dsimp only
  split
  case h_6 => exact absurd rfl ne
  all_goals
    first
    | exact bracketed _
    | exact generic
    | exact ⟨_, rfl, rfl, fun _ _ => UtilityClass.noConfusion⟩
    | split <;> first | exact generic | exact ⟨_, rfl, rfl, fun _ _ => UtilityClass.noConfusion⟩

theorem exists_of_mem_paddingClasses {sides : List Float} {c : UtilityClass}
    (h : c ∈ scale.paddingClasses sides) :
    ∃ sides x, c = .padding sides (scale.length scale.spacing x) := by
  have side {sides : PaddingSides} {x : Float} (h : scale.sideClass? sides x = some c) :
      ∃ sides x, c = .padding sides (scale.length scale.spacing x) := by
    unfold sideClass? at h
    split at h <;> cases h
    exact ⟨_, _, rfl⟩
  unfold paddingClasses at h
  split at h
  · split at h
    all_goals
      obtain ⟨o, ho, made⟩ := List.mem_filterMap.mp h
      simp only [List.mem_cons, List.not_mem_nil, or_false] at ho
    · rcases ho with rfl | rfl <;> exact side made
    · rcases ho with rfl | rfl | rfl | rfl <;> exact side made
  · cases h

/-- The classes of a property set it and nothing else. -/
theorem property_of_mem_propertyClasses {key : String} {v : StyleValue} {c : UtilityClass}
    (h : c ∈ scale.propertyClasses key v) : c.property = key := by
  by_cases ne : key = Property.padding
  · subst ne
    cases v with
    | px x => rw [List.mem_singleton.mp h]; rfl
    | edges sides =>
      obtain ⟨_, _, rfl⟩ := scale.exists_of_mem_paddingClasses h
      rfl
    | number x => rw [List.mem_singleton.mp h]; rfl
    | color c => rw [List.mem_singleton.mp h]; rfl
    | keyword text => rw [List.mem_singleton.mp h]; rfl
  · obtain ⟨c', eq, property, -⟩ := scale.single_propertyClasses ne v
    rw [eq] at h
    rw [List.mem_singleton.mp h, property]

theorem given?_of_ne {cs : List UtilityClass} {slot : Slot} (h : ∀ c ∈ cs, c.property ≠ slot.key) :
    scale.given? cs slot = none := by
  have none : (cs.filterMap fun c => scale.setting? c slot) = [] := by
    rw [List.filterMap_eq_nil_iff]
    intro c hc
    cases set : scale.setting? c slot with
    | none => rfl
    | some text => exact absurd (scale.property_of_setting? set) (h c hc)
  rw [given?, none]
  rfl

theorem given?_single {key : String} {c : UtilityClass} (property : c.property = key)
    (other : ∀ sides size, c ≠ .padding sides size) :
    scale.given? [c] (.property key) = some c.text := by
  have set : scale.setting? c (.property key) = some c.text := by
    cases c with
    | padding sides size => exact absurd rfl (other sides size)
    | _ => exact if_pos property
  rw [given?, List.filterMap_cons, set]
  rfl

theorem given?_entries {entries : List (String × StyleValue)}
    (distinct : (entries.map Prod.fst).Nodup) (slot : Slot) :
    scale.given? (entries.flatMap fun (key, v) => scale.propertyClasses key v) slot =
      (entries.lookup slot.key).bind fun v => scale.given? (scale.propertyClasses slot.key v) slot := by
  induction entries with
  | nil => rfl
  | cons e rest ih =>
    obtain ⟨key, v⟩ := e
    obtain ⟨fresh, distinct⟩ := List.nodup_cons.mp distinct
    rw [List.flatMap_cons, given?_append, ih distinct]
    dsimp only
    by_cases same : slot.key = key
    · rw [same, Keyed.lookup_eq_none_of_fresh fresh, List.lookup_cons_self]
      rfl
    · have apart : scale.given? (scale.propertyClasses key v) slot = none :=
        scale.given?_of_ne fun c hc eq =>
          same (eq.symm.trans (scale.property_of_mem_propertyClasses hc))
      rw [apart, Option.or_none, List.lookup_cons, beq_eq_false_iff_ne.mpr same]

theorem given?_classes (bag : StyleBag) (slot : Slot) :
    scale.given? (scale.classes bag) slot =
      (bag.get? slot.key).bind fun v => scale.given? (scale.propertyClasses slot.key v) slot :=
  scale.given?_entries bag.distinct slot

/-! ## Values that compare as equal -/

theorem pxText_of_isZero {x y : Float} (hx : Number.IsZero x) (hy : Number.IsZero y) :
    StyleValue.pxText x = StyleValue.pxText y := by
  rw [StyleValue.pxText, StyleValue.pxText, Number.css_of_isZero hx, Number.css_of_isZero hy]

theorem snap?_of_isZero (steps : Steps) {x y : Float} (hx : Number.IsZero x) (hy : Number.IsZero y) :
    scale.snap? steps x = scale.snap? steps y := by
  have tolerance : scale.tolerance x = scale.tolerance y := by
    rw [UtilityScale.tolerance, UtilityScale.tolerance, Number.abs_of_isZero hx hy]
  have distance (step : Float) : distance step x = distance step y :=
    Number.abs_sub_of_isZero step hx hy
  unfold snap?
  simp only [tolerance, distance]

/-- Both zeros have the same class text and stand for the same length. -/
theorem length_of_isZero (steps : Steps) {x y : Float} (hx : Number.IsZero x) (hy : Number.IsZero y) :
    (∀ family, (scale.length steps x).text family = (scale.length steps y).text family) ∧
      scale.paddingText (scale.length steps x) = scale.paddingText (scale.length steps y) ∧
      (UtilityClass.radius (scale.length steps x)).text =
        (UtilityClass.radius (scale.length steps y)).text := by
  have px := pxText_of_isZero hx hy
  unfold length
  rw [scale.snap?_of_isZero steps hx hy]
  cases scale.snap? steps y with
  | some name => exact ⟨fun _ => rfl, rfl, rfl⟩
  | none =>
    refine ⟨fun family => ?_, px, ?_⟩
    · exact congrArg (fun text => family ++ "-[" ++ text ++ "]") px
    · exact congrArg (fun text => "rounded" ++ "-[" ++ text ++ "]") px

theorem text_of_isZero {key : String} (ne : key ≠ Property.padding) {x y : Float}
    (hx : Number.IsZero x) (hy : Number.IsZero y) :
    (scale.propertyClasses key (.px x)).map UtilityClass.text =
      (scale.propertyClasses key (.px y)).map UtilityClass.text := by
  have css : (StyleValue.px x).css = (StyleValue.px y).css := pxText_of_isZero hx hy
  have bracket : bracketText (.px x) = bracketText (.px y) := by
    rw [bracketText, bracketText, css]
  have spacing := (scale.length_of_isZero scale.spacing hx hy).1
  have fontSizes := (scale.length_of_isZero scale.fontSizes hx hy).1
  have radii := (scale.length_of_isZero scale.radii hx hy).2.2
  unfold propertyClasses
  dsimp only
  split
  case h_6 => exact absurd rfl ne
  all_goals
    rw [List.map_singleton, List.map_singleton]
    first
    | rw [radii]
    | simp only [UtilityClass.text, bracket, spacing, fontSizes, css]

theorem given?_of_beq {x y : Float} (same : (x == y) = true) (slot : Slot) :
    scale.given? (scale.propertyClasses slot.key (.px x)) slot =
      scale.given? (scale.propertyClasses slot.key (.px y)) slot := by
  rcases Number.eq_or_isZero_of_beq same with rfl | ⟨hx, hy⟩
  · rfl
  · cases slot with
    | side side => exact congrArg some (scale.length_of_isZero scale.spacing hx hy).2.1
    | property name =>
      by_cases ne : name = Property.padding
      · subst ne
        rfl
      · have texts := scale.text_of_isZero ne hx hy
        obtain ⟨c, eq, property, other⟩ := scale.single_propertyClasses ne (.px x)
        obtain ⟨c', eq', property', other'⟩ := scale.single_propertyClasses ne (.px y)
        rw [eq, eq', List.map_singleton, List.map_singleton] at texts
        rw [Slot.key, eq, eq', scale.given?_single property other,
          scale.given?_single property' other', (List.cons.inj texts).1]

/-! ## Sides -/

/-- The padding of a side as its own class sets it; a zero has none. -/
def sideText? (scale : UtilityScale) (x : Float) : Option String :=
  if x != 0 then some (scale.paddingText (scale.length scale.spacing x)) else none

theorem sideText?_of_beq {x y : Float} (same : (x == y) = true) :
    scale.sideText? x = scale.sideText? y := by
  rcases Number.eq_or_isZero_of_beq same with rfl | ⟨hx, hy⟩
  · rfl
  · rw [sideText?, sideText?, bne, bne, Number.isZero_iff.mp hx, Number.isZero_iff.mp hy]
    rfl

theorem given?_px (x : Float) (side : Side) :
    scale.given? (scale.propertyClasses Property.padding (.px x)) (.side side) =
      some (scale.paddingText (scale.length scale.spacing x)) := rfl

theorem given?_sideClass? (sides : PaddingSides) (x : Float) (side : Side) :
    scale.given? (scale.sideClass? sides x).toList (.side side) =
      if sides.covers side then scale.sideText? x else none := by
  unfold sideClass? sideText?
  by_cases zero : (x != 0) = true
  · rw [if_pos zero, if_pos zero, Option.toList_some, given?, List.filterMap_cons, setting?]
    by_cases covered : sides.covers side = true
    · rw [if_pos covered]
      rfl
    · rw [if_neg covered]
      rfl
  · rw [if_neg zero, if_neg zero, ite_self]
    rfl

theorem filterMap_id_cons {α : Type} (o : Option α) (os : List (Option α)) :
    (o :: os).filterMap id = o.toList ++ os.filterMap id := by
  cases o <;> rfl

/-- Padding side by side sets the sides that are not zero. -/
theorem given?_edges (top right bottom left : Float) (side : Side) :
    scale.given? (scale.propertyClasses Property.padding (.edges [top, right, bottom, left]))
      (.side side) = scale.sideText? (side.of top right bottom left) := by
  show scale.given? (scale.paddingClasses [top, right, bottom, left]) (.side side) = _
  unfold paddingClasses
  dsimp only
  split_ifs with opposite
  · obtain ⟨vertical, horizontal⟩ := Bool.and_eq_true_iff.mp opposite
    simp only [filterMap_id_cons, given?_append, given?_sideClass?, List.filterMap_nil, given?_nil,
      Option.none_or]
    cases side with
    | top => rfl
    | right => exact Option.or_none
    | bottom => exact scale.sideText?_of_beq vertical
    | left => exact Option.or_none.trans (scale.sideText?_of_beq horizontal)
  · simp only [filterMap_id_cons, given?_append, given?_sideClass?, List.filterMap_nil, given?_nil,
      Option.none_or]
    cases side with
    | top => rfl
    | right => exact Option.or_none
    | bottom => exact Option.or_none.trans Option.or_none
    | left => exact (Option.or_none.trans Option.or_none).trans Option.or_none

end UtilityScale
end Handoff
