import Handoff.Proofs.Styled
import Handoff.Proofs.Utility.Slots
import Handoff.Proofs.Viewport
/-!
# Utility classes, screen by screen

The classes of a node that adapts come in layers: those of its mobile variant hold everywhere, and from
a width on those hold that are different on wider screens. So the widest variant that says something
about a slot decides, and where it says nothing the next narrower one does.

That is the variant shown, but for one thing. A side without padding has no class. Where the variant
shown has such a side and a narrower variant has compact padding on all sides, that padding stays.

Results:
* `UtilityScale.given?_classesAt`: the classes that hold at a width, as the variants up to it.
* `UtilityScale.realises_iff`: they come to what the variant shown asks for unless padding is stale.
-/
namespace Handoff

/-! ## Widths -/

/-- Whether the classes of a tier hold on screens of a width. -/
def ScreenTier.holds (widths : Breakpoints) (width : Nat) : ScreenTier → Bool
  | .mobile => true
  | .tablet => widths.mobileMax < width
  | .desktop => widths.tabletMax < width

def classesAt (widths : Breakpoints) (width : Nat) (cs : List TieredClass) : List UtilityClass :=
  (cs.filter fun c => c.tier.holds widths width).map TieredClass.utility

namespace Variants

/-- The variant shown on screens of a width. -/
def shown (v : Variants) (widths : Breakpoints) (width : Nat) : StyleBag :=
  if width ≤ widths.mobileMax then v.mobile
  else if width ≤ widths.tabletMax then v.tablet
  else v.desktop

/-- The variants for narrower screens, from the nearest on. -/
def narrower (v : Variants) (widths : Breakpoints) (width : Nat) : List StyleBag :=
  if width ≤ widths.mobileMax then []
  else if width ≤ widths.tabletMax then [v.mobile]
  else [v.tablet, v.mobile]

end Variants

namespace UtilityScale

variable (scale : UtilityScale)

/-! ## Layers -/

theorem classesAt_map (widths : Breakpoints) (width : Nat) (tier : ScreenTier)
    (cs : List UtilityClass) :
    classesAt widths width (cs.map (.mk tier)) = if tier.holds widths width then cs else [] := by
  unfold classesAt
  by_cases holds : tier.holds widths width = true
  · rw [if_pos holds, List.filter_eq_self.mpr, List.map_map]
    · exact List.map_id cs
    · intro c hc
      obtain ⟨u, -, rfl⟩ := List.mem_map.mp hc
      exact holds
  · rw [if_neg holds, List.filter_eq_nil_iff.mpr]
    · rfl
    · intro c hc
      obtain ⟨u, -, rfl⟩ := List.mem_map.mp hc
      exact holds

/-- The classes of a node that hold on screens of a width. -/
theorem classesAt_tieredClasses (v : Variants) (widths : Breakpoints) (width : Nat) :
    classesAt widths width (scale.tieredClasses v) =
      scale.classes v.mobile ++
        (if widths.mobileMax < width then scale.classes (StyleBag.diff v.tablet v.mobile) else []) ++
        (if widths.tabletMax < width then scale.classes (StyleBag.diff v.desktop v.tablet) else []) := by
  have parts (a b : List TieredClass) :
      classesAt widths width (a ++ b) = classesAt widths width a ++ classesAt widths width b := by
    rw [classesAt, List.filter_append, List.map_append]
    rfl
  rw [tieredClasses, parts, parts, classesAt_map, classesAt_map, classesAt_map]
  simp only [ScreenTier.holds, decide_eq_true_eq, if_true]

def own? (bag : StyleBag) (slot : Slot) : Option String :=
  scale.given? (scale.classes bag) slot

/-- A difference says nothing only where the narrower bag says the same. So under any layers that the
narrower bag is on top of, the difference does what the whole wider bag would do. -/
theorem given?_diff {a b : StyleBag} {slot : Slot}
    (alike : ∀ v w, a.get? slot.key = some v → b.get? slot.key = some w → (w == v) = true →
      scale.given? (scale.propertyClasses slot.key v) slot =
        scale.given? (scale.propertyClasses slot.key w) slot) (below : Option String) :
    (scale.given? (scale.classes (StyleBag.diff a b)) slot).or ((scale.own? b slot).or below) =
      (scale.own? a slot).or ((scale.own? b slot).or below) := by
  rw [own?, own?, given?_classes, given?_classes, given?_classes, StyleBag.get?_diff]
  cases there : a.get? slot.key with
  | none => rfl
  | some v =>
    cases beside : b.get? slot.key with
    | none => rfl
    | some w =>
      have compared : (some w != some v) = !(w == v) := rfl
      rw [Option.filter_some, compared]
      cases same : w == v with
      | false => rfl
      | true =>
        simp only [Bool.not_true, Option.bind_some]
        rw [alike v w there beside same]
        cases scale.given? (scale.propertyClasses slot.key w) slot <;> rfl

theorem given?_change {p q : ScreenPolicy} {key : String} {u : StyleValue} {slot : Slot}
    (same : (q.change key u == p.change key u) = true) :
    scale.given? (scale.propertyClasses slot.key (p.change key u)) slot =
      scale.given? (scale.propertyClasses slot.key (q.change key u)) slot := by
  have lengths {x y : Float} (h : (StyleValue.px y == StyleValue.px x) = true) :
      scale.given? (scale.propertyClasses slot.key (.px x)) slot =
        scale.given? (scale.propertyClasses slot.key (.px y)) slot :=
    (scale.given?_of_beq h slot).symm
  rcases p.change_cases key u with eq | ⟨x, eq⟩ <;> rcases q.change_cases key u with eq' | ⟨y, eq'⟩
  · rw [eq, eq']
  · rw [eq, eq'] at same
    rw [eq, eq']
    cases u with
    | px x => exact lengths same
    | _ => cases same
  · rw [eq, eq'] at same
    rw [eq, eq']
    cases u with
    | px y => exact lengths same
    | _ => cases same
  · rw [eq, eq'] at same
    rw [eq, eq']
    exact lengths same

theorem given?_diff_apply (p q : ScreenPolicy) (base : StyleBag) (slot : Slot) (below : Option String) :
    (scale.given? (scale.classes (StyleBag.diff (p.apply base) (q.apply base))) slot).or
        ((scale.own? (q.apply base) slot).or below) =
      (scale.own? (p.apply base) slot).or ((scale.own? (q.apply base) slot).or below) := by
  apply scale.given?_diff
  intro v w there beside same
  rw [ScreenPolicy.get?_apply] at there beside
  obtain ⟨u, hu, rfl⟩ := Option.map_eq_some_iff.mp there
  rw [hu] at beside
  cases beside
  exact scale.given?_change same

theorem findSome?_cons_or {α β : Type} (f : α → Option β) (a : α) (as : List α) :
    (a :: as).findSome? f = (f a).or (as.findSome? f) := by
  rw [List.findSome?_cons]
  cases f a <;> rfl

/-- The classes that hold at a width set a slot as the variant shown does or, where it says nothing, as
the nearest narrower variant does that says something. -/
theorem given?_classesAt (policy : ViewportPolicy) (layer : Layer) (base : StyleBag)
    {widths : Breakpoints} (ordered : widths.mobileMax ≤ widths.tabletMax) (width : Nat) (slot : Slot) :
    let v := policy.variants layer base
    scale.given? (classesAt widths width (scale.tieredClasses v)) slot =
      (v.shown widths width :: v.narrower widths width).findSome? fun bag => scale.own? bag slot := by
  intro v
  have tablet (below : Option String) :
      (scale.given? (scale.classes (StyleBag.diff v.tablet v.mobile)) slot).or
          ((scale.own? v.mobile slot).or below) =
        (scale.own? v.tablet slot).or ((scale.own? v.mobile slot).or below) :=
    scale.given?_diff_apply policy.tablet policy.mobile base slot below
  have desktop (below : Option String) :
      (scale.given? (scale.classes (StyleBag.diff v.desktop v.tablet)) slot).or
          ((scale.own? v.tablet slot).or below) =
        (scale.own? v.desktop slot).or ((scale.own? v.tablet slot).or below) :=
    scale.given?_diff_apply policy.desktop policy.tablet base slot below
  have mobile : scale.given? (scale.classes v.mobile) slot = (scale.own? v.mobile slot).or none :=
    Option.or_none.symm
  rw [classesAt_tieredClasses, given?_append, given?_append, mobile]
  unfold Variants.shown Variants.narrower
  by_cases onMobile : width ≤ widths.mobileMax
  · have low : ¬widths.mobileMax < width := by omega
    have low' : ¬widths.tabletMax < width := by omega
    rw [if_pos onMobile, if_pos onMobile, if_neg low, if_neg low']
    simp only [given?_nil, findSome?_cons_or, List.findSome?_nil, Option.none_or]
  · have wide : widths.mobileMax < width := by omega
    rw [if_neg onMobile, if_neg onMobile, if_pos wide, tablet]
    by_cases onTablet : width ≤ widths.tabletMax
    · have low : ¬widths.tabletMax < width := by omega
      rw [if_pos onTablet, if_pos onTablet, if_neg low]
      simp only [given?_nil, findSome?_cons_or, List.findSome?_nil, Option.none_or]
    · have wide' : widths.tabletMax < width := by omega
      rw [if_neg onTablet, if_neg onTablet, if_pos wide', desktop]
      simp only [findSome?_cons_or, List.findSome?_nil]

/-! ## Properties as a whole -/

theorem own?_padding_property (p : ScreenPolicy) (l : Layer) :
    scale.own? (p.apply l.resolve) (.property Property.padding) = none := by
  rw [own?, given?_classes, Slot.key, ScreenPolicy.get?_apply]
  cases there : l.resolve.get? Property.padding with
  | none => rfl
  | some u =>
    rw [Option.map_some, Option.bind_some]
    rcases p.change_cases Property.padding u with eq | ⟨x, eq⟩
    · rw [eq]
      rcases Layer.padding_resolve there with ⟨x, rfl, -⟩ | ⟨top, right, bottom, left, rfl⟩
      · rfl
      · have silent : ((scale.paddingClasses [top, right, bottom, left]).filterMap fun c =>
            scale.setting? c (.property Property.padding)) = [] := by
          rw [List.filterMap_eq_nil_iff]
          intro c hc
          obtain ⟨_, _, rfl⟩ := scale.exists_of_mem_paddingClasses hc
          rfl
        show List.getLast? _ = none
        exact congrArg List.getLast? silent
    · rw [eq]
      rfl

/-- A property is set by every variant or by none. -/
theorem own?_property_none {p : ScreenPolicy} {l : Layer} {name : String}
    (h : scale.own? (p.apply l.resolve) (.property name) = none) (q : ScreenPolicy) :
    scale.own? (q.apply l.resolve) (.property name) = none := by
  by_cases ne : name = Property.padding
  · subst ne
    exact scale.own?_padding_property q l
  · rw [own?, given?_classes, Slot.key, ScreenPolicy.get?_apply] at h ⊢
    cases there : l.resolve.get? name with
    | none => rfl
    | some u =>
      rw [there, Option.map_some, Option.bind_some] at h
      obtain ⟨c, eq, property, other⟩ := scale.single_propertyClasses ne (p.change name u)
      rw [eq, scale.given?_single property other] at h
      cases h

/-! ## Sides -/

theorem own?_side_px {bag : StyleBag} {x : Float} (h : bag.get? Property.padding = some (.px x))
    (side : Side) : scale.own? bag (.side side) = some (scale.paddingText (scale.length scale.spacing x)) := by
  rw [own?, given?_classes, Slot.key, h, Option.bind_some, given?_px]

theorem own?_side_edges {bag : StyleBag} {top right bottom left : Float}
    (h : bag.get? Property.padding = some (.edges [top, right, bottom, left])) (side : Side) :
    scale.own? bag (.side side) = scale.sideText? (side.of top right bottom left) := by
  rw [own?, given?_classes, Slot.key, h, Option.bind_some, given?_edges]

/-- The padding of a bag is one length for all sides, or these lengths side by side. -/
def Padded (sides : Side → Float) (bag : StyleBag) : Prop :=
  (∃ c, bag.get? Property.padding = some (.px c)) ∨
    bag.get? Property.padding =
      some (.edges [sides .top, sides .right, sides .bottom, sides .left])

/-- The variants of a layer have no padding, or each has one length or the lengths of the layer. -/
theorem padding_variants (l : Layer) :
    (∀ p : ScreenPolicy, (p.apply l.resolve).get? Property.padding = none) ∨
      ∃ sides, ∀ p : ScreenPolicy, Padded sides (p.apply l.resolve) := by
  cases there : l.resolve.get? Property.padding with
  | none =>
    left
    intro p
    rw [ScreenPolicy.get?_apply, there]
    rfl
  | some u =>
    right
    rcases Layer.padding_resolve there with ⟨x, rfl, -⟩ | ⟨top, right, bottom, left, rfl⟩
    · refine ⟨fun _ => 0, fun p => .inl ?_⟩
      rw [ScreenPolicy.get?_apply, there, Option.map_some]
      rcases p.change_cases Property.padding (.px x) with eq | ⟨y, eq⟩
      · exact ⟨x, congrArg some eq⟩
      · exact ⟨y, congrArg some eq⟩
    · refine ⟨Side.of top right bottom left, fun p => ?_⟩
      unfold Padded
      rw [ScreenPolicy.get?_apply, there, Option.map_some]
      rcases p.change_cases Property.padding (.edges [top, right, bottom, left]) with eq | ⟨y, eq⟩
      · exact .inr (congrArg some eq)
      · exact .inl ⟨y, congrArg some eq⟩

/-- A bag says nothing about a side if it has padding side by side and none on that one. -/
theorem own?_side_eq_none_iff {sides : Side → Float} {bag : StyleBag} (padded : Padded sides bag)
    (side : Side) :
    scale.own? bag (.side side) = none ↔
      bag.get? Property.padding =
          some (.edges [sides .top, sides .right, sides .bottom, sides .left]) ∧
        (sides side == 0) = true := by
  rcases padded with ⟨c, px⟩ | edges
  · rw [scale.own?_side_px px, px]
    constructor
    · intro none
      cases none
    · rintro ⟨edges, -⟩
      cases edges
  · rw [scale.own?_side_edges edges, Side.of_apply, sideText?, bne]
    cases sides side == 0 <;> simp [edges]

/-- The one length that a bag has for the padding of all sides. -/
def compact? (bag : StyleBag) : Option Float :=
  (bag.get? Property.padding).bind StyleValue.px?

/-- A narrower variant's padding stays on a side: the variant shown has none there, and the nearest
narrower variant with one length for all sides has more than zero. -/
def StalePadding (scale : UtilityScale) (shown : StyleBag) (narrower : List StyleBag) : Prop :=
  (∃ sides, shown.get? Property.padding = some (.edges sides) ∧ ∃ x ∈ sides, (x == 0) = true) ∧
    ∃ c, narrower.findSome? compact? = some c ∧
      scale.paddingText (scale.length scale.spacing c) ≠ StyleValue.pxText 0

/-- On a side that is zero, bags say something if they have one length for all sides. -/
theorem findSome?_own_zero {sides : Side → Float} {side : Side} (zero : (sides side == 0) = true)
    {bags : List StyleBag} (each : ∀ bag ∈ bags, Padded sides bag) :
    (bags.findSome? fun bag => scale.own? bag (.side side)) =
      (bags.findSome? compact?).map fun c => scale.paddingText (scale.length scale.spacing c) := by
  induction bags with
  | nil => rfl
  | cons bag rest ih =>
    have later := ih fun b hb => each b (List.mem_cons_of_mem _ hb)
    rw [findSome?_cons_or, findSome?_cons_or, later]
    rcases each bag (List.mem_cons_self ..) with ⟨c, px⟩ | edges
    · rw [scale.own?_side_px px, compact?, px]
      rfl
    · rw [(scale.own?_side_eq_none_iff (.inr edges) side).mpr ⟨edges, zero⟩, compact?, edges]
      rfl

/-- Padding is stale on a side that the variant shown says nothing about. -/
theorem stalePadding_iff {sides : Side → Float} {shown : StyleBag} (padded : Padded sides shown)
    (narrower : List StyleBag) :
    scale.StalePadding shown narrower ↔
      ∃ side, scale.own? shown (.side side) = none ∧
        ∃ c, narrower.findSome? compact? = some c ∧
          scale.paddingText (scale.length scale.spacing c) ≠ StyleValue.pxText 0 := by
  constructor
  · rintro ⟨⟨list, edges, x, mem, zero⟩, nearest⟩
    rcases padded with ⟨y, px⟩ | four
    · cases px.symm.trans edges
    · cases four.symm.trans edges
      obtain ⟨side, rfl⟩ : ∃ side, x = sides side := by
        simp only [List.mem_cons, List.not_mem_nil, or_false] at mem
        rcases mem with rfl | rfl | rfl | rfl <;> exact ⟨_, rfl⟩
      exact ⟨side, (scale.own?_side_eq_none_iff (.inr four) side).mpr ⟨four, zero⟩, nearest⟩
  · rintro ⟨side, silent, nearest⟩
    obtain ⟨four, zero⟩ := (scale.own?_side_eq_none_iff padded side).mp silent
    refine ⟨⟨_, four, sides side, ?_, zero⟩, nearest⟩
    cases side <;> simp

theorem exists_policy {policy : ViewportPolicy} {layer : Layer} {base : StyleBag}
    {widths : Breakpoints} {width : Nat} {bag : StyleBag}
    (h : bag ∈ (policy.variants layer base).shown widths width ::
      (policy.variants layer base).narrower widths width) : ∃ p : ScreenPolicy, bag = p.apply base := by
  have mobile : (policy.variants layer base).mobile = policy.mobile.apply base := rfl
  have tablet : (policy.variants layer base).tablet = policy.tablet.apply base := rfl
  have desktop : (policy.variants layer base).desktop = policy.desktop.apply base := rfl
  unfold Variants.shown Variants.narrower at h
  split_ifs at h <;> simp only [List.mem_cons, List.not_mem_nil, or_false] at h
  · exact ⟨_, h.trans mobile⟩
  · rcases h with h | h
    · exact ⟨_, h.trans tablet⟩
    · exact ⟨_, h.trans mobile⟩
  · rcases h with h | h | h
    · exact ⟨_, h.trans desktop⟩
    · exact ⟨_, h.trans tablet⟩
    · exact ⟨_, h.trans mobile⟩

theorem findSome?_own_property {policy : ViewportPolicy} {layer : Layer} {widths : Breakpoints}
    {width : Nat} {name : String}
    (silent : scale.own? ((policy.variants layer layer.resolve).shown widths width) (.property name) =
      none) :
    ((policy.variants layer layer.resolve).narrower widths width).findSome?
      (fun bag => scale.own? bag (.property name)) = none := by
  have mem : (policy.variants layer layer.resolve).shown widths width ∈
      (policy.variants layer layer.resolve).shown widths width ::
        (policy.variants layer layer.resolve).narrower widths width := List.mem_cons_self ..
  obtain ⟨p, shown⟩ := exists_policy mem
  rw [List.findSome?_eq_none_iff]
  intro bag hbag
  obtain ⟨q, rfl⟩ := exists_policy (List.mem_cons_of_mem _ hbag)
  exact scale.own?_property_none (shown ▸ silent) q

theorem findSome?_own_side {bags : List StyleBag}
    (absent : ∀ bag ∈ bags, bag.get? Property.padding = none) (side : Side) :
    bags.findSome? (fun bag => scale.own? bag (.side side)) = none := by
  rw [List.findSome?_eq_none_iff]
  intro bag hbag
  rw [own?, given?_classes, Slot.key, absent bag hbag]
  rfl

/-- Two ways to fill a slot come to the same padding. -/
theorem valueOf_side_eq_iff {cs ds : List UtilityClass} {side : Side} {below : Option String}
    (layered : scale.given? cs (.side side) = (scale.given? ds (.side side)).or below) :
    scale.valueOf cs (.side side) = scale.valueOf ds (.side side) ↔
      (scale.given? ds (.side side) = none → below.getD (StyleValue.pxText 0) = StyleValue.pxText 0) := by
  rw [valueOf, valueOf, layered, Option.some.injEq]
  cases scale.given? ds (.side side) with
  | some text => simp
  | none => simp

section

variable {shown : StyleBag} {narrower : List StyleBag} {cs : List UtilityClass}
  (layered : ∀ slot, scale.given? cs slot =
    (scale.own? shown slot).or (narrower.findSome? fun bag => scale.own? bag slot))
include layered

theorem sides_of_absent (absent : ∀ bag ∈ shown :: narrower, bag.get? Property.padding = none) :
    (∀ side, scale.valueOf cs (.side side) = scale.valueOf (scale.classes shown) (.side side)) ↔
      ¬scale.StalePadding shown narrower := by
  obtain ⟨here, below⟩ := List.forall_mem_cons.mp absent
  have fresh : ¬scale.StalePadding shown narrower := by
    rintro ⟨⟨list, edges, -⟩, -⟩
    rw [here] at edges
    cases edges
  refine iff_of_true (fun side => ?_) fresh
  refine (scale.valueOf_side_eq_iff (layered (.side side))).mpr fun _ => ?_
  rw [scale.findSome?_own_side below side]
  rfl

theorem sides_of_padded {lengths : Side → Float}
    (padded : ∀ bag ∈ shown :: narrower, Padded lengths bag) :
    (∀ side, scale.valueOf cs (.side side) = scale.valueOf (scale.classes shown) (.side side)) ↔
      ¬scale.StalePadding shown narrower := by
  obtain ⟨here, below⟩ := List.forall_mem_cons.mp padded
  have nearest {side : Side} (silent : scale.own? shown (.side side) = none) :=
    scale.findSome?_own_zero ((scale.own?_side_eq_none_iff here side).mp silent).2 below
  have sides (side : Side) := scale.valueOf_side_eq_iff (layered (.side side))
  rw [scale.stalePadding_iff here]
  constructor
  · rintro equal ⟨side, silent, c, found, more⟩
    have stays := (sides side).mp (equal side) silent
    rw [nearest silent, found, Option.map_some, Option.getD_some] at stays
    exact more stays
  · intro fresh side
    refine (sides side).mpr fun silent => ?_
    rw [nearest silent]
    cases found : narrower.findSome? compact? with
    | none => rfl
    | some c =>
      by_contra more
      exact fresh ⟨side, silent, c, found, more⟩

end

/-- The classes that hold at a width come to what the classes of the variant shown come to on their
own, for every property and every side, unless padding is stale. -/
theorem realises_iff (policy : ViewportPolicy) (layer : Layer) {widths : Breakpoints}
    (ordered : widths.mobileMax ≤ widths.tabletMax) (width : Nat) :
    let v := policy.variants layer layer.resolve
    (∀ slot, scale.valueOf (classesAt widths width (scale.tieredClasses v)) slot =
        scale.valueOf (scale.classes (v.shown widths width)) slot) ↔
      ¬scale.StalePadding (v.shown widths width) (v.narrower widths width) := by
  intro v
  have layered (slot : Slot) :
      scale.given? (classesAt widths width (scale.tieredClasses v)) slot =
        (scale.own? (v.shown widths width) slot).or
          ((v.narrower widths width).findSome? fun bag => scale.own? bag slot) :=
    (scale.given?_classesAt policy layer layer.resolve ordered width slot).trans (findSome?_cons_or ..)
  have properties (name : String) :
      scale.valueOf (classesAt widths width (scale.tieredClasses v)) (.property name) =
        scale.valueOf (scale.classes (v.shown widths width)) (.property name) := by
    rw [valueOf, layered]
    cases own : scale.own? (v.shown widths width) (.property name) with
    | some text => exact own.symm
    | none => exact (scale.findSome?_own_property own).trans own.symm
  have sides : (∀ side, scale.valueOf (classesAt widths width (scale.tieredClasses v)) (.side side) =
        scale.valueOf (scale.classes (v.shown widths width)) (.side side)) ↔
      ¬scale.StalePadding (v.shown widths width) (v.narrower widths width) := by
    rcases padding_variants layer with absent | ⟨lengths, padded⟩
    · refine scale.sides_of_absent layered fun bag hbag => ?_
      obtain ⟨p, rfl⟩ := exists_policy hbag
      exact absent p
    · have each : ∀ bag ∈ v.shown widths width :: v.narrower widths width, Padded lengths bag := by
        intro bag hbag
        obtain ⟨p, rfl⟩ := exists_policy hbag
        exact padded p
      exact scale.sides_of_padded layered each
  rw [← sides]
  constructor
  · exact fun equal side => equal (.side side)
  · intro equal slot
    cases slot with
    | property name => exact properties name
    | side side => exact equal side

/-- The class list of a node that adapts, on screens of every width: the classes that hold there come
to what the classes of the variant shown come to on their own, for every property and every side of
the padding, exactly if no padding is stale. -/
theorem nodeClasses_realises_iff (policy : ViewportPolicy) (node : Node) (c : Classification)
    {widths : Breakpoints} (ordered : widths.mobileMax ≤ widths.tabletMax) (width : Nat)
    {s : StyledLayer} (carried : s ∈ (Styled.ofNode (some policy) node c).values) :
    ∃ v, s.variants = some v ∧
      scale.nodeClasses (some widths) s =
        String.intercalate " " ((scale.tieredClasses v).map fun c => c.text widths) ∧
      ((∀ slot, scale.valueOf (classesAt widths width (scale.tieredClasses v)) slot =
          scale.valueOf (scale.classes (v.shown widths width)) slot) ↔
        ¬scale.StalePadding (v.shown widths width) (v.narrower widths width)) := by
  obtain ⟨layer, -, verdict, namer, made⟩ := Styled.mem_values_ofNode carried
  have variants : s.variants = some (policy.variants layer layer.resolve) := by rw [made]; rfl
  refine ⟨_, variants, ?_, scale.realises_iff policy layer ordered width⟩
  unfold nodeClasses
  rw [variants]

def splitRow : Node :=
  .leaf { name := "Row", kind := .frame, layout := ⟨.horizontal, none, ⟨8, 0, 8, 0⟩⟩ }

def splitStyled : Styled :=
  Styled.ofNode (some {}) splitRow (Classifier.standard.classify splitRow)

def splitVariants : Variants :=
  ({} : ViewportPolicy).variants splitRow.value splitRow.value.resolve

/-- On tablet screens the row keeps the compact padding of mobile screens to its left and right. -/
theorem nodeClasses_realises_splitRow :
    splitStyled.value ∈ splitStyled.values ∧ ({} : Breakpoints).mobileMax ≤ ({} : Breakpoints).tabletMax ∧
      splitStyled.value.variants = some splitVariants ∧
      standard.nodeClasses (some {}) splitStyled.value = "flex flex-row p-4 md:py-2" ∧
      ¬∀ slot, standard.valueOf (classesAt {} 900 (standard.tieredClasses splitVariants)) slot =
        standard.valueOf (standard.classes (splitVariants.shown {} 900)) slot := by
  have carried : splitStyled.value ∈ splitStyled.values :=
    List.mem_of_getElem? (Tree.getElem?_values_zero splitStyled)
  have ordered : ({} : Breakpoints).mobileMax ≤ ({} : Breakpoints).tabletMax := by decide
  have variants : splitStyled.value.variants = some splitVariants := by rfl
  have stale : standard.StalePadding (splitVariants.shown {} 900) (splitVariants.narrower {} 900) :=
    ⟨⟨[8, 0, 8, 0], by rfl, 0, by simp, by decide +kernel⟩, 16, by rfl, by decide +kernel⟩
  obtain ⟨v, given, -, realises⟩ := nodeClasses_realises_iff standard {} splitRow
    (Classifier.standard.classify splitRow) ordered 900 carried
  cases variants.symm.trans given
  exact ⟨carried, ordered, variants, by decide +kernel, fun all => realises.mp all stale⟩

end UtilityScale
end Handoff
