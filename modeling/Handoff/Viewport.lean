import Handoff.Style.Bag
import Handoff.Scene.Layer
/-!
# Viewports

A design is shown on mobile, tablet and desktop screens. A policy says how the styles of a layer
change on one of them: type may be scaled down to a floor, and padding that is there may be replaced
by a compact one. Nothing else ever changes.

Mobile ends at one width and tablet at another; desktop is everything above. A width is a word of 32
bits, and sums of words start again at 0 past the last one.
-/
namespace Handoff

structure ScreenPolicy where
  /-- Factor of the font size. -/
  fontScale : Float := 1
  /-- What a scaled font size does not go below. -/
  fontFloor : Option Float := none
  /-- What stands in for padding that is there. -/
  compactPadding : Option Float := none
deriving Inhabited

namespace ScreenPolicy

/-- The larger of two numbers; of a number and what is none, the number. -/
def larger (x y : Float) : Float :=
  if x.isNaN then y else if x < y then y else x

/-- The font size on that screen. -/
def scaled (p : ScreenPolicy) (size : Float) : Float :=
  match p.fontFloor with
  | some floor => larger (size * p.fontScale) floor
  | none => size * p.fontScale

/-- The styles on that screen. -/
def apply (p : ScreenPolicy) (base : StyleBag) : StyleBag :=
  let typed := match (base.get? Property.fontSize).bind StyleValue.px? with
    | some size =>
      let scaled := p.scaled size
      if scaled != size then base.insert Property.fontSize (.px scaled) else base
    | none => base
  match p.compactPadding with
  | some padding =>
    if typed.contains Property.padding then typed.insert Property.padding (.px padding) else typed
  | none => typed

end ScreenPolicy

structure Variants where
  mobile : StyleBag
  tablet : StyleBag
  desktop : StyleBag
  /-- Whether the layer adapts to its screen. -/
  adapts : Bool
deriving Inhabited

structure ViewportPolicy where
  mobile : ScreenPolicy := { fontScale := 0.8, fontFloor := some 14, compactPadding := some 16 }
  tablet : ScreenPolicy := {}
  desktop : ScreenPolicy := {}
  /-- Layers wider than this adapt to the screen. -/
  widthThreshold : Float := 768
deriving Inhabited

namespace ViewportPolicy

/-- The variants of some styles, not yet those of a layer that adapts. -/
def derive (p : ViewportPolicy) (base : StyleBag) : Variants where
  mobile := p.mobile.apply base
  tablet := p.tablet.apply base
  desktop := p.desktop.apply base
  adapts := false

/-- Wide layers, anchored layers and those that lay out their children adapt to the screen. -/
def adapts (p : ViewportPolicy) (l : Layer) : Bool :=
  l.width?.any (fun w => p.widthThreshold < w) || l.constraints.any Constraints.isAnchored ||
    l.layout.isAuto

def variants (p : ViewportPolicy) (l : Layer) (base : StyleBag) : Variants :=
  { p.derive base with adapts := p.adapts l }

end ViewportPolicy

/-! ## Widths -/

/-- Widths by name, sorted by name. -/
structure NamedWidths where
  entries : List (String × UInt32)
  sorted : entries.Pairwise fun a b => a.1 < b.1

namespace NamedWidths

def empty : NamedWidths := ⟨[], .nil⟩

instance : Inhabited NamedWidths := ⟨empty⟩

/-- The width of a name replaced, or put in its place. -/
def insertEntry (name : String) (width : UInt32) : List (String × UInt32) → List (String × UInt32)
  | [] => [(name, width)]
  | (n, w) :: rest =>
    if name < n then (name, width) :: (n, w) :: rest
    else if n < name then (n, w) :: insertEntry name width rest
    else (name, width) :: rest

theorem mem_insertEntry {name : String} {width : UInt32} {entries : List (String × UInt32)}
    {e : String × UInt32} (h : e ∈ insertEntry name width entries) :
    e.1 = name ∨ e ∈ entries := by
  induction entries with
  | nil =>
    simp only [insertEntry, List.mem_singleton] at h
    exact .inl (by rw [h])
  | cons first rest ih =>
    unfold insertEntry at h
    split at h
    · rcases List.mem_cons.mp h with rfl | h
      · exact .inl rfl
      · exact .inr h
    · split at h
      · rcases List.mem_cons.mp h with rfl | h
        · exact .inr (List.mem_cons_self ..)
        · exact (ih h).imp_right (List.mem_cons_of_mem _)
      · rcases List.mem_cons.mp h with rfl | h
        · exact .inl rfl
        · exact .inr (List.mem_cons_of_mem _ h)

theorem sorted_insertEntry {name : String} {width : UInt32} {entries : List (String × UInt32)}
    (h : entries.Pairwise fun a b => a.1 < b.1) :
    (insertEntry name width entries).Pairwise fun a b => a.1 < b.1 := by
  induction entries with
  | nil => exact List.pairwise_singleton ..
  | cons first rest ih =>
    obtain ⟨n, w⟩ := first
    obtain ⟨before, later⟩ := List.pairwise_cons.mp h
    unfold insertEntry
    split
    · next lt =>
      refine List.pairwise_cons.mpr ⟨fun e he => ?_, h⟩
      rcases List.mem_cons.mp he with rfl | he
      · exact lt
      · exact String.lt_trans lt (before e he)
    · split
      · next lt =>
        refine List.pairwise_cons.mpr ⟨fun e he => ?_, ih later⟩
        rcases mem_insertEntry he with eq | he
        · exact eq ▸ lt
        · exact before e he
      · next ge le =>
        have eq : name = n := String.le_antisymm (String.not_lt.mp le) (String.not_lt.mp ge)
        exact List.pairwise_cons.mpr ⟨fun e he => eq ▸ before e he, later⟩

def insert (widths : NamedWidths) (name : String) (width : UInt32) : NamedWidths :=
  ⟨insertEntry name width widths.entries, sorted_insertEntry widths.sorted⟩

def get? (widths : NamedWidths) (name : String) : Option UInt32 :=
  widths.entries.lookup name

/-- Sets the widths of a list one after the other. -/
def ofList (entries : List (String × UInt32)) : NamedWidths :=
  entries.foldl (fun widths e => widths.insert e.1 e.2) empty

end NamedWidths

/-- The widths up to which a screen is mobile and up to which it is at most a tablet. -/
structure Breakpoints where
  mobile : UInt32 := 767
  tablet : UInt32 := 1023
deriving DecidableEq, Inhabited

namespace Breakpoints

def mobileMax (widths : Breakpoints) : Nat := widths.mobile.toNat

def tabletMax (widths : Breakpoints) : Nat := widths.tablet.toNat

/-- The width that comes next after the mobile ones: 0 after the last word. -/
def pastMobile (widths : Breakpoints) : UInt32 := widths.mobile + 1

/-- The width that comes next after those of tablets: 0 after the last word. -/
def pastTablet (widths : Breakpoints) : UInt32 := widths.tablet + 1

/-- The usual widths with those named `mobile` and `tablet` in their place. -/
def ofWidths (widths : Option NamedWidths) : Breakpoints :=
  let named (name : String) (usual : UInt32) : UInt32 :=
    (widths.bind fun w => w.get? name).getD usual
  ⟨named "mobile" 767, named "tablet" 1023⟩

end Breakpoints
end Handoff
