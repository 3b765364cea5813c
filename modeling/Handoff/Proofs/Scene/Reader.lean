import Handoff.Proofs.Json.Record
import Handoff.Proofs.Scene.Printer
import Handoff.Scene.Reader
/-!
# The parts of a scene read back

The format of each part reads the slots from which the part is printed, one field for each slot. So
a part that was read is printed as a value that fits, and what is printed is read back.

Results: `prints_paint`, `prints_effect`, `prints_typography`, `prints_constraints`, and the same
for what these are made of.
-/
namespace Handoff

open Json (Slots present real)

/-! ## Colors, vectors, boxes -/

def Color.slots (c : Color) : Slots :=
  [("r", some (real c.r)), ("g", some (real c.g)), ("b", some (real c.b)), ("a", some (real c.a))]

def Vector2.slots (v : Vector2) : Slots :=
  [("x", some (real v.x)), ("y", some (real v.y))]

def Rect.slots (r : Rect) : Slots :=
  [("x", some (real r.x)), ("y", some (real r.y)), ("width", some (real r.width)),
    ("height", some (real r.height))]

def ColorStop.slots (s : ColorStop) : Slots :=
  [("color", some s.color.toJson), ("position", some (real s.position))]

def Constraints.slots (c : Constraints) : Slots :=
  [("horizontal", some (.string c.horizontal.name)), ("vertical", some (.string c.vertical.name))]

def ComponentMeta.slots (c : ComponentMeta) : Slots :=
  [("key", some (.string c.key)), ("name", some (.string c.name)),
    ("description", c.description.map .string)]

namespace Reader

theorem prints_color (depth : ℕ) : color.Prints Color.toJson depth := by
  have distinct (c : Color) : (c.slots.map Prod.fst).Nodup := of_decide_eq_true rfl
  refine RecordFormat.prints Color.slots (fun _ => rfl) Color.toJson_inj fun d _ =>
    ⟨?_, fun _ => rfl, of_decide_eq_true rfl⟩
  simp only [List.forall_mem_cons]
  exact ⟨(prints_real d).needed distinct 0 (fun _ => rfl) fun _ _ => rfl,
    (prints_real d).needed distinct 1 (fun _ => rfl) fun _ _ => rfl,
    (prints_real d).needed distinct 2 (fun _ => rfl) fun _ _ => rfl,
    (prints_real d).defaulted distinct 3 (fun _ => rfl) (fun _ _ => rfl) (Json.fits_real rfl),
    fun _ none => by cases none⟩

theorem prints_vector (depth : ℕ) : vector.Prints Vector2.toJson depth := by
  have distinct (v : Vector2) : (v.slots.map Prod.fst).Nodup := of_decide_eq_true rfl
  refine RecordFormat.prints Vector2.slots (fun _ => rfl) Vector2.toJson_inj fun d _ =>
    ⟨?_, fun _ => rfl, of_decide_eq_true rfl⟩
  simp only [List.forall_mem_cons]
  exact ⟨
    (prints_real d).defaulted distinct 0 (fun _ => rfl) (fun _ _ => rfl) (Json.fits_real rfl),
    (prints_real d).defaulted distinct 1 (fun _ => rfl) (fun _ _ => rfl) (Json.fits_real rfl),
    fun _ none => by cases none⟩

theorem prints_rect (depth : ℕ) : rect.Prints Rect.toJson depth := by
  have distinct (r : Rect) : (r.slots.map Prod.fst).Nodup := of_decide_eq_true rfl
  refine RecordFormat.prints Rect.slots (fun _ => rfl) Rect.toJson_inj fun d _ =>
    ⟨?_, fun _ => rfl, of_decide_eq_true rfl⟩
  simp only [List.forall_mem_cons]
  exact ⟨
    (prints_real d).defaulted distinct 0 (fun _ => rfl) (fun _ _ => rfl) (Json.fits_real rfl),
    (prints_real d).defaulted distinct 1 (fun _ => rfl) (fun _ _ => rfl) (Json.fits_real rfl),
    (prints_real d).defaulted distinct 2 (fun _ => rfl) (fun _ _ => rfl) (Json.fits_real rfl),
    (prints_real d).defaulted distinct 3 (fun _ => rfl) (fun _ _ => rfl) (Json.fits_real rfl),
    fun _ none => by cases none⟩

theorem prints_colorStop (depth : ℕ) : colorStop.Prints ColorStop.toJson depth := by
  have distinct (s : ColorStop) : (s.slots.map Prod.fst).Nodup := of_decide_eq_true rfl
  refine RecordFormat.prints ColorStop.slots (fun _ => rfl) ColorStop.toJson_inj fun d _ =>
    ⟨?_, fun _ => rfl, of_decide_eq_true rfl⟩
  simp only [List.forall_mem_cons]
  exact ⟨(prints_color d).needed distinct 0 (fun _ => rfl) fun _ _ => rfl,
    (prints_real d).defaulted distinct 1 (fun _ => rfl) (fun _ _ => rfl) (Json.fits_real rfl),
    fun _ none => by cases none⟩

/-! ## Paints and effects -/

theorem prints_paint (depth : ℕ) : paint.Prints Paint.toJson depth := by
  have distinct (p : Paint) : (p.slots.map Prod.fst).Nodup := of_decide_eq_true rfl
  refine RecordFormat.prints Paint.slots Paint.toJson_eq Paint.toJson_inj fun d _ =>
    ⟨?_, fun _ => rfl, of_decide_eq_true rfl⟩
  have kind : (name (some ∘ PaintKind.ofName)).Prints (fun k => .string k.name) d :=
    prints_name PaintKind.name (fun k => congrArg some k.ofName_name) d
  have stops := Prints.list fun d' (_ : d = d' + 1) => prints_colorStop d'
  have handles := Prints.list fun d' (_ : d = d' + 1) => prints_vector d'
  simp only [List.forall_mem_cons]
  exact ⟨kind.needed distinct 0 (fun _ => rfl) fun _ _ => rfl,
    (prints_color d).optional.defaulted distinct 1 (fun _ => rfl) (fun _ _ => rfl) rfl,
    (prints_real d).optional.defaulted distinct 2 (fun _ => rfl) (fun _ _ => rfl) rfl,
    (prints_boolean d).optional.defaulted distinct 3 (fun _ => rfl) (fun _ _ => rfl) rfl,
    stops.defaulted distinct 4 (fun _ => rfl) (fun _ _ => rfl) rfl,
    handles.defaulted distinct 5 (fun _ => rfl) (fun _ _ => rfl) rfl,
    (prints_string d).optional.defaulted distinct 6 (fun _ => rfl) (fun _ _ => rfl) rfl,
    fun _ none => by cases none⟩

theorem prints_effect (depth : ℕ) : effect.Prints Effect.toJson depth := by
  have distinct (e : Effect) : (e.slots.map Prod.fst).Nodup := of_decide_eq_true rfl
  refine RecordFormat.prints Effect.slots Effect.toJson_eq Effect.toJson_inj fun d _ =>
    ⟨?_, fun _ => rfl, of_decide_eq_true rfl⟩
  have kind : (name (some ∘ EffectKind.ofName)).Prints (fun k => .string k.name) d :=
    prints_name EffectKind.name (fun k => congrArg some k.ofName_name) d
  simp only [List.forall_mem_cons]
  exact ⟨kind.needed distinct 0 (fun _ => rfl) fun _ _ => rfl,
    (prints_boolean d).optional.defaulted distinct 1 (fun _ => rfl) (fun _ _ => rfl) rfl,
    (prints_real d).defaulted distinct 2 (fun _ => rfl) (fun _ _ => rfl) (Json.fits_real rfl),
    (prints_real d).optional.defaulted distinct 3 (fun _ => rfl) (fun _ _ => rfl) rfl,
    (prints_vector d).optional.defaulted distinct 4 (fun _ => rfl) (fun _ _ => rfl) rfl,
    (prints_color d).optional.defaulted distinct 5 (fun _ => rfl) (fun _ _ => rfl) rfl,
    fun _ none => by cases none⟩

/-! ## Texts, anchors, the component index -/

theorem prints_typography (depth : ℕ) : typography.Prints Typography.toJson depth := by
  have distinct (t : Typography) : (t.slots.map Prod.fst).Nodup := of_decide_eq_true rfl
  refine RecordFormat.prints Typography.slots Typography.toJson_eq Typography.toJson_inj fun d _ =>
    ⟨?_, fun _ => rfl, of_decide_eq_true rfl⟩
  have align := prints_name TextAlign.name TextAlign.ofName_name d
  have fills := Prints.list fun d' (_ : d = d' + 1) => prints_paint d'
  simp only [List.forall_mem_cons]
  exact ⟨(prints_string d).optional.defaulted distinct 0 (fun _ => rfl) (fun _ _ => rfl) rfl,
    (prints_real d).optional.defaulted distinct 1 (fun _ => rfl) (fun _ _ => rfl) rfl,
    (prints_real d).optional.defaulted distinct 2 (fun _ => rfl) (fun _ _ => rfl) rfl,
    (prints_real d).optional.defaulted distinct 3 (fun _ => rfl) (fun _ _ => rfl) rfl,
    (prints_real d).optional.defaulted distinct 4 (fun _ => rfl) (fun _ _ => rfl) rfl,
    align.optional.defaulted distinct 5 (fun _ => rfl) (fun _ _ => rfl) rfl,
    fills.defaulted distinct 6 (fun _ => rfl) (fun _ _ => rfl) rfl,
    fun _ none => by cases none⟩

theorem prints_constraints (depth : ℕ) : constraints.Prints Constraints.toJson depth := by
  have distinct (c : Constraints) : (c.slots.map Prod.fst).Nodup := of_decide_eq_true rfl
  refine RecordFormat.prints Constraints.slots (fun _ => rfl) Constraints.toJson_inj fun d _ =>
    ⟨?_, fun _ => rfl, of_decide_eq_true rfl⟩
  have horizontal := prints_name HorizontalAnchor.name HorizontalAnchor.ofName_name d
  have vertical := prints_name VerticalAnchor.name VerticalAnchor.ofName_name d
  simp only [List.forall_mem_cons]
  exact ⟨horizontal.defaulted distinct 0 (fun _ => rfl) (fun _ _ => rfl) (Json.fits_string _),
    vertical.defaulted distinct 1 (fun _ => rfl) (fun _ _ => rfl) (Json.fits_string _),
    fun _ none => by cases none⟩

end Reader

theorem ComponentMeta.toJson_eq (c : ComponentMeta) : c.toJson = .object (present c.slots) := by
  simp only [ComponentMeta.toJson, ComponentMeta.slots, Json.present_cons, present,
    List.append_nil]
  rfl

theorem ComponentMeta.toJson_inj {c d : ComponentMeta} (h : c.toJson = d.toJson) : c = d := by
  rw [toJson_eq, toJson_eq] at h
  have slots := object_present_inj h rfl (of_decide_eq_true rfl)
  obtain ⟨key, name, description⟩ := c
  obtain ⟨key', name', description'⟩ := d
  simp only [ComponentMeta.slots, List.cons.injEq, Prod.mk.injEq, true_and, and_true,
    Option.some.injEq] at slots
  obtain ⟨h₁, h₂, h₃⟩ := slots
  rw [string_inj h₁, string_inj h₂, slot_map_inj string_inj h₃]

theorem Reader.prints_componentMeta (depth : ℕ) :
    componentMeta.Prints ComponentMeta.toJson depth := by
  have distinct (c : ComponentMeta) : (c.slots.map Prod.fst).Nodup := of_decide_eq_true rfl
  refine RecordFormat.prints ComponentMeta.slots ComponentMeta.toJson_eq ComponentMeta.toJson_inj
    fun d _ => ⟨?_, fun _ => rfl, of_decide_eq_true rfl⟩
  simp only [List.forall_mem_cons]
  exact ⟨(prints_string d).needed distinct 0 (fun _ => rfl) fun _ _ => rfl,
    (prints_string d).needed distinct 1 (fun _ => rfl) fun _ _ => rfl,
    (prints_string d).optional.defaulted distinct 2 (fun _ => rfl) (fun _ _ => rfl) rfl,
    fun _ none => by cases none⟩

end Handoff
