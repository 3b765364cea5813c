import Handoff.Proofs.Json.Members
import Handoff.Proofs.Scene.Finite
import Handoff.Scene.Printer
/-!
# The text of a node tells which node it is

Every part of a scene is printed through its slots, so one fact about slots serves all parts: equal
objects have equal slots. What is left for each part is to read its fields off the slots.

Results:
* `Node.toJson_inj`: nodes with one JSON value are the same node.
* `Node.text_inj`: nodes with finite numbers and one text are the same node.
-/
namespace Handoff

open Json (Slots present present_cons present_inj someItems someItems_inj unlessEmpty_eq SlotFinite
  real slotFinite_some slotFinite_map slotFinite_items membersFinite_present)

/-! ## Names -/

theorem PaintKind.ofName_name (k : PaintKind) : ofName k.name = k := by
  cases k <;> rfl

theorem PaintKind.name_inj {a b : PaintKind} (h : a.name = b.name) : a = b := by
  rw [← ofName_name a, h, ofName_name]

theorem EffectKind.ofName_name (k : EffectKind) : ofName k.name = k := by
  cases k <;> rfl

theorem EffectKind.name_inj {a b : EffectKind} (h : a.name = b.name) : a = b := by
  rw [← ofName_name a, h, ofName_name]

theorem LayoutMode.ofName_name (k : LayoutMode) : ofName k.name = k := by
  cases k <;> rfl

theorem LayoutMode.name_inj {a b : LayoutMode} (h : a.name = b.name) : a = b := by
  rw [← ofName_name a, h, ofName_name]

theorem NodeKind.ofName_name (k : NodeKind) : ofName k.name = k := by
  cases k <;> rfl

theorem NodeKind.name_inj {a b : NodeKind} (h : a.name = b.name) : a = b := by
  rw [← ofName_name a, h, ofName_name]

theorem TextAlign.ofName_name (k : TextAlign) : ofName? k.name = some k := by
  cases k <;> rfl

theorem TextAlign.name_inj {a b : TextAlign} (h : a.name = b.name) : a = b :=
  Option.some.inj (by rw [← ofName_name a, h, ofName_name])

theorem HorizontalAnchor.ofName_name (k : HorizontalAnchor) : ofName? k.name = some k := by
  cases k <;> rfl

theorem HorizontalAnchor.name_inj {a b : HorizontalAnchor} (h : a.name = b.name) : a = b :=
  Option.some.inj (by rw [← ofName_name a, h, ofName_name])

theorem VerticalAnchor.ofName_name (k : VerticalAnchor) : ofName? k.name = some k := by
  cases k <;> rfl

theorem VerticalAnchor.name_inj {a b : VerticalAnchor} (h : a.name = b.name) : a = b :=
  Option.some.inj (by rw [← ofName_name a, h, ofName_name])

/-! ## Slots -/

/-- Objects made from slots of the same names are equal only if the slots are. -/
theorem object_present_inj {a b : Slots} (h : Json.object (present a) = Json.object (present b))
    (names : a.map Prod.fst = b.map Prod.fst) (distinct : (a.map Prod.fst).Nodup) : a = b :=
  present_inj (Json.object.inj h) names distinct

theorem slot_map_inj {α : Type} {f : α → Json} (inj : ∀ {x y}, f x = f y → x = y)
    {a b : Option α} (h : a.map f = b.map f) : a = b := by
  cases a with
  | none =>
    cases b with
    | none => rfl
    | some y => cases h
  | some x =>
    cases b with
    | none => cases h
    | some y => rw [inj (Option.some.inj h)]

theorem slot_items_inj {α : Type} {f : α → Json} (inj : ∀ {x y}, f x = f y → x = y)
    {a b : List α} (h : someItems (a.map f) = someItems (b.map f)) : a = b :=
  List.map_injective_iff.mpr (fun _ _ => inj) (someItems_inj h)

theorem real_inj {x y : Float} (h : real x = real y) : x = y :=
  Numeral.real.inj (Json.number.inj h)

theorem string_inj {a b : String} (h : Json.string a = Json.string b) : a = b :=
  Json.string.inj h

theorem boolean_inj {a b : Bool} (h : Json.boolean a = Json.boolean b) : a = b :=
  Json.boolean.inj h

/-! ## Colors, vectors, boxes -/

theorem Color.toJson_inj {c d : Color} (h : c.toJson = d.toJson) : c = d := by
  obtain ⟨r, g, b, a⟩ := c
  obtain ⟨r', g', b', a'⟩ := d
  simp only [Color.toJson, real, Json.object.injEq, List.cons.injEq, Prod.mk.injEq, true_and,
    Json.number.injEq, Numeral.real.injEq, and_true] at h
  obtain ⟨rfl, rfl, rfl, rfl⟩ := h
  rfl

theorem Color.finite_toJson {c : Color} (h : c.Finite) : c.toJson.Finite :=
  ⟨h.r, h.g, h.b, h.a, trivial⟩

theorem Vector2.toJson_inj {v w : Vector2} (h : v.toJson = w.toJson) : v = w := by
  obtain ⟨x, y⟩ := v
  obtain ⟨x', y'⟩ := w
  simp only [Vector2.toJson, real, Json.object.injEq, List.cons.injEq, Prod.mk.injEq, true_and,
    Json.number.injEq, Numeral.real.injEq, and_true] at h
  obtain ⟨rfl, rfl⟩ := h
  rfl

theorem Vector2.finite_toJson {v : Vector2} (h : v.Finite) : v.toJson.Finite :=
  ⟨h.x, h.y, trivial⟩

theorem Rect.toJson_inj {r s : Rect} (h : r.toJson = s.toJson) : r = s := by
  obtain ⟨x, y, width, height⟩ := r
  obtain ⟨x', y', width', height'⟩ := s
  simp only [Rect.toJson, real, Json.object.injEq, List.cons.injEq, Prod.mk.injEq, true_and,
    Json.number.injEq, Numeral.real.injEq, and_true] at h
  obtain ⟨rfl, rfl, rfl, rfl⟩ := h
  rfl

theorem Rect.finite_toJson {r : Rect} (h : r.Finite) : r.toJson.Finite :=
  ⟨h.x, h.y, h.width, h.height, trivial⟩

theorem ColorStop.toJson_inj {s t : ColorStop} (h : s.toJson = t.toJson) : s = t := by
  obtain ⟨color, position⟩ := s
  obtain ⟨color', position'⟩ := t
  simp only [ColorStop.toJson, real, Json.object.injEq, List.cons.injEq, Prod.mk.injEq, true_and,
    Json.number.injEq, Numeral.real.injEq, and_true] at h
  obtain ⟨color, rfl⟩ := h
  rw [Color.toJson_inj color]

theorem ColorStop.finite_toJson {s : ColorStop} (h : s.Finite) : s.toJson.Finite :=
  ⟨Color.finite_toJson h.color, h.position, trivial⟩

/-! ## Paints and effects -/

/-- The slots of a paint. -/
def Paint.slots (p : Paint) : Slots :=
  [("type", some (.string p.kind.name)),
    ("color", p.color.map Color.toJson),
    ("opacity", p.opacity.map real),
    ("visible", p.visible.map .boolean),
    ("gradientStops", someItems (p.stops.map ColorStop.toJson)),
    ("gradientHandlePositions", someItems (p.handles.map Vector2.toJson)),
    ("imageRef", p.imageRef.map .string)]

theorem Paint.toJson_eq (p : Paint) : p.toJson = .object (present p.slots) := by
  simp only [Paint.toJson, Paint.slots, unlessEmpty_eq, present_cons, present, List.append_assoc,
    List.append_nil]
  rfl

theorem Paint.toJson_inj {p q : Paint} (h : p.toJson = q.toJson) : p = q := by
  rw [toJson_eq, toJson_eq] at h
  have slots := object_present_inj h rfl (of_decide_eq_true rfl)
  obtain ⟨kind, color, opacity, visible, stops, handles, imageRef⟩ := p
  obtain ⟨kind', color', opacity', visible', stops', handles', imageRef'⟩ := q
  simp only [Paint.slots, List.cons.injEq, Prod.mk.injEq, true_and, and_true, Option.some.injEq] at slots
  obtain ⟨h₁, h₂, h₃, h₄, h₅, h₆, h₇⟩ := slots
  rw [PaintKind.name_inj (string_inj h₁), slot_map_inj Color.toJson_inj h₂,
    slot_map_inj real_inj h₃, slot_map_inj boolean_inj h₄, slot_items_inj ColorStop.toJson_inj h₅,
    slot_items_inj Vector2.toJson_inj h₆, slot_map_inj string_inj h₇]

theorem Paint.finite_toJson {p : Paint} (h : p.Finite) : p.toJson.Finite := by
  rw [toJson_eq]
  apply membersFinite_present
  simp only [Paint.slots, List.forall_mem_cons]
  refine ⟨slotFinite_some trivial, slotFinite_map ?_, slotFinite_map ?_, slotFinite_map ?_,
    slotFinite_items ?_, slotFinite_items ?_, slotFinite_map ?_, fun _ none => by cases none⟩
  · exact fun c hc => Color.finite_toJson (h.color c hc)
  · exact h.opacity
  · exact fun _ _ => trivial
  · exact fun s hs => ColorStop.finite_toJson (h.stops s hs)
  · exact fun v hv => Vector2.finite_toJson (h.handles v hv)
  · exact fun _ _ => trivial

/-- The slots of an effect. -/
def Effect.slots (e : Effect) : Slots :=
  [("type", some (.string e.kind.name)),
    ("visible", e.visible.map .boolean),
    ("radius", some (real e.radius)),
    ("spread", e.spread.map real),
    ("offset", e.offset.map Vector2.toJson),
    ("color", e.color.map Color.toJson)]

theorem Effect.toJson_eq (e : Effect) : e.toJson = .object (present e.slots) := by
  simp only [Effect.toJson, Effect.slots, present_cons, present, List.append_assoc, List.append_nil]
  rfl

theorem Effect.toJson_inj {e f : Effect} (h : e.toJson = f.toJson) : e = f := by
  rw [toJson_eq, toJson_eq] at h
  have slots := object_present_inj h rfl (of_decide_eq_true rfl)
  obtain ⟨kind, visible, radius, spread, offset, color⟩ := e
  obtain ⟨kind', visible', radius', spread', offset', color'⟩ := f
  simp only [Effect.slots, List.cons.injEq, Prod.mk.injEq, true_and, and_true,
    Option.some.injEq] at slots
  obtain ⟨h₁, h₂, h₃, h₄, h₅, h₆⟩ := slots
  rw [EffectKind.name_inj (string_inj h₁), slot_map_inj boolean_inj h₂, real_inj h₃,
    slot_map_inj real_inj h₄, slot_map_inj Vector2.toJson_inj h₅, slot_map_inj Color.toJson_inj h₆]

theorem Effect.finite_toJson {e : Effect} (h : e.Finite) : e.toJson.Finite := by
  rw [toJson_eq]
  apply membersFinite_present
  simp only [Effect.slots, List.forall_mem_cons]
  refine ⟨slotFinite_some trivial, slotFinite_map ?_, slotFinite_some h.radius, slotFinite_map ?_,
    slotFinite_map ?_, slotFinite_map ?_, fun _ none => by cases none⟩
  · exact fun _ _ => trivial
  · exact h.spread
  · exact fun v hv => Vector2.finite_toJson (h.offset v hv)
  · exact fun c hc => Color.finite_toJson (h.color c hc)

/-! ## Texts and anchors -/

/-- The slots of what says how a text is set. -/
def Typography.slots (t : Typography) : Slots :=
  [("fontFamily", t.family.map .string),
    ("fontSize", t.size.map real),
    ("fontWeight", t.weight.map real),
    ("lineHeightPx", t.lineHeight.map real),
    ("letterSpacing", t.letterSpacing.map real),
    ("textAlignHorizontal", t.align.map fun a => .string a.name),
    ("fills", someItems (t.fills.map Paint.toJson))]

theorem Typography.toJson_eq (t : Typography) : t.toJson = .object (present t.slots) := by
  simp only [Typography.toJson, Typography.slots, unlessEmpty_eq, present_cons, present,
    List.append_assoc, List.append_nil]

theorem align_inj {a b : TextAlign} (h : Json.string a.name = Json.string b.name) : a = b :=
  TextAlign.name_inj (string_inj h)

theorem Typography.toJson_inj {t u : Typography} (h : t.toJson = u.toJson) : t = u := by
  rw [toJson_eq, toJson_eq] at h
  have slots := object_present_inj h rfl (of_decide_eq_true rfl)
  obtain ⟨family, size, weight, lineHeight, letterSpacing, align, fills⟩ := t
  obtain ⟨family', size', weight', lineHeight', letterSpacing', align', fills'⟩ := u
  simp only [Typography.slots, List.cons.injEq, Prod.mk.injEq, true_and, and_true] at slots
  obtain ⟨h₁, h₂, h₃, h₄, h₅, h₆, h₇⟩ := slots
  rw [slot_map_inj string_inj h₁, slot_map_inj real_inj h₂, slot_map_inj real_inj h₃,
    slot_map_inj real_inj h₄, slot_map_inj real_inj h₅, slot_map_inj align_inj h₆,
    slot_items_inj Paint.toJson_inj h₇]

theorem Typography.finite_toJson {t : Typography} (h : t.Finite) : t.toJson.Finite := by
  rw [toJson_eq]
  apply membersFinite_present
  simp only [Typography.slots, List.forall_mem_cons]
  refine ⟨slotFinite_map ?_, slotFinite_map ?_, slotFinite_map ?_, slotFinite_map ?_,
    slotFinite_map ?_, slotFinite_map ?_, slotFinite_items ?_, fun _ none => by cases none⟩
  · exact fun _ _ => trivial
  · exact h.size
  · exact h.weight
  · exact h.lineHeight
  · exact h.letterSpacing
  · exact fun _ _ => trivial
  · exact fun p hp => Paint.finite_toJson (h.fills p hp)

theorem Constraints.toJson_inj {c d : Constraints} (h : c.toJson = d.toJson) : c = d := by
  obtain ⟨horizontal, vertical⟩ := c
  obtain ⟨horizontal', vertical'⟩ := d
  simp only [Constraints.toJson, Json.object.injEq, List.cons.injEq, Prod.mk.injEq, true_and,
    Json.string.injEq, and_true] at h
  rw [HorizontalAnchor.name_inj h.1, VerticalAnchor.name_inj h.2]

/-! ## Nodes -/

/-- The slots of a layer, its children behind its kind. -/
def Layer.slots (l : Layer) (children : List Json) : Slots :=
  [("id", some (.string l.id)),
    ("name", some (.string l.name)),
    ("type", some (.string l.kind.name)),
    ("children", someItems children),
    ("absoluteBoundingBox", l.box.map Rect.toJson),
    ("fills", someItems (l.fills.map Paint.toJson)),
    ("strokes", someItems (l.strokes.map Paint.toJson)),
    ("strokeWeight", l.strokeWeight.map real),
    ("effects", someItems (l.effects.map Effect.toJson)),
    ("style", l.typography.map Typography.toJson),
    ("characters", l.characters.map .string),
    ("layoutMode", some (.string l.layout.mode.name)),
    ("itemSpacing", l.layout.spacing.map real),
    ("paddingTop", some (real l.layout.padding.top)),
    ("paddingRight", some (real l.layout.padding.right)),
    ("paddingBottom", some (real l.layout.padding.bottom)),
    ("paddingLeft", some (real l.layout.padding.left)),
    ("cornerRadius", l.cornerRadius.map real),
    ("opacity", l.opacity.map real),
    ("constraints", l.constraints.map Constraints.toJson),
    ("backgroundColor", l.background.map Color.toJson)]

theorem Layer.members_eq (l : Layer) (children : List Json) :
    l.members children = present (l.slots children) := by
  simp only [Layer.members, Layer.slots, Layout.members, unlessEmpty_eq, present_cons, present,
    List.append_assoc, List.append_nil]
  rfl

/-- The members of a node tell its layer and the values of its children. -/
theorem Layer.members_inj {l m : Layer} {vs ws : List Json} (h : l.members vs = m.members ws) :
    l = m ∧ vs = ws := by
  rw [members_eq, members_eq] at h
  have slots := present_inj h rfl (of_decide_eq_true rfl)
  obtain ⟨id, name, kind, box, fills, strokes, strokeWeight, effects, typography, characters,
    ⟨mode, spacing, ⟨top, right, bottom, left⟩⟩, cornerRadius, opacity, constraints,
    background⟩ := l
  obtain ⟨id', name', kind', box', fills', strokes', strokeWeight', effects', typography',
    characters', ⟨mode', spacing', ⟨top', right', bottom', left'⟩⟩, cornerRadius', opacity',
    constraints', background'⟩ := m
  simp only [Layer.slots, List.cons.injEq, Prod.mk.injEq, true_and, and_true,
    Option.some.injEq] at slots
  obtain ⟨h₁, h₂, h₃, h₄, h₅, h₆, h₇, h₈, h₉, h₁₀, h₁₁, h₁₂, h₁₃, h₁₄, h₁₅, h₁₆, h₁₇, h₁₈, h₁₉, h₂₀,
    h₂₁⟩ := slots
  refine ⟨?_, someItems_inj h₄⟩
  rw [string_inj h₁, string_inj h₂, NodeKind.name_inj (string_inj h₃),
    slot_map_inj Rect.toJson_inj h₅, slot_items_inj Paint.toJson_inj h₆,
    slot_items_inj Paint.toJson_inj h₇, slot_map_inj real_inj h₈,
    slot_items_inj Effect.toJson_inj h₉, slot_map_inj Typography.toJson_inj h₁₀,
    slot_map_inj string_inj h₁₁, LayoutMode.name_inj (string_inj h₁₂), slot_map_inj real_inj h₁₃,
    real_inj h₁₄, real_inj h₁₅, real_inj h₁₆, real_inj h₁₇, slot_map_inj real_inj h₁₈,
    slot_map_inj real_inj h₁₉, slot_map_inj Constraints.toJson_inj h₂₀,
    slot_map_inj Color.toJson_inj h₂₁]

theorem Layer.finite_members {l : Layer} (h : l.Finite) {children : List Json}
    (below : ∀ v ∈ children, v.Finite) : Json.Finite.membersFinite (l.members children) := by
  rw [members_eq]
  apply membersFinite_present
  simp only [Layer.slots, List.forall_mem_cons]
  have items : SlotFinite (someItems children) := by
    rw [← List.map_id' children]
    exact slotFinite_items below
  refine ⟨slotFinite_some trivial, slotFinite_some trivial, slotFinite_some trivial, items,
    slotFinite_map ?_, slotFinite_items ?_, slotFinite_items ?_, slotFinite_map ?_,
    slotFinite_items ?_, slotFinite_map ?_, slotFinite_map ?_, slotFinite_some trivial,
    slotFinite_map ?_, slotFinite_some h.layout.top, slotFinite_some h.layout.right,
    slotFinite_some h.layout.bottom, slotFinite_some h.layout.left, slotFinite_map ?_,
    slotFinite_map ?_, slotFinite_map ?_, slotFinite_map ?_, fun _ none => by cases none⟩
  · exact fun r hr => Rect.finite_toJson (h.box r hr)
  · exact fun p hp => Paint.finite_toJson (h.fills p hp)
  · exact fun p hp => Paint.finite_toJson (h.strokes p hp)
  · exact h.strokeWeight
  · exact fun e he => Effect.finite_toJson (h.effects e he)
  · exact fun t ht => Typography.finite_toJson (h.typography t ht)
  · exact fun _ _ => trivial
  · exact h.layout.spacing
  · exact h.cornerRadius
  · exact h.opacity
  · exact fun _ _ => ⟨trivial, trivial, trivial⟩
  · exact fun c hc => Color.finite_toJson (h.background c hc)

theorem Node.nodesToJson_eq (ns : List Node) : Node.toJson.nodesToJson ns = ns.map Node.toJson := by
  induction ns with
  | nil => rfl
  | cons n ns ih => rw [Node.toJson.nodesToJson, ih, List.map_cons]

theorem Node.toJson_node (layer : Layer) (children : List Node) :
    Node.toJson (.node layer children) = .object (layer.members (children.map Node.toJson)) := by
  rw [Node.toJson, Node.nodesToJson_eq]

/-- Nodes with one JSON value are the same node. -/
theorem Node.toJson_inj {n m : Node} (h : Node.toJson n = Node.toJson m) : n = m := by
  induction n using Tree.ind generalizing m with
  | node layer children ih =>
    cases m with
    | node layer' children' =>
      rw [toJson_node, toJson_node] at h
      obtain ⟨rfl, below⟩ := Layer.members_inj (Json.object.inj h)
      have same : children = children' := by
        clear h
        induction children generalizing children' with
        | nil => exact (List.map_eq_nil_iff.mp below.symm).symm
        | cons c cs step =>
          cases children' with
          | nil => cases below
          | cons d ds =>
            obtain ⟨first, rest⟩ := List.cons.inj below
            rw [ih c (List.mem_cons_self ..) first,
              step (fun c hc => ih c (List.mem_cons_of_mem _ hc)) ds rest]
      rw [same]

theorem Node.finite_toJson {n : Node} (h : Node.Finite n) : (Node.toJson n).Finite := by
  induction n using Tree.ind with
  | node layer children ih =>
    rw [toJson_node]
    apply Layer.finite_members h.root
    intro v hv
    obtain ⟨c, hc, rfl⟩ := List.mem_map.mp hv
    exact ih c hc (h.child c hc)

/-- Nodes with finite numbers and one text are the same node. -/
theorem Node.text_inj {n m : Node} (hn : Node.Finite n) (hm : Node.Finite m)
    (h : (Node.toJson n).text = (Node.toJson m).text) : n = m :=
  Node.toJson_inj (Json.text_inj (Node.finite_toJson hn) (Node.finite_toJson hm) h)

end Handoff
