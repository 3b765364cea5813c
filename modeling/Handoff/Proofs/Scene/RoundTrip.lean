import Handoff.Proofs.Scene.Reader
/-!
# Scenes read back

A document that was read from a text is printed as a text from which it is read again. A node is the
one part that is not a record with a slot for each field: the members of its layout stand among its
own, are kept while it is read and are looked at when it ends. So its slots are split in two, its
own, which its fields serve, and those of its layout, which are what it keeps.

A node may open as many levels as it opened when it was read, as what is printed opens no more than
what was read; so nodes of any depth follow by induction on the levels.

Results:
* `NodeDraft.fits_readNode`, `NodeDraft.readNode_source`: one level of nodes.
* `Reader.prints_node`, `Reader.prints_document`: nodes of any depth, and documents.
* `Document.ofText_toJson`: a document that a text holds is read back from its own text.
-/
namespace Handoff

open Json (Slots present real someItems SlotFits slotFits_some)

/-! ## The layout among the members of a node -/

/-- The number that a value is, if it is one, is finite. -/
def Json.RealFinite (v : Json) : Prop := ∀ x, v.asReal = .ok x → x.isFinite = true

theorem Source.realFinite_toJson {s : Source} {depth : ℕ} {v : Json} (finite : s.Finite)
    (read : s.toJson depth = .ok v) : v.RealFinite := by
  intro x real
  cases s with
  | number n =>
    cases read
    cases real
    exact finite
  | null | boolean b | string t =>
    cases read
    cases real
  | unreadable | broken opening reading skipping => cases read
  | array items ending =>
    cases depth with
    | zero => cases read
    | succ depth =>
      obtain ⟨w, -, ended⟩ := exists_of_bind_eq_ok read
      obtain ⟨-, ended⟩ := eq_none_of_forM ended
      cases ended
      cases real
  | object members ending =>
    cases depth with
    | zero => cases read
    | succ depth =>
      obtain ⟨w, -, ended⟩ := exists_of_bind_eq_ok read
      obtain ⟨-, ended⟩ := eq_none_of_forM ended
      cases ended
      cases real

theorem readKept_keeps {σ : Type} {fields : List (KeptField σ)} {I : σ → Prop}
    (each : ∀ f ∈ fields, ∀ v change x, v.RealFinite → f.read v = .ok change → I x → I (change x))
    {members : List (String × Json)} (all : ∀ e ∈ members, e.2.RealFinite) {seen : List String}
    {x y : σ} (h : I x) (read : readKept fields seen x members = .ok y) : I y := by
  induction members generalizing seen x with
  | nil =>
    cases read
    exact h
  | cons e rest ih =>
    obtain ⟨name, v⟩ := e
    obtain ⟨first, later⟩ := List.forall_mem_cons.mp all
    unfold readKept at read
    split at read
    · exact ih later h read
    · next f found =>
      split at read
      · cases read
      · obtain ⟨change, now, read⟩ := exists_of_bind_eq_ok read
        exact ih later (each f (List.mem_of_find?_eq_some found) v change x first now h) read

structure Padding.Finite (p : Padding) : Prop where
  top : p.top.isFinite = true
  right : p.right.isFinite = true
  bottom : p.bottom.isFinite = true
  left : p.left.isFinite = true

namespace Layout

/-- The slots of a layout. -/
def slots (l : Layout) : Slots :=
  [("layoutMode", some (.string l.mode.name)),
    ("itemSpacing", l.spacing.map real),
    ("paddingTop", some (real l.padding.top)),
    ("paddingRight", some (real l.padding.right)),
    ("paddingBottom", some (real l.padding.bottom)),
    ("paddingLeft", some (real l.padding.left))]

section
variable {members : List (String × Json)} (all : ∀ e ∈ members, e.2.RealFinite)
include all

theorem finite_spacing {l : Layout} (read : readKept fields [] {} members = .ok l) :
    ∀ x ∈ l.spacing, x.isFinite = true := by
  refine readKept_keeps (I := fun l : Layout => ∀ x ∈ l.spacing, x.isFinite = true) ?_ all
    (fun x hx => by cases hx) read
  simp only [fields, List.forall_mem_cons]
  refine ⟨fun v change l _ read h => ?_, fun v change l finite read h => ?_,
    fun _ none => by cases none⟩
  · obtain ⟨mode, -, rfl⟩ := exists_of_map_eq_ok read
    exact h
  · obtain ⟨spacing, value, rfl⟩ := exists_of_map_eq_ok read
    intro x hx
    cases (show spacing = some x from hx)
    unfold Json.asOptional at value
    split at value
    · cases value
    · obtain ⟨y, value, same⟩ := exists_of_map_eq_ok value
      cases same
      exact finite x value

theorem finite_padding {p : Padding} (read : readKept paddingFields [] {} members = .ok p) :
    p.Finite := by
  refine readKept_keeps ?_ all ⟨rfl, rfl, rfl, rfl⟩ read
  simp only [paddingFields, List.forall_mem_cons]
  refine ⟨fun v change p finite read h => ?_, fun v change p finite read h => ?_,
    fun v change p finite read h => ?_, fun v change p finite read h => ?_,
    fun _ none => by cases none⟩
  all_goals
    obtain ⟨x, value, rfl⟩ := exists_of_map_eq_ok read
  · exact { h with top := finite x value }
  · exact { h with right := finite x value }
  · exact { h with bottom := finite x value }
  · exact { h with left := finite x value }

theorem finite_ofMembers {l : Layout} (read : ofMembers members = .ok l) : l.Finite := by
  obtain ⟨layout, own, read⟩ := exists_of_bind_eq_ok read
  obtain ⟨padding, sides, read⟩ := exists_of_bind_eq_ok read
  cases read
  have spacing := finite_spacing all own
  have p := finite_padding all sides
  exact ⟨spacing, p.top, p.right, p.bottom, p.left⟩

end

theorem ofMembers_present (l : Layout) : ofMembers (present l.slots) = .ok l := by
  obtain ⟨mode, spacing, padding⟩ := l
  cases mode <;> cases spacing <;> rfl

theorem fits_slots {l : Layout} (h : l.Finite) {depth : ℕ} :
    ∀ e ∈ l.slots, SlotFits e.2 depth := by
  simp only [slots, List.forall_mem_cons]
  refine ⟨slotFits_some (Json.fits_string _), fun w hw => ?_,
    slotFits_some (Json.fits_real h.top), slotFits_some (Json.fits_real h.right),
    slotFits_some (Json.fits_real h.bottom), slotFits_some (Json.fits_real h.left),
    fun _ none => by cases none⟩
  obtain ⟨x, hx, rfl⟩ := Option.map_eq_some_iff.mp hw
  exact Json.fits_real (h.spacing x hx)

end Layout

namespace NodeDraft

/-- The slots of a node but for its layout. -/
def slots (d : NodeDraft) : Slots :=
  [("id", some (.string d.layer.id)),
    ("name", some (.string d.layer.name)),
    ("type", some (.string d.layer.kind.name)),
    ("children", someItems (d.children.map Node.toJson)),
    ("absoluteBoundingBox", d.layer.box.map Rect.toJson),
    ("fills", someItems (d.layer.fills.map Paint.toJson)),
    ("strokes", someItems (d.layer.strokes.map Paint.toJson)),
    ("strokeWeight", d.layer.strokeWeight.map real),
    ("effects", someItems (d.layer.effects.map Effect.toJson)),
    ("style", d.layer.typography.map Typography.toJson),
    ("characters", d.layer.characters.map .string),
    ("cornerRadius", d.layer.cornerRadius.map real),
    ("opacity", d.layer.opacity.map real),
    ("constraints", d.layer.constraints.map Constraints.toJson),
    ("backgroundColor", d.layer.background.map Color.toJson)]

variable (readChildren : Source → Except Fault (List Node))

theorem own_slots (l : Layer) (children : List Node) :
    (l.slots (children.map Node.toJson)).filter
      (fun e => RecordFormat.known (fields readChildren) e.1) = slots ⟨l, children, []⟩ := by
  rfl

theorem other_slots (l : Layer) (children : List Node) :
    (l.slots (children.map Node.toJson)).filter
      (fun e => !RecordFormat.known (fields readChildren) e.1) = l.layout.slots := by
  rfl

theorem mem_slots {l : Layer} {children : List Node} {e : String × Option Json}
    (h : e ∈ l.slots (children.map Node.toJson)) :
    e ∈ slots ⟨l, children, []⟩ ∨ e ∈ l.layout.slots := by
  rw [← own_slots fun _ => .ok [], ← other_slots fun _ => .ok [], List.mem_filter, List.mem_filter,
    ← and_or_left]
  refine ⟨h, ?_⟩
  rw [Bool.not_eq_true']
  exact Bool.eq_false_or_eq_true _

theorem slots_congr {d d' : NodeDraft} (h : d.slots = d'.slots) (layout : Layout) :
    ({ d.layer with layout } : Layer).slots (d.children.map Node.toJson) =
      ({ d'.layer with layout } : Layer).slots (d'.children.map Node.toJson) := by
  simp only [slots, List.cons.injEq, Prod.mk.injEq, true_and, and_true] at h
  simp only [Layer.slots, h]

theorem finish_of_layout {d : NodeDraft} {layout : Layout}
    (h : Layout.ofMembers d.kept = .ok layout) :
    d.finish = .ok (.node { d.layer with layout } d.children) := by
  rw [finish, h]

variable {readChildren}

theorem kept_of_read {f : Field NodeDraft} (mem : f ∈ fields readChildren) {depth : ℕ} {s : Source}
    {change : NodeDraft → NodeDraft} (read : f.read depth s = .ok change) (d : NodeDraft) :
    (change d).kept = d.kept := by
  have each : ∀ f ∈ fields readChildren, ∀ depth s change, f.read depth s = .ok change →
      ∀ d, (change d).kept = d.kept := by
    have keeps {α : Type} {r : Reader α} {set : α → NodeDraft → NodeDraft}
        (same : ∀ v d, (set v d).kept = d.kept) (depth : ℕ) (s : Source)
        (change : NodeDraft → NodeDraft) (read : set <$> r depth s = .ok change) (d : NodeDraft) :
        (change d).kept = d.kept := by
      obtain ⟨v, -, rfl⟩ := exists_of_map_eq_ok read
      exact same v d
    simp only [fields, List.forall_mem_cons]
    exact ⟨keeps fun _ _ => rfl, keeps fun _ _ => rfl, keeps fun _ _ => rfl, keeps fun _ _ => rfl,
      keeps fun _ _ => rfl, keeps fun _ _ => rfl, keeps fun _ _ => rfl, keeps fun _ _ => rfl,
      keeps fun _ _ => rfl, keeps fun _ _ => rfl, keeps fun _ _ => rfl, keeps fun _ _ => rfl,
      keeps fun _ _ => rfl, keeps fun _ _ => rfl, keeps fun _ _ => rfl, fun _ none => by cases none⟩
  exact each f mem depth s change read d

theorem slots_of_keep {depth : ℕ} {name : String} {s : Source} {change : NodeDraft → NodeDraft}
    (kept : keep depth name s = .ok change) (d : NodeDraft) : (change d).slots = d.slots := by
  obtain ⟨v, -, rfl⟩ := exists_of_map_eq_ok kept
  rfl

/-- Numbers among the members that are kept are finite. -/
theorem realFinite_kept {depth : ℕ} {members : List (Source × Source)}
    (finite : ∀ e ∈ members, e.2.Finite) {ending : Option Fault} {d : NodeDraft}
    (read : RecordFormat.readObject (fields readChildren) (keep depth) {} depth members ending =
      .ok d) :
    ∀ e ∈ d.kept, e.2.RealFinite := by
  refine RecordFormat.readObject_keeps (I := fun d : NodeDraft => ∀ e ∈ d.kept, e.2.RealFinite)
    (fun f mem s change d _ read h => by rwa [kept_of_read mem read])
    (fun name s change d finite kept h => ?_) finite (fun e he => absurd he List.not_mem_nil) read
  obtain ⟨v, value, rfl⟩ := exists_of_map_eq_ok kept
  rw [List.forall_mem_append, List.forall_mem_singleton]
  exact ⟨h, Source.realFinite_toJson finite value⟩

open Reader in
/-- The fields of a node serve its slots when its children are read as they are printed. -/
theorem serve {depth : ℕ}
    (children : Reader.Fills (fun _ => readChildren) (fun ns => someItems (ns.map Node.toJson))
      depth) :
    RecordFormat.Serve (fields readChildren) {} slots depth := by
  have distinct (d : NodeDraft) : (d.slots.map Prod.fst).Nodup := of_decide_eq_true rfl
  refine ⟨?_, fun _ => rfl, of_decide_eq_true rfl⟩
  have kind : (name (some ∘ NodeKind.ofName)).Prints (fun k => .string k.name) depth :=
    prints_name NodeKind.name (fun k => congrArg some k.ofName_name) depth
  have paints := Prints.list fun d (_ : depth = d + 1) => prints_paint d
  have effects := Prints.list fun d (_ : depth = d + 1) => prints_effect d
  have text := prints_string depth
  have number := prints_real depth
  simp only [fields, List.forall_mem_cons]
  exact ⟨text.needed distinct 0 (fun _ => rfl) fun _ _ => rfl,
    text.defaulted distinct 1 (fun _ => rfl) (fun _ _ => rfl) (Json.fits_string _),
    kind.defaulted distinct 2 (fun _ => rfl) (fun _ _ => rfl) (Json.fits_string _),
    children.defaulted distinct 3 (fun _ => rfl) (fun _ _ => rfl) rfl,
    (prints_rect depth).optional.defaulted distinct 4 (fun _ => rfl) (fun _ _ => rfl) rfl,
    paints.defaulted distinct 5 (fun _ => rfl) (fun _ _ => rfl) rfl,
    paints.defaulted distinct 6 (fun _ => rfl) (fun _ _ => rfl) rfl,
    number.optional.defaulted distinct 7 (fun _ => rfl) (fun _ _ => rfl) rfl,
    effects.defaulted distinct 8 (fun _ => rfl) (fun _ _ => rfl) rfl,
    (prints_typography depth).optional.defaulted distinct 9 (fun _ => rfl) (fun _ _ => rfl) rfl,
    text.optional.defaulted distinct 10 (fun _ => rfl) (fun _ _ => rfl) rfl,
    number.optional.defaulted distinct 11 (fun _ => rfl) (fun _ _ => rfl) rfl,
    number.optional.defaulted distinct 12 (fun _ => rfl) (fun _ _ => rfl) rfl,
    (prints_constraints depth).optional.defaulted distinct 13 (fun _ => rfl) (fun _ _ => rfl) rfl,
    (prints_color depth).optional.defaulted distinct 14 (fun _ => rfl) (fun _ _ => rfl) rfl,
    fun _ none => by cases none⟩

/-! ### Nodes -/

section
variable {depth : ℕ} (serve : RecordFormat.Serve (fields readChildren) {} slots depth)
include serve

/-- A node that is read fits. -/
theorem fits_readNode {s : Source} {n : Node} (finite : s.Finite)
    (read : readNode readChildren depth s = .ok n) : (Node.toJson n).Fits (depth + 1) := by
  cases s with
  | object members ending =>
    have finite := Source.membersFinite_iff.mp finite
    obtain ⟨draft, read, finished⟩ := exists_of_bind_eq_ok read
    have own := RecordFormat.fits_readObject serve
      (fun name s change d _ kept => slots_of_keep kept d) finite read
    have kept := realFinite_kept finite read
    unfold finish at finished
    split at finished
    · next layout found =>
      cases finished
      rw [Node.toJson_node, Layer.members_eq, Json.fits_present]
      intro e he
      rcases mem_slots he with mem | mem
      · exact own e mem
      · exact Layout.fits_slots (Layout.finite_ofMembers kept found) e mem
    · cases finished
  | _ => cases read

/-- A node that fits is read back. -/
theorem readNode_source {n : Node} (fits : (Node.toJson n).Fits (depth + 1)) :
    readNode readChildren depth (Node.toJson n).source = .ok n := by
  cases n with
  | node layer children =>
    rw [Node.toJson_node, Layer.members_eq] at fits ⊢
    have each := Json.fits_present.mp fits
    have keeps : RecordFormat.Keeps (fields readChildren) (keep depth) slots depth kept
        (present (layer.slots (children.map Node.toJson))) := by
      refine ⟨fun f mem s change read d => kept_of_read mem read d, fun e he => ?_⟩
      have fits := each _ (Json.mem_present.mp (List.mem_of_mem_filter he)) e.2 rfl
      refine ⟨fun d => { d with kept := d.kept ++ [e] }, ?_, fun d => ⟨rfl, rfl⟩⟩
      rw [keep, Json.toJson_source fits.nests]
      rfl
    obtain ⟨draft, read, own, others⟩ := RecordFormat.readObject_source serve keeps
      (Json.distinct_present (of_decide_eq_true rfl)) (v := ⟨layer, children, []⟩)
      ((RecordFormat.ownMembers_present ..).trans (congrArg present (own_slots ..)))
      fun e he => each e (by
        rw [← own_slots readChildren] at he
        exact List.mem_of_mem_filter he)
    rw [RecordFormat.otherMembers_present, other_slots] at others
    show (RecordFormat.readObject (fields readChildren) (keep depth) {} depth _ none >>= finish) = _
    rw [read]
    have layout : Layout.ofMembers draft.kept = .ok layer.layout := by
      rw [others]
      exact Layout.ofMembers_present layer.layout
    refine (finish_of_layout layout).trans (congrArg Except.ok (Node.toJson_inj ?_))
    rw [Node.toJson_node, Node.toJson_node, Layer.members_eq, Layer.members_eq,
      slots_congr own layer.layout]

end
end NodeDraft

namespace Reader

theorem node_succ (depth : ℕ) :
    node (depth + 1) = NodeDraft.readNode (Reader.list node depth) depth := by
  cases depth <;> rfl

theorem prints_node (depth : ℕ) : node.Prints Node.toJson depth := by
  have notNull (n : Node) : Node.toJson n ≠ .null := by
    cases n with
    | node layer children =>
      rw [Node.toJson_node]
      intro none
      cases none
  induction depth using Nat.strong_induction_on with
  | _ depth ih =>
    cases depth with
    | zero =>
      refine ⟨notNull, fun s n _ read => ?_, fun n fits => ?_⟩
      · cases s <;> cases read
      · cases n with
        | node layer children =>
          rw [Node.toJson_node] at fits
          exact absurd fits Json.not_fits_object
    | succ d =>
      have children := Prints.list fun d' (h : d = d' + 1) => ih d' (by omega)
      have serve : RecordFormat.Serve (NodeDraft.fields (list node d)) {} NodeDraft.slots d :=
        NodeDraft.serve ⟨children.fits, children.back⟩
      refine ⟨notNull, fun s n finite read => ?_, fun n fits => ?_⟩
      · rw [node_succ] at read
        exact NodeDraft.fits_readNode serve finite read
      · rw [node_succ]
        exact NodeDraft.readNode_source serve fits

end Reader

/-! ## Documents -/

namespace Document

/-- The slots of a document. -/
def slots (d : Document) : Slots :=
  [("name", d.name.map .string),
    ("document", some (Node.toJson d.root)),
    ("components", Reader.someEntries ComponentMeta.toJson d.components)]

theorem toJson_eq (d : Document) : d.toJson = .object (present d.slots) := by
  have components : (if d.components.isEmpty then []
      else [("components", Json.object (d.components.entries.map fun e => (e.1, e.2.toJson)))]) =
      Json.optional "components" (Reader.someEntries ComponentMeta.toJson d.components) := by
    unfold Reader.someEntries
    split <;> rfl
  rw [toJson, components]
  simp only [slots, Json.present_cons, present, List.append_nil]
  rfl

theorem toJson_inj {d e : Document} (h : d.toJson = e.toJson) : d = e := by
  rw [toJson_eq, toJson_eq] at h
  have same := object_present_inj h rfl (of_decide_eq_true rfl)
  obtain ⟨name, root, components⟩ := d
  obtain ⟨name', root', components'⟩ := e
  simp only [slots, List.cons.injEq, Prod.mk.injEq, true_and, and_true, Option.some.injEq] at same
  obtain ⟨h₁, h₂, h₃⟩ := same
  rw [slot_map_inj string_inj h₁, Node.toJson_inj h₂,
    Reader.someEntries_inj ComponentMeta.toJson_inj h₃]

end Document

namespace Reader

theorem prints_document (depth : ℕ) : document.Prints Document.toJson depth := by
  have distinct (d : Document) : (d.slots.map Prod.fst).Nodup := of_decide_eq_true rfl
  refine RecordFormat.prints Document.slots Document.toJson_eq Document.toJson_inj fun d _ =>
    ⟨?_, fun _ => rfl, of_decide_eq_true rfl⟩
  have components := Prints.map fun d' (_ : d = d' + 1) => prints_componentMeta d'
  simp only [List.forall_mem_cons]
  exact ⟨(prints_string d).optional.defaulted distinct 0 (fun _ => rfl) (fun _ _ => rfl) rfl,
    (prints_node d).needed distinct 1 (fun _ => rfl) fun _ _ => rfl,
    components.defaulted distinct 2 (fun _ => rfl) (fun _ _ => rfl) rfl,
    fun _ none => by cases none⟩

theorem wholeText_text {α : Type} (r : Reader α) {v : Json} (h : v.Readable) :
    wholeText r v.text = r maxDepth v.source := by
  unfold wholeText
  rw [Source.readText_text h]
  cases read : r maxDepth v.source <;> simp only [read] <;> rfl

theorem wholeText_printed {α : Type} {r : Reader α} {p : α → Json} (prints : r.Prints p maxDepth)
    {text : String} {v : α} (read : wholeText r text = .ok v)
    (numbers : ∀ n ∈ (p v).numerals, n.Finite → n.ReadsBack) :
    wholeText r (p v).text = .ok v := by
  obtain ⟨w, value, read⟩ := exists_of_bind_eq_ok read
  obtain ⟨-, read⟩ := eq_none_of_forM read
  cases read
  have fits := prints.fits _ v (Source.finite_readText text) value
  have readable : (p v).Readable :=
    ⟨fits.finite, fun n hn => numbers n hn (fits.finite.numerals n hn)⟩
  rw [wholeText_text r readable]
  exact prints.back v fits

end Reader

/-- A document that a text holds is read back from its own text: every value in it, the order of its
component index too. Its numbers are finite, and each is taken to be read back from its digits. -/
theorem Document.ofText_toJson {text : String} {d : Document} (read : Document.ofText text = .ok d)
    (numbers : ∀ n ∈ d.toJson.numerals, n.Finite → n.ReadsBack) :
    Document.ofText d.toJson.text = .ok d :=
  Reader.wholeText_printed (Reader.prints_document maxDepth) read numbers

/-- A scene with a color in its short form, an unknown kind and a name that has two spellings. -/
def cardValue : Json := .object [
  ("name", .string "Kit"),
  ("document", .object [
    ("id", .string "1"), ("name", .string "Card"), ("type", .string "FRAME"),
    ("children", .array [.object [("id", .string "2"), ("type", .string "STICKER")]]),
    ("fills", .array [.object [("type", .string "SOLID"),
      ("color", .array [.number (.integer 1), real 0.5, .number (.integer 0)])]]),
    ("constraints", .object [("horizontal", .string "MIN")]),
    ("layoutMode", .string "VERTICAL"),
    ("paddingTop", .number (.integer 8))]),
  ("components", .object [("1", .object [("key", .string "k"), ("name", .string "Card")])])]

/-- The document that its text holds. -/
def cardDocument : Document where
  name := some "Kit"
  root := .node
    { id := "1"
      name := "Card"
      kind := .frame
      fills := [.solid ⟨.ofInt 1, 0.5, .ofInt 0, 1⟩]
      layout := { mode := .vertical, padding := { top := .ofInt 8 } }
      constraints := some {} }
    [.leaf { id := "2" }]
  components := .ofList [("1", ⟨"k", "Card", none⟩)]

theorem readable_cardValue : cardValue.Readable := by
  refine ⟨?_, ?_⟩
  · simp only [cardValue, Json.Finite, Json.Finite.membersFinite, Json.Finite.itemsFinite,
      Numeral.Finite, real, true_and, and_true]
    decide +kernel
  · decide +kernel

theorem Document.ofText_toJson_card :
    Document.ofText cardValue.text = .ok cardDocument ∧
      (∀ n ∈ cardDocument.toJson.numerals, n.ReadsBack) ∧
      Document.ofText cardDocument.toJson.text = .ok cardDocument := by
  have read : Document.ofText cardValue.text = .ok cardDocument :=
    (Reader.wholeText_text Reader.document readable_cardValue).trans rfl
  have numerals : cardDocument.toJson.numerals = [.real 0, .real 0, .real 0, .real 0,
      .real (.ofInt 1), .real 0.5, .real (.ofInt 0), .real 1, .real (.ofInt 8), .real 0, .real 0,
      .real 0] := rfl
  have numbers : ∀ n ∈ cardDocument.toJson.numerals, n.ReadsBack := by
    rw [numerals]
    decide +kernel
  exact ⟨read, numbers, ofText_toJson read fun n hn _ => numbers n hn⟩

end Handoff
