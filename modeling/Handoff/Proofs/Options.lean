import Handoff.Options
import Handoff.Proofs.Json.Text
/-!
# The text of options tells which options they are

Options and custom code are printed with all members, so their values can be compared member by
member. Nothing in them is a number with a fraction, so their texts can be read without a condition.

Results: `Options.text_inj`, `CustomCode.text_inj`.
-/
namespace Handoff

theorem MarkupDialect.name_inj {a b : MarkupDialect} (h : a.name = b.name) : a = b := by
  have left (d : MarkupDialect) : MarkupDialect.ofLower? d.name = some d := by cases d <;> rfl
  exact Option.some.inj (by rw [← left a, h, left])

theorem StyleDialect.name_inj {a b : StyleDialect} (h : a.name = b.name) : a = b := by
  have left (d : StyleDialect) : StyleDialect.ofLower? d.name = some d := by cases d <;> rfl
  exact Option.some.inj (by rw [← left a, h, left])

theorem AuditProfile.name_inj {a b : AuditProfile} (h : a.name = b.name) : a = b := by
  have left (p : AuditProfile) : AuditProfile.ofName? p.name = some p := by cases p <;> rfl
  exact Option.some.inj (by rw [← left a, h, left])

theorem NamedWidths.ext_entries {a b : NamedWidths} (h : a.entries = b.entries) : a = b := by
  cases a
  cases b
  cases h
  rfl

namespace Options

def widthMembers (entries : List (String × UInt32)) : List (String × Json) :=
  entries.map fun e => (e.1, .number (.integer e.2.toNat))

theorem widthMembers_inj {a b : List (String × UInt32)} (h : widthMembers a = widthMembers b) :
    a = b := by
  refine List.map_injective_iff.mpr (fun e f same => ?_) h
  obtain ⟨name, value⟩ := Prod.mk.inj same
  have nat := Int.ofNat.inj (Numeral.integer.inj (Json.number.inj value))
  exact Prod.ext name (UInt32.toNat_inj.mp nat)

theorem orNull_inj {α : Type} {f : α → Json} (inj : ∀ {x y}, f x = f y → x = y)
    (value : ∀ x, f x ≠ .null) {a b : Option α} (h : orNull f a = orNull f b) : a = b := by
  cases a with
  | none =>
    cases b with
    | none => rfl
    | some y => exact absurd h.symm (value y)
  | some x =>
    cases b with
    | none => exact absurd h (value x)
    | some y => rw [inj h]

theorem toJson_inj {o p : Options} (h : o.toJson = p.toJson) : o = p := by
  obtain ⟨markup, stylesheet, typescript, accessibility, responsive, images, profile, widths⟩ := o
  obtain ⟨markup', stylesheet', typescript', accessibility', responsive', images', profile',
    widths'⟩ := p
  simp only [toJson, Json.object.injEq, List.cons.injEq, Prod.mk.injEq, true_and, and_true,
    Json.boolean.injEq, Json.string.injEq] at h
  obtain ⟨h₁, h₂, rfl, rfl, rfl, rfl, h₇, h₈⟩ := h
  have markups := orNull_inj (fun h => MarkupDialect.name_inj (Json.string.inj h))
    (fun _ null => by cases null) h₁
  have styles := orNull_inj (fun h => StyleDialect.name_inj (Json.string.inj h))
    (fun _ null => by cases null) h₂
  have breakpoints := orNull_inj
    (fun h => NamedWidths.ext_entries (widthMembers_inj (Json.object.inj h)))
    (fun _ null => by cases null) h₈
  rw [markups, styles, AuditProfile.name_inj h₇, breakpoints]

theorem membersFinite_widthMembers (entries : List (String × UInt32)) :
    Json.Finite.membersFinite (widthMembers entries) := by
  induction entries with
  | nil => trivial
  | cons e rest ih => exact ⟨trivial, ih⟩

theorem finite_orNull {α : Type} {f : α → Json} (h : ∀ x, (f x).Finite) (v : Option α) :
    (orNull f v).Finite := by
  cases v with
  | none => trivial
  | some x => exact h x

theorem finite_toJson (o : Options) : o.toJson.Finite := by
  refine ⟨finite_orNull ?_ _, finite_orNull ?_ _, trivial, trivial, trivial, trivial, trivial,
    finite_orNull ?_ _, trivial⟩
  · exact fun _ => trivial
  · exact fun _ => trivial
  · exact fun widths => membersFinite_widthMembers widths.entries

/-- Options with one text are the same. -/
theorem text_inj {o p : Options} (h : o.toJson.text = p.toJson.text) : o = p :=
  toJson_inj (Json.text_inj o.finite_toJson p.finite_toJson h)

/-! ## The name of a dialect where it is read -/

section
variable {α : Type} {parse : String → Except GenerationError α} {name : String}

theorem asDialect_of_ok {d : α} (parsed : parse name = .ok d) :
    asDialect parse (.string name) = .ok (some d) := by
  unfold asDialect Json.asOptional Json.asString
  dsimp only [bind, Except.bind]
  rw [parsed]
  rfl

theorem asDialect_of_error {e : GenerationError} (refused : parse name = .error e) :
    asDialect parse (.string name) = .error (.refused e.message) := by
  unfold asDialect Json.asOptional Json.asString
  dsimp only [bind, Except.bind]
  rw [refused]
  rfl

end

end Options

namespace CustomCode

theorem toJson_inj {c d : CustomCode} (h : c.toJson = d.toJson) : c = d := by
  obtain ⟨markup, styles, advancedStyles, imports, utilities⟩ := c
  obtain ⟨markup', styles', advancedStyles', imports', utilities'⟩ := d
  simp only [toJson, Json.object.injEq, List.cons.injEq, Prod.mk.injEq, true_and, and_true] at h
  obtain ⟨h₁, h₂, h₃, h₄, h₅⟩ := h
  have text {a b : Option String}
      (h : Options.orNull Json.string a = Options.orNull Json.string b) : a = b :=
    Options.orNull_inj Json.string.inj (fun _ null => by cases null) h
  rw [text h₁, text h₂, text h₃, text h₄, text h₅]

theorem finite_toJson (c : CustomCode) : c.toJson.Finite := by
  have text (v : Option String) : (Options.orNull Json.string v).Finite := by
    apply Options.finite_orNull
    exact fun _ => trivial
  exact ⟨text _, text _, text _, text _, text _, trivial⟩

/-- Custom code with one text is the same. -/
theorem text_inj {c d : CustomCode} (h : c.toJson.text = d.toJson.text) : c = d :=
  toJson_inj (Json.text_inj c.finite_toJson d.finite_toJson h)

end CustomCode
end Handoff
