import Handoff.Proofs.Integration.Splice
import Handoff.Proofs.Markup.Nesting
import Handoff.Proofs.Session.Origin
/-!
# Warnings of a component

Custom code finds its place in every file that a session writes, so the only warning that a component
can get is the one about styles that have no markup. A component out of the cache was built for a
request with the same key (`run_traced`), and has the warnings of that request's custom code; that it
is the same custom code is what the digest in the key has to tell.

Result: `Session.generateNode_warnings`.
-/
namespace Handoff

namespace CustomCode

def holds (field : Option String) : Bool :=
  field.any fun s => !Text.isBlankText s

/-- There are styles, and no markup that they could be for. -/
def Orphaned (c : CustomCode) : Prop :=
  (holds c.styles ∨ holds c.advancedStyles) ∧ ¬ holds c.markup

instance (c : CustomCode) : Decidable c.Orphaned :=
  inferInstanceAs (Decidable (_ ∧ _))

theorem isSome_fragment? (field : Option String) : (fragment? field).isSome = holds field := by
  cases field with
  | none => rfl
  | some s =>
    unfold fragment? holds
    cases h : Text.isBlankText s <;> simp [h]

theorem hasOrphanStyles_iff (c : CustomCode) :
    Integration.hasOrphanStyles c = true ↔ c.Orphaned := by
  unfold Integration.hasOrphanStyles Orphaned
  rw [Bool.and_eq_true, Bool.or_eq_true, ← Option.not_isSome, isSome_fragment?, isSome_fragment?,
    isSome_fragment?, Bool.not_eq_true', Bool.not_eq_true]

/-- The warnings that a component with that custom code is to have. -/
def warnings (c : CustomCode) : List String :=
  if c.Orphaned then ["custom styles without corresponding markup"] else []

end CustomCode

/-! ## One component -/

theorem Naming.componentName_ne_nil (name : String) : (componentName name).toList ≠ [] := by
  obtain ⟨first, rest, eq, -⟩ := componentName_letter name
  rw [eq]
  exact List.cons_ne_nil first rest

/-- What could be put in is only warned about as far as there are orphaned styles. -/
theorem Integration.warnings_integrate {dialect : MarkupDialect} {custom : CustomCode}
    {markup spliced : String} (stylesheet : String)
    (h : Splice.intoMarkup dialect custom markup = .ok spliced) :
    (integrate dialect custom markup stylesheet).warnings.map IntegrationWarning.message =
      custom.warnings := by
  unfold integrate CustomCode.warnings
  rw [h]
  dsimp only
  by_cases orphaned : custom.Orphaned
  · rw [if_pos orphaned, if_pos ((CustomCode.hasOrphanStyles_iff custom).mpr orphaned)]
    rfl
  · rw [if_neg orphaned, if_neg (mt (CustomCode.hasOrphanStyles_iff custom).mp orphaned)]
    rfl

theorem Settings.warnings_build (settings : Settings) (node : Node) (dialect : Dialect)
    (options : Options) (custom : CustomCode) :
    (settings.build node dialect options custom).metadata.warnings = custom.warnings := by
  obtain ⟨p, file, name, -⟩ := settings.emitter.exists_parts (settings.styled node options)
    (Naming.componentName node.value.name) dialect (emissionOptions options)
  have named : p.Named := by
    constructor
    · rw [name]
      exact Naming.componentName_ne_nil _
    · rw [name]
      exact Naming.componentName_chars _
  obtain ⟨spliced, found⟩ := Splice.intoMarkup_ok named dialect.markup custom
  unfold build
  dsimp only
  rw [file]
  exact Integration.warnings_integrate _ found

theorem Settings.warnings_component {settings : Settings} {r : Request} {c : GeneratedComponent}
    (h : settings.component r = .ok c) : c.metadata.warnings = r.custom.warnings := by
  obtain ⟨dialect, valid⟩ := dialect_of_component h
  unfold component at h
  rw [valid] at h
  cases h
  exact settings.warnings_build r.node dialect r.options r.custom

/-! ## Answers of a session -/

/-- Custom code of a request with the same digest is the same custom code. -/
def CustomApart (settings : Settings) (requests : List Request) (custom : CustomCode) : Prop :=
  ∀ r ∈ requests, settings.digest r.custom.toJson.text = settings.digest custom.toJson.text →
    r.custom.toJson.text = custom.toJson.text

/-- Whatever a session has been through, a request with valid dialects is answered by a component
whose only warning, if any, is that its styles have no markup. For a component that was in the cache
this takes the digest to tell the custom code from that of earlier requests. -/
theorem Session.generateNode_warnings (settings : Settings) (operations : List Operation) (node : Node)
    {options : Options} {dialect : Dialect} (valid : options.dialect = .ok dialect)
    (custom : CustomCode) :
    ∃ answer,
      ((Session.run settings {} operations).2.generateNode settings node options custom).1 =
          .ok answer ∧
        (answer.isHit = false ∨
            CustomApart settings (operations.flatMap Operation.requests) custom →
          answer.issued.component.metadata.warnings = custom.warnings) := by
  have traced := run_traced settings operations
  generalize (Session.run settings {} operations).2 = session at traced ⊢
  cases session.generateNode_step settings ⟨node, options, custom⟩ with
  | refused invalid step => cases valid.symm.trans invalid
  | miss valid absent step =>
    rw [step]
    exact ⟨_, rfl, fun _ => settings.warnings_build node _ options custom⟩
  | hit valid found step =>
    rw [step]
    refine ⟨_, rfl, fun apart => ?_⟩
    obtain ⟨r, mem, same, built⟩ := traced _ _ found
    obtain ⟨-, -, -, digest⟩ := CacheKey.text_parts same
    have text := apart.resolve_left (by simp) r mem digest
    rw [Settings.warnings_component built, CustomCode.text_inj text]

/-- A button that is to have styles and a script and no markup of its own. -/
def scriptedButton : Request where
  node := Node.text "1:2" "Submit button" "Go"
  options := { markup := some .templated, stylesheet := some .scopedModule }
  custom := { markup := some " \n", styles := some "a: b", utilities := some "</script>" }

/-- The second of two such requests is answered out of the cache, with the warning. -/
theorem Session.generateNode_warnings_scriptedButton :
    let r := scriptedButton
    let earlier : List Operation := [.generateNode r.node r.options r.custom]
    r.options.dialect = .ok ⟨.templated, .scopedModule, by simp⟩ ∧
      CustomApart {} (earlier.flatMap Operation.requests) r.custom ∧
      ∃ answer,
        ((Session.run {} {} earlier).2.generateNode {} r.node r.options r.custom).1 = .ok answer ∧
          answer.issued.component.metadata.warnings =
            ["custom styles without corresponding markup"] := by
  intro r earlier
  have valid : r.options.dialect = .ok ⟨.templated, .scopedModule, by simp⟩ := rfl
  have apart : CustomApart {} (earlier.flatMap Operation.requests) r.custom := by
    intro s hs _
    obtain rfl : s = r := List.mem_singleton.mp hs
    rfl
  obtain ⟨answer, answered, warned⟩ :=
    Session.generateNode_warnings {} earlier r.node valid r.custom
  exact ⟨valid, apart, answer, answered, (warned (.inr apart)).trans (by decide +kernel)⟩

end Handoff
