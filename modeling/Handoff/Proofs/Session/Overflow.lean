import Handoff.Proofs.Audit.Monotone
import Handoff.Proofs.Component.Widths
import Handoff.Proofs.Session.Step
/-!
# Builds that check their sums

Widths and penalties are words of 32 bits, and past the last word a sum starts again at 0. A build that
checks its sums stops there instead, and nothing comes back. Sums of words are made as a component is
built: the widths that come next after the breakpoints, where utility classes are written for screens,
and the penalties of an audit. So a call stops if its component is not in the cache and one of these sums
overflows; the cache has counted a miss by then. A call that does not stop makes exact sums and ends as it
does without the checks.

Results:
* `Settings.overflows_iff`, `Settings.exactSums`: which requests overflow, and that the sums of the
  others are exact.
* `Session.checked_of_stops`, `Session.checked_of_not_stops`: how a call ends.
* `Session.checkedMany_of_stops`, `Session.checkedMany_of_refused`, `Session.checkedMany_of_answered`: how a
  run over targets goes on from its first one.
-/
namespace Handoff

/-! ## Sums -/

namespace Breakpoints

/-- Whether the last word is one of the widths, so that no width comes next. -/
def overflows (widths : Breakpoints) : Bool :=
  2 ^ 32 ≤ widths.mobileMax + 1 || 2 ^ 32 ≤ widths.tabletMax + 1

variable {widths : Breakpoints}

theorem overflows_iff :
    widths.overflows = true ↔ 2 ^ 32 ≤ widths.mobileMax + 1 ∨ 2 ^ 32 ≤ widths.tabletMax + 1 := by
  simp only [overflows, Bool.or_eq_true, decide_eq_true_eq]

theorem past_exact (fits : widths.overflows = false) :
    widths.pastMobile.toNat = widths.mobileMax + 1 ∧
      widths.pastTablet.toNat = widths.tabletMax + 1 := by
  have next {width : UInt32} (below : width.toNat + 1 < 2 ^ 32) :
      (width + 1).toNat = width.toNat + 1 := by
    rw [UInt32.toNat_add, UInt32.toNat_one, Nat.mod_eq_of_lt below]
  rw [← Bool.not_eq_true, overflows_iff, not_or, Nat.not_le, Nat.not_le] at fits
  exact ⟨next fits.1, next fits.2⟩

end Breakpoints

namespace Settings

/-- The issues that the audit of a node finds. -/
def issues (s : Settings) (node : Node) : List Issue :=
  s.auditor.issues node (s.classifier.classify node).value.category

/-- Whether a sum overflows while the component of a node is built. -/
def overflows (s : Settings) (node : Node) (dialect : Dialect) (options : Options) : Bool :=
  (dialect.style = .utility &&
      (Emitter.widthsFor (s.styled node options) (emissionOptions options)).any
        Breakpoints.overflows) ||
    (options.includeAccessibility &&
      2 ^ 32 ≤ s.auditor.penaltySum options.auditProfile (s.issues node))

variable {s : Settings} {node : Node} {dialect : Dialect} {options : Options}

theorem verdict_styled :
    (s.styled node options).value.verdict = (s.classifier.classify node).value := by
  cases node
  rfl

theorem adapts_styled : (s.styled node options).adapts =
    (options.includeResponsive && s.viewport.adapts node.value) := by
  unfold styled
  cases options.includeResponsive with
  | true => exact Styled.adapts_ofNode ..
  | false =>
    rw [if_neg Bool.false_ne_true, Styled.ofNode_none s.viewport, Styled.adapts, Tree.value_map]
    rfl

theorem widthsFor_styled :
    Emitter.widthsFor (s.styled node options) (emissionOptions options) =
      if options.includeResponsive && s.viewport.adapts node.value then
        some (.ofWidths options.breakpoints)
      else none := by
  rw [Emitter.widthsFor, adapts_styled, emissionOptions]
  cases options.includeResponsive <;> rfl

/-- A request overflows where the last word is a breakpoint of a design that adapts and has utility
classes, and where its penalties come to more than a word. -/
theorem overflows_iff : s.overflows node dialect options = true ↔
    (dialect.style = .utility ∧
      (options.includeResponsive = true ∧ s.viewport.adapts node.value = true) ∧
      (2 ^ 32 ≤ (Breakpoints.ofWidths options.breakpoints).mobileMax + 1 ∨
        2 ^ 32 ≤ (Breakpoints.ofWidths options.breakpoints).tabletMax + 1)) ∨
    (options.includeAccessibility = true ∧
      2 ^ 32 ≤ s.auditor.penaltySum options.auditProfile (s.issues node)) := by
  rw [overflows, widthsFor_styled]
  simp only [Bool.or_eq_true, Bool.and_eq_true, decide_eq_true_eq, ← Breakpoints.overflows_iff]
  split
  · next h => simp only [h, true_and, Option.any_some]
  · next h => simp only [h, false_and, and_false, Option.any_none, Bool.false_eq_true]

/-- The widths and the score behind the component of a node are the exact ones. -/
structure ExactSums (s : Settings) (node : Node) (dialect : Dialect) (options : Options)
    (custom : CustomCode) : Prop where
  widths : dialect.style = .utility →
    ∀ widths, Emitter.widthsFor (s.styled node options) (emissionOptions options) = some widths →
      widths.pastMobile.toNat = widths.mobileMax + 1 ∧ widths.pastTablet.toNat = widths.tabletMax + 1
  score : ∀ report, (s.build node dialect options custom).accessibility = some report →
    report.score = 100 - s.auditor.penaltySum options.auditProfile report.issues

theorem exactSums (fits : s.overflows node dialect options = false) (custom : CustomCode) :
    s.ExactSums node dialect options custom := by
  obtain ⟨screens, audit⟩ := Bool.or_eq_false_iff.mp fits
  constructor
  · intro utility widths counted
    rw [decide_eq_true utility, Bool.true_and, counted, Option.any_some] at screens
    exact Breakpoints.past_exact screens
  · intro report audited
    dsimp only [build] at audited
    rw [verdict_styled] at audited
    cases included : options.includeAccessibility with
    | false =>
      rw [included] at audited
      cases audited
    | true =>
      rw [included] at audited audit
      cases audited
      rw [Bool.true_and, decide_eq_false_iff_not, Nat.not_le] at audit
      exact Auditor.score_eq_sub_penaltySum audit

end Settings

/-! ## Calls -/

namespace Session

/-- A request of a build that checks its sums: nothing comes back where it stops. -/
def checkedNode (settings : Settings) (session : Session) (node : Node) (options : Options)
    (custom : CustomCode) : Option (Except GenerationError Answer) × Session :=
  match options.dialect, session.cache.lookUp (settings.key node options custom).text with
  | .ok dialect, (none, cache) =>
    if settings.overflows node dialect options then (none, { session with cache })
    else (session.generateNode settings node options custom).map some id
  | _, _ => (session.generateNode settings node options custom).map some id

/-- A call for a target, of such a build. -/
def checked (settings : Settings) (session : Session) (document : Document) (name : String)
    (options : Options) (custom : CustomCode) :
    Option (Except GenerationError Answer) × Session :=
  match target document name with
  | .error e => (some (.error e), session)
  | .ok node => session.checkedNode settings node options custom

/-- A run over targets, of such a build. -/
def checkedMany (settings : Settings) (session : Session) (document : Document)
    (targets : List String) (options : Options) (custom : CustomCode) :
    Option (Except GenerationError GenerationReport) × Session :=
  match targets with
  | [] => (some (.ok ⟨[], 0, 0⟩), session)
  | name :: rest =>
    match target document name with
    | .error e => (some (.error e), session)
    | .ok node =>
      match session.checkedNode settings node options custom with
      | (none, session) => (none, session)
      | (some (.error e), session) => (some (.error e), session)
      | (some (.ok answer), session) =>
        (session.checkedMany settings document rest options custom).map
          (Option.map (Except.map (.extended node answer))) id

/-- The component of a request is not in the cache, and a sum overflows while it is built. -/
def Stops (settings : Settings) (session : Session) (r : Request) : Prop :=
  session.cache.entries.get? (r.key settings) = none ∧
    ∃ dialect, r.options.dialect = .ok dialect ∧
      settings.overflows r.node dialect r.options = true

/-- The session with one more miss counted. -/
def missed (session : Session) : Session :=
  { session with cache := { session.cache with misses := session.cache.misses + 1 } }

variable {settings : Settings} {session : Session} {document : Document} {name : String}
  {node : Node} {options : Options} {custom : CustomCode}

theorem checkedNode_of_stops (stops : session.Stops settings ⟨node, options, custom⟩) :
    session.checkedNode settings node options custom = (none, session.missed) := by
  obtain ⟨absent, dialect, valid, overflows⟩ := stops
  have looked : session.cache.lookUp (settings.key node options custom).text =
      (none, session.missed.cache) := by
    have absent : session.cache.entries.get? (settings.key node options custom).text = none := absent
    rw [Cache.lookUp, absent]
    rfl
  dsimp only at valid
  rw [checkedNode, valid, looked]
  exact if_pos overflows

theorem checkedNode_of_not_stops (goes : ¬session.Stops settings ⟨node, options, custom⟩) :
    session.checkedNode settings node options custom =
      (session.generateNode settings node options custom).map some id := by
  unfold checkedNode
  split
  · next dialect cache valid looked =>
    refine if_neg fun overflows => goes ⟨?_, dialect, valid, overflows⟩
    unfold Cache.lookUp at looked
    split at looked
    · cases looked
    · next absent => exact absent
  · rfl

theorem checked_of_stops (resolved : target document name = .ok node)
    (stops : session.Stops settings ⟨node, options, custom⟩) :
    session.checked settings document name options custom = (none, session.missed) := by
  rw [checked, resolved]
  exact checkedNode_of_stops stops

/-- A call that does not stop ends as it does without the checks. -/
theorem checked_of_not_stops
    (goes : ∀ node, target document name = .ok node → ¬session.Stops settings ⟨node, options, custom⟩) :
    session.checked settings document name options custom =
      (session.generate settings document name options custom).map some id := by
  unfold checked generate
  cases resolved : target document name with
  | error e => rfl
  | ok node => exact checkedNode_of_not_stops (goes node resolved)

theorem checkedMany_of_stops (resolved : target document name = .ok node)
    (stops : session.Stops settings ⟨node, options, custom⟩) (rest : List String) :
    session.checkedMany settings document (name :: rest) options custom = (none, session.missed) := by
  rw [checkedMany, resolved]
  dsimp only
  rw [checkedNode_of_stops stops]

theorem checkedMany_of_refused {e : GenerationError}
    (call : session.generate settings document name options custom = (.error e, session))
    (rest : List String) :
    session.checkedMany settings document (name :: rest) options custom = (some (.error e), session) := by
  cases resolved : target document name with
  | error e' =>
    cases (generate_of_missing resolved).symm.trans call
    rw [checkedMany, resolved]
  | ok node =>
    rw [generate_eq resolved] at call
    have invalid : options.dialect = .error e :=
      (refused_of_error (r := ⟨node, options, custom⟩) call).1
    have goes : ¬session.Stops settings ⟨node, options, custom⟩ :=
      fun ⟨_, _, valid, _⟩ => (by cases invalid.symm.trans valid)
    rw [checkedMany, resolved]
    dsimp only
    rw [checkedNode_of_not_stops goes, call]
    rfl

theorem checkedMany_of_answered {answer : Answer} {after : Session}
    (resolved : target document name = .ok node)
    (goes : ¬session.Stops settings ⟨node, options, custom⟩)
    (call : session.generate settings document name options custom = (.ok answer, after))
    (rest : List String) :
    session.checkedMany settings document (name :: rest) options custom =
      (after.checkedMany settings document rest options custom).map
        (Option.map (Except.map (.extended node answer))) id := by
  rw [checkedMany, resolved]
  dsimp only
  rw [checkedNode_of_not_stops goes, ← generate_eq resolved, call]
  rfl

end Session
end Handoff
