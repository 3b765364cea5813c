import Handoff.Proofs.Session.Origin
import Handoff.Proofs.Session.Overflow
import Mathlib.Data.List.Permutation
/-!
# What a session refuses

A call for a target is refused for one of four causes, and of several the first is told: the target
stands for no node, no markup dialect is given, no stylesheet dialect is given, the two dialects do not
go together. Every other call is answered. All four causes are found before the cache is asked, so that a
refusal leaves the session as it was. A run over several targets ends at the first that is refused and
leaves what the targets before it leave when they are asked for one by one.

Results:
* `Options.dialect_eq_error_iff`, `Options.dialect_eq_ok_iff`: what options are refused for, and which
  ones are not.
* `generate_eq_error_iff`, `generateMany_of_refused`: what a call and a run over targets are refused for,
  and the session that they leave.
* `checkedMany_cases`: where a run over targets stops if sums are checked.
* `Session.generate_refusals`: the four causes, everything else answered, nothing changed.
-/
namespace Handoff

/-! ## Causes -/

/-- The causes for which options are refused. Each leaves out those before it. -/
inductive Options.Refused (options : Options) : GenerationError → Prop where
  | markup (missing : options.markup = none) : Refused options (.missingDialect .markup)
  | stylesheet {markup : MarkupDialect} (given : options.markup = some markup)
      (missing : options.stylesheet = none) : Refused options (.missingDialect .stylesheet)
  | pair {markup : MarkupDialect} (given : options.markup = some markup)
      (wrapper : options.stylesheet = some .cssInJs) (code : markup ≠ .componentized) :
      Refused options (.unsupportedPair markup .cssInJs)

/-- The causes for which a call for a target is refused: that it stands for no node, or else those of its
options. -/
inductive Refused (document : Document) (name : String) (options : Options) :
    GenerationError → Prop where
  | target {id : String} (missing : document.resolve name = .error id) :
      Refused document name options (.nodeNotFound id)
  | options {node : Node} {e : GenerationError} (found : document.resolve name = .ok node)
      (refused : options.Refused e) : Refused document name options e

namespace Options

/-- The dialects of options are looked at in this order: markup, stylesheet, the pair. -/
theorem dialect_eq_error_iff {options : Options} {e : GenerationError} :
    options.dialect = .error e ↔ options.Refused e := by
  unfold dialect
  cases markup : options.markup with
  | none =>
    constructor
    · rintro ⟨⟩
      exact .markup markup
    · rintro (_ | ⟨given, -⟩ | ⟨given, -, -⟩)
      · rfl
      · cases markup.symm.trans given
      · cases markup.symm.trans given
  | some m =>
    cases style : options.stylesheet with
    | none =>
      constructor
      · rintro ⟨⟩
        exact .stylesheet markup style
      · rintro (missing | ⟨-, -⟩ | ⟨-, wrapper, -⟩)
        · cases markup.symm.trans missing
        · rfl
        · cases style.symm.trans wrapper
    | some s =>
      show Dialect.pair m s = .error e ↔ _
      unfold Dialect.pair
      constructor
      · intro h
        split at h
        · cases h
        · next apart =>
          cases h
          obtain ⟨rfl, code⟩ := Classical.not_imp.mp apart
          exact .pair markup style code
      · rintro (missing | ⟨-, missing⟩ | ⟨given, wrapper, code⟩)
        · cases markup.symm.trans missing
        · cases style.symm.trans missing
        · cases markup.symm.trans given
          cases style.symm.trans wrapper
          exact dif_neg fun goes => code (goes rfl)

/-- Options are not refused if both dialects are given and go together. -/
theorem dialect_eq_ok_iff {options : Options} {dialect : Dialect} :
    options.dialect = .ok dialect ↔
      options.markup = some dialect.markup ∧ options.stylesheet = some dialect.style := by
  obtain ⟨m, s, wrapped⟩ := dialect
  unfold Options.dialect
  cases options.markup with
  | none => exact ⟨fun h => (by cases h), fun h => (by cases h.1)⟩
  | some markup =>
    cases options.stylesheet with
    | none => exact ⟨fun h => (by cases h), fun h => (by cases h.2)⟩
    | some style =>
      show Dialect.pair markup style = _ ↔ _
      unfold Dialect.pair
      constructor
      · intro h
        split at h
        · cases h
          exact ⟨rfl, rfl⟩
        · cases h
      · rintro ⟨⟨⟩, ⟨⟩⟩
        exact dif_pos wrapped

end Options

/-- There is no cause if the target stands for a node and the options give two dialects that go
together. -/
theorem forall_not_refused_iff {document : Document} {name : String} {options : Options} :
    (∀ e, ¬Refused document name options e) ↔
      ∃ (node : Node) (dialect : Dialect), document.resolve name = .ok node ∧
        options.markup = some dialect.markup ∧ options.stylesheet = some dialect.style := by
  simp only [← Options.dialect_eq_ok_iff]
  constructor
  · intro none
    cases found : document.resolve name with
    | error id => exact absurd (.target found) (none _)
    | ok node =>
      cases valid : options.dialect with
      | error e => exact absurd (.options found (Options.dialect_eq_error_iff.mp valid)) (none e)
      | ok dialect => exact ⟨node, dialect, rfl, rfl⟩
  · rintro ⟨node, dialect, found, valid⟩ e (⟨missing⟩ | ⟨-, refused⟩)
    · cases found.symm.trans missing
    · cases valid.symm.trans (Options.dialect_eq_error_iff.mpr refused)

/-! ## One call -/

variable {settings : Settings}

theorem target_eq_ok_iff {document : Document} {name : String} {node : Node} :
    Session.target document name = .ok node ↔ document.resolve name = .ok node := by
  unfold Session.target
  cases document.resolve name with
  | error id => exact ⟨fun h => (by cases h), fun h => (by cases h)⟩
  | ok n => exact ⟨fun h => (by cases h; rfl), fun h => (by cases h; rfl)⟩

theorem target_eq_error_iff {document : Document} {name : String} {e : GenerationError} :
    Session.target document name = .error e ↔
      ∃ id, document.resolve name = .error id ∧ e = .nodeNotFound id := by
  unfold Session.target
  cases document.resolve name with
  | error id =>
    constructor
    · rintro ⟨⟩
      exact ⟨id, rfl, rfl⟩
    · rintro ⟨_, ⟨⟩, rfl⟩
      rfl
  | ok n => exact ⟨fun h => (by cases h), fun ⟨_, h, _⟩ => (by cases h)⟩

theorem generateNode_eq_error_iff {session after : Session} {node : Node} {options : Options}
    {custom : CustomCode} {e : GenerationError} :
    session.generateNode settings node options custom = (.error e, after) ↔
      options.Refused e ∧ after = session := by
  rw [← Options.dialect_eq_error_iff]
  constructor
  · exact fun refused => Session.refused_of_error (r := ⟨node, options, custom⟩) refused
  · rintro ⟨invalid, rfl⟩
    exact Session.generateNode_of_error invalid after node custom

/-- A call for a target is refused for its causes, and leaves the session as it was. -/
theorem generate_eq_error_iff {session after : Session} {document : Document} {name : String}
    {options : Options} {custom : CustomCode} {e : GenerationError} :
    session.generate settings document name options custom = (.error e, after) ↔
      Refused document name options e ∧ after = session := by
  cases resolved : Session.target document name with
  | error e' =>
    rw [Session.generate_of_missing resolved]
    obtain ⟨id, missing, rfl⟩ := target_eq_error_iff.mp resolved
    constructor
    · rintro ⟨⟩
      exact ⟨.target missing, rfl⟩
    · rintro ⟨⟨missing'⟩ | ⟨found, -⟩, rfl⟩
      · cases missing.symm.trans missing'
        rfl
      · cases missing.symm.trans found
  | ok node =>
    have found := target_eq_ok_iff.mp resolved
    rw [Session.generate_eq resolved]
    refine generateNode_eq_error_iff.trans (and_congr_left' ⟨.options found, ?_⟩)
    rintro (⟨missing⟩ | ⟨-, refused⟩)
    · cases found.symm.trans missing
    · exact refused

theorem Refused.generate {document : Document} {name : String} {options : Options}
    {e : GenerationError} (refused : Refused document name options e) (session : Session)
    (custom : CustomCode) :
    session.generate settings document name options custom = (.error e, session) :=
  generate_eq_error_iff.mpr ⟨refused, rfl⟩

/-! ## Several targets -/

/-- The session after targets have been asked for one by one. -/
def Session.afterEach (settings : Settings) (session : Session) (document : Document)
    (options : Options) (custom : CustomCode) (names : List String) : Session :=
  names.foldl (fun s name => (s.generate settings document name options custom).2) session

theorem generateMany_of_error {session : Session} {document : Document} {name : String}
    {options : Options} {custom : CustomCode} {e : GenerationError}
    (refused : Refused document name options e) (rest : List String) :
    session.generateMany settings document (name :: rest) options custom = (.error e, session) := by
  have first : session.generate settings document name options custom = (.error e, session) :=
    refused.generate session custom
  cases session.generateMany_step settings document options custom name rest with
  | refused call run asks =>
    cases first.symm.trans call
    exact run
  | answered resolved valid call run asks => cases congrArg Prod.fst (first.symm.trans call)

/-- A run over targets ends at the first that is refused, for its cause, and leaves what those before it
leave one by one. -/
theorem generateMany_of_refused {document : Document} {options : Options} {before : List String}
    (answered : ∀ n ∈ before, ∀ cause, ¬Refused document n options cause) {name : String}
    {e : GenerationError} (refused : Refused document name options e) (session : Session)
    (custom : CustomCode) (after : List String) :
    session.generateMany settings document (before ++ name :: after) options custom =
      (.error e, session.afterEach settings document options custom before) := by
  induction before generalizing session with
  | nil => exact generateMany_of_error refused after
  | cons first before ih =>
    rw [List.forall_mem_cons] at answered
    rw [List.cons_append]
    cases session.generateMany_step settings document options custom first
      (before ++ name :: after) with
    | refused call run asks => exact absurd (generate_eq_error_iff.mp call).1 (answered.1 _)
    | answered resolved valid call run asks =>
      rw [run, ih answered.2, Session.afterEach, Session.afterEach, List.foldl_cons, call]
      rfl

/-- With checked sums a run over targets ends as it does without, or at the first of them at which a call
stops. It leaves what those before it leave one by one, and the miss. -/
theorem checkedMany_cases (session : Session) (document : Document) (names : List String)
    (options : Options) (custom : CustomCode) :
    session.checkedMany settings document names options custom =
        (session.generateMany settings document names options custom).map some id ∨
      ∃ before name after node, names = before ++ name :: after ∧
        document.resolve name = .ok node ∧
        let left := session.afterEach settings document options custom before
        left.Stops settings ⟨node, options, custom⟩ ∧
          session.checkedMany settings document names options custom = (none, left.missed) := by
  induction names generalizing session with
  | nil => exact .inl rfl
  | cons first rest ih =>
    by_cases stop : ∃ node, Session.target document first = .ok node ∧
      session.Stops settings ⟨node, options, custom⟩
    · obtain ⟨node, resolved, stops⟩ := stop
      exact .inr ⟨[], first, rest, node, rfl, target_eq_ok_iff.mp resolved, stops,
        Session.checkedMany_of_stops resolved stops rest⟩
    cases session.generateMany_step settings document options custom first rest with
    | refused call run asks =>
      left
      rw [run]
      exact Session.checkedMany_of_refused call rest
    | @answered node dialect answer next resolved valid call run asks =>
      have goes : ¬session.Stops settings ⟨node, options, custom⟩ :=
        fun stops => stop ⟨node, resolved, stops⟩
      rw [Session.checkedMany_of_answered resolved goes call rest, run]
      rcases ih next with same | ⟨before, name, after, node', split, found, stops, stopped⟩
      · left
        rw [same]
        rfl
      · have left : session.afterEach settings document options custom (first :: before) =
            next.afterEach settings document options custom before := by
          rw [Session.afterEach, List.foldl_cons, call]
          rfl
        refine .inr ⟨first :: before, name, after, node', congrArg (first :: ·) split, found, ?_⟩
        rw [left]
        exact ⟨stops, by rw [stopped]; rfl⟩

theorem exists_report_iff {session : Session} {document : Document} {options : Options}
    {custom : CustomCode} {names : List String} :
    (∃ report, (session.generateMany settings document names options custom).1 = .ok report) ↔
      ∀ n ∈ names, ∀ e, ¬Refused document n options e := by
  induction names generalizing session with
  | nil => exact ⟨fun _ _ h => (by cases h), fun _ => ⟨_, rfl⟩⟩
  | cons first rest ih =>
    rw [List.forall_mem_cons]
    cases session.generateMany_step settings document options custom first rest with
    | refused call run asks =>
      rw [run]
      refine iff_of_false (fun ⟨_, h⟩ => (by cases h)) fun answered => ?_
      exact answered.1 _ (generate_eq_error_iff.mp call).1
    | @answered node dialect answer after resolved valid call run asks =>
      have answered : ∀ e, ¬Refused document first options e :=
        forall_not_refused_iff.mpr ⟨node, dialect, target_eq_ok_iff.mp resolved,
          Options.dialect_eq_ok_iff.mp valid⟩
      rw [and_iff_right answered, ← @ih after, run]
      dsimp only
      cases (after.generateMany settings document rest options custom).1 with
      | error e => rfl
      | ok report => exact ⟨fun _ => ⟨_, rfl⟩, fun _ => ⟨_, rfl⟩⟩

/-- What a session refuses: a call for a target is refused exactly for the first of its four causes and
answered if there is none, and what is refused leaves the session as it was. A run over targets is
answered exactly if each of them is; otherwise it is refused for the cause of the first that is, and
leaves the session that the targets before it leave one by one.

Sums of words start again at 0 past the last word. With checked sums a call stops where a sum overflows
as the component is built, and a miss is all that it leaves; it ends the same way everywhere else, and so
does a run over targets up to the first call that stops. Where no sum overflows all are exact. -/
theorem Session.generate_refusals (settings : Settings) (session : Session) (document : Document)
    (options : Options) (custom : CustomCode) :
    (∀ name,
      (∀ e, (session.generate settings document name options custom).1 = .error e ↔
        Refused document name options e) ∧
      ((∃ answer, (session.generate settings document name options custom).1 = .ok answer) ↔
        ∃ (node : Node) (dialect : Dialect), document.resolve name = .ok node ∧
          options.markup = some dialect.markup ∧ options.stylesheet = some dialect.style) ∧
      (∀ e, (session.generate settings document name options custom).1 = .error e →
        (session.generate settings document name options custom).2 = session) ∧
      (∀ node, document.resolve name = .ok node →
        session.Stops settings ⟨node, options, custom⟩ →
          session.checked settings document name options custom = (none, session.missed)) ∧
      ((∀ node, document.resolve name = .ok node →
        ¬session.Stops settings ⟨node, options, custom⟩) →
          session.checked settings document name options custom =
            (session.generate settings document name options custom).map some id) ∧
      ∀ node dialect, document.resolve name = .ok node → options.dialect = .ok dialect →
        settings.overflows node dialect options = true ∨
          settings.ExactSums node dialect options custom) ∧
    (∀ names,
      (∃ report, (session.generateMany settings document names options custom).1 = .ok report) ↔
        ∀ n ∈ names, ∀ e, ¬Refused document n options e) ∧
    (∀ before name after e, (∀ n ∈ before, ∀ cause, ¬Refused document n options cause) →
      Refused document name options e →
        session.generateMany settings document (before ++ name :: after) options custom =
          (.error e, session.afterEach settings document options custom before)) ∧
    ∀ names,
      session.checkedMany settings document names options custom =
          (session.generateMany settings document names options custom).map some id ∨
        ∃ before name after node, names = before ++ name :: after ∧
          document.resolve name = .ok node ∧
          let left := session.afterEach settings document options custom before
          left.Stops settings ⟨node, options, custom⟩ ∧
            session.checkedMany settings document names options custom = (none, left.missed) := by
  refine ⟨fun name => ?_, fun names => exists_report_iff, fun before name after e answered refused =>
    generateMany_of_refused answered refused session custom after,
    fun names => checkedMany_cases session document names options custom⟩
  have refused (e : GenerationError) :
      (session.generate settings document name options custom).1 = .error e ↔
        Refused document name options e :=
    ⟨fun h => (generate_eq_error_iff.mp (Prod.ext h rfl)).1, fun h => by rw [h.generate]⟩
  refine ⟨refused, ?_, fun e h => ?_, fun node found stops => ?_, fun goes => ?_,
    fun node dialect _ _ => ?_⟩
  · simp only [← forall_not_refused_iff, ← refused]
    cases (session.generate settings document name options custom).1 <;> simp
  · rw [((refused e).mp h).generate]
  · exact Session.checked_of_stops (target_eq_ok_iff.mpr found) stops
  · exact Session.checked_of_not_stops fun node resolved => goes node (target_eq_ok_iff.mp resolved)
  · cases fits : settings.overflows node dialect options with
    | true => exact .inl rfl
    | false => exact .inr (settings.exactSums fits custom)

/-- A page that is one row, for which the last word is given as the mobile width. -/
def lastWordRow : Request where
  node := .node { id := "1:1", name := "Row", kind := .frame, layout := { mode := .horizontal } } []
  options := {
    markup := some .static
    stylesheet := some .utility
    breakpoints := some (.ofList [("mobile", 4294967295)]) }
  custom := {}

/-- Two dialects that do not go together are refused before anything is counted. A run whose second
target is not there leaves what the first one leaves, a component. The row is answered, but a build that
checks its sums stops there. -/
theorem Session.generate_refusals_buttonPage :
    let page := buttonPage "Go"
    let plain : Options := { markup := some .static, stylesheet := some .plain }
    let wrapper : Options := { plain with stylesheet := some .cssInJs }
    let row : Document := { root := lastWordRow.node }
    (Session.generate {} {} page "Submit" wrapper {}).1 =
        .error (.unsupportedPair .static .cssInJs) ∧
      (Session.generate {} {} page "Submit" wrapper {}).2 = {} ∧
      (Session.generateMany {} {} page ["Submit", "1:9", "1:2"] plain {}).1 =
        .error (.nodeNotFound "1:9") ∧
      (Session.generateMany {} {} page ["Submit", "1:9", "1:2"] plain {}).2.cache.size = 1 ∧
      (∃ answer, (Session.generate {} {} row "1:1" lastWordRow.options {}).1 = .ok answer) ∧
      Session.checked {} {} row "1:1" lastWordRow.options {} =
        (none, { cache := { misses := 1 } }) := by
  intro page plain wrapper row
  have found : page.resolve "Submit" = .ok (Node.text "1:2" "Submit button" "Go") := by cbv
  have missing : page.resolve "1:9" = .error "1:9" := by cbv
  have answered : ∀ n ∈ ["Submit"], ∀ cause, ¬Refused page n plain cause := by
    rw [List.forall_mem_singleton]
    exact forall_not_refused_iff.mpr ⟨_, ⟨.static, .plain, by decide⟩, found, rfl, rfl⟩
  obtain ⟨refused, -, unchanged, -⟩ := (Session.generate_refusals {} {} page wrapper {}).1 "Submit"
  have pair := (refused _).mpr (.options found (.pair rfl rfl (by decide)))
  have many := (Session.generate_refusals {} {} page plain {}).2.2.1 ["Submit"] "1:9" ["1:2"] _
    answered (.target missing)
  have left : (Session.afterEach {} {} page plain {} ["Submit"]).cache.size = 1 := by decide +kernel
  have whole : row.resolve "1:1" = .ok lastWordRow.node := by cbv
  have stops : Session.Stops {} {} lastWordRow :=
    ⟨rfl, ⟨.static, .utility, by decide⟩, rfl,
      Settings.overflows_iff.mpr (.inl ⟨rfl, ⟨rfl, rfl⟩, .inl (by decide)⟩)⟩
  obtain ⟨-, given, -, stopped, -⟩ :=
    (Session.generate_refusals {} {} row lastWordRow.options {}).1 "1:1"
  refine ⟨pair, unchanged _ pair, congrArg Prod.fst many, ?_, ?_, stopped _ whole stops⟩
  · exact (congrArg (fun step => step.2.cache.size) many).trans left
  · exact given.mpr ⟨_, ⟨.static, .utility, by decide⟩, whole, rfl, rfl⟩

end Handoff
