import Handoff.Proofs.Session.Run
/-!
# What one call does

A request is refused and changes nothing, or its component is in the cache and counts as a hit, or it is
built, stored and counts as a miss. A run over targets is refused for its first target as a call for it
is, or else answers it and goes on from the session that it leaves. What is proved about calls and runs
goes by these cases.

Results:
* `Session.generateNode_step`: the cases of a request.
* `Session.generate_eq`, `Session.generate_of_missing`: a call for a target.
* `Session.generateMany_step`: the cases of a run over targets, at its first one.
-/
namespace Handoff

variable {settings : Settings} {session : Session}

/-! ## One request -/

theorem Settings.component_of_valid {r : Request} {dialect : Dialect}
    (valid : r.options.dialect = .ok dialect) :
    settings.component r = .ok (settings.build r.node dialect r.options r.custom) := by
  unfold component
  rw [valid]
  rfl

namespace Session

theorem generateNode_of_error {options : Options} {e : GenerationError}
    (refused : options.dialect = .error e) (session : Session) (node : Node) (custom : CustomCode) :
    session.generateNode settings node options custom = (.error e, session) := by
  unfold generateNode
  rw [refused]

/-- What a request does. -/
inductive Asked (settings : Settings) (session : Session) (r : Request) : Prop where
  | refused {e : GenerationError} (invalid : r.options.dialect = .error e)
      (step : session.generateNode settings r.node r.options r.custom = (.error e, session))
  | hit {dialect : Dialect} {issued : Issued} (valid : r.options.dialect = .ok dialect)
      (found : session.cache.entries.get? (r.key settings) = some issued)
      (step : session.generateNode settings r.node r.options r.custom =
        (.ok ⟨issued, true⟩,
          { session with cache := { session.cache with hits := session.cache.hits + 1 } }))
  | miss {dialect : Dialect} (valid : r.options.dialect = .ok dialect)
      (absent : session.cache.entries.get? (r.key settings) = none)
      (step : session.generateNode settings r.node r.options r.custom =
        let issued := ⟨session.built, settings.build r.node dialect r.options r.custom⟩
        (.ok ⟨issued, false⟩,
          ⟨{ session.cache with
              entries := session.cache.entries.insert (r.key settings) issued
              misses := session.cache.misses + 1 }, session.built + 1⟩))

theorem generateNode_step (settings : Settings) (session : Session) (r : Request) :
    session.Asked settings r := by
  have key : (settings.key r.node r.options r.custom).text = r.key settings := rfl
  cases valid : r.options.dialect with
  | error e => exact .refused valid (generateNode_of_error valid session r.node r.custom)
  | ok dialect =>
    cases found : session.cache.entries.get? (r.key settings) with
    | some issued =>
      refine .hit valid found ?_
      unfold generateNode Cache.lookUp
      rw [valid]
      dsimp only
      rw [key, found]
    | none =>
      refine .miss valid found ?_
      unfold generateNode Cache.lookUp
      rw [valid]
      dsimp only
      rw [key, found]
      rfl

/-- A request is refused for its dialects, and changes nothing. -/
theorem refused_of_error {r : Request} {e : GenerationError} {after : Session}
    (refused : session.generateNode settings r.node r.options r.custom = (.error e, after)) :
    r.options.dialect = .error e ∧ after = session := by
  cases session.generateNode_step settings r with
  | refused invalid step =>
    cases step.symm.trans refused
    exact ⟨invalid, rfl⟩
  | hit valid found step => cases congrArg Prod.fst (step.symm.trans refused)
  | miss valid absent step => cases congrArg Prod.fst (step.symm.trans refused)

theorem valid_of_answered {r : Request} {answer : Answer} {after : Session}
    (answered : session.generateNode settings r.node r.options r.custom = (.ok answer, after)) :
    ∃ dialect, r.options.dialect = .ok dialect := by
  cases session.generateNode_step settings r with
  | refused invalid step => cases congrArg Prod.fst (step.symm.trans answered)
  | hit valid found step => exact ⟨_, valid⟩
  | miss valid absent step => exact ⟨_, valid⟩

/-! ## One target -/

variable {document : Document} {name : String} {options : Options} {custom : CustomCode}

theorem generate_eq {node : Node} (resolved : target document name = .ok node) :
    session.generate settings document name options custom =
      session.generateNode settings node options custom := by
  unfold generate
  rw [resolved]

theorem generate_of_missing {e : GenerationError} (missing : target document name = .error e) :
    session.generate settings document name options custom = (.error e, session) := by
  unfold generate
  rw [missing]

end Session

/-! ## Several targets -/

theorem Operation.targetRequests_cons {document : Document} {name : String} {node : Node}
    (resolved : Session.target document name = .ok node) {options : Options} {dialect : Dialect}
    (valid : options.dialect = .ok dialect) (custom : CustomCode) (rest : List String) :
    targetRequests document options custom (name :: rest) =
      ⟨node, options, custom⟩ :: targetRequests document options custom rest := by
  rw [targetRequests, resolved, valid]

theorem Operation.targetRequests_head_subset {document : Document} {options : Options}
    {custom : CustomCode} {name : String} {rest : List String} :
    targetRequests document options custom [name] ⊆
      targetRequests document options custom (name :: rest) := by
  intro r hr
  cases resolved : Session.target document name with
  | error e =>
    rw [targetRequests, resolved] at hr
    cases hr
  | ok node =>
    cases valid : options.dialect with
    | error e =>
      rw [targetRequests, resolved, valid] at hr
      cases hr
    | ok dialect =>
      rw [targetRequests_cons resolved valid] at hr ⊢
      exact List.mem_cons.mpr (.inl (List.mem_singleton.mp hr))

/-- A report with one more answer in front. -/
def GenerationReport.extended (node : Node) (answer : Session.Answer) (report : GenerationReport) :
    GenerationReport where
  components := answer.issued :: report.components
  totalNodesAnalyzed := node.walk.length + report.totalNodesAnalyzed
  cacheHits := (if answer.isHit then 1 else 0) + report.cacheHits

namespace Session

/-- What a run over targets does for the first of them, and what it asks for. -/
inductive First (settings : Settings) (session : Session) (document : Document) (options : Options)
    (custom : CustomCode) (name : String) (rest : List String) : Prop where
  | refused {e : GenerationError}
      (call : session.generate settings document name options custom = (.error e, session))
      (run : session.generateMany settings document (name :: rest) options custom =
        (.error e, session))
      (asks : Operation.targetRequests document options custom (name :: rest) = [])
  | answered {node : Node} {dialect : Dialect} {answer : Answer} {after : Session}
      (resolved : target document name = .ok node) (valid : options.dialect = .ok dialect)
      (call : session.generate settings document name options custom = (.ok answer, after))
      (run : session.generateMany settings document (name :: rest) options custom =
        let later := after.generateMany settings document rest options custom
        (later.1.map (.extended node answer), later.2))
      (asks : Operation.targetRequests document options custom (name :: rest) =
        ⟨node, options, custom⟩ :: Operation.targetRequests document options custom rest)

theorem generateMany_step (settings : Settings) (session : Session) (document : Document)
    (options : Options) (custom : CustomCode) (name : String) (rest : List String) :
    session.First settings document options custom name rest := by
  cases resolved : target document name with
  | error e =>
    refine .refused (generate_of_missing resolved) ?_ ?_
    · unfold generateMany
      rw [resolved]
    · rw [Operation.targetRequests, resolved]
  | ok node =>
    cases step : session.generateNode settings node options custom with
    | mk result after =>
      have call : session.generate settings document name options custom = (result, after) :=
        (generate_eq resolved).trans step
      cases result with
      | error e =>
        obtain ⟨invalid, rfl⟩ := refused_of_error (r := ⟨node, options, custom⟩) step
        refine .refused call ?_ ?_
        · unfold generateMany
          rw [resolved]
          dsimp only
          rw [step]
        · dsimp only at invalid
          rw [Operation.targetRequests, resolved, invalid]
      | ok answer =>
        obtain ⟨dialect, valid⟩ := valid_of_answered (r := ⟨node, options, custom⟩) step
        refine .answered resolved valid call ?_ (Operation.targetRequests_cons resolved valid ..)
        rw [generateMany, resolved]
        dsimp only
        rw [step]
        dsimp only
        generalize after.generateMany settings document rest options custom = later
        obtain ⟨_ | report, last⟩ := later <;> rfl

end Session
end Handoff
