import Handoff.Proofs.Keyed
import Handoff.Proofs.Session.Events
import Mathlib.Data.Set.Card
/-!
# What the counts and the cache of a session say

The counts and the entries of the cache can be told from the events of a run. Each request counts once;
it is a hit if its key was asked for since the last clear, and those keys are the keys that the cache
holds. A clear forgets the keys and leaves the counts.

The invariant is `Accounts`. One event keeps it (`Accounts.asked`, `Accounts.cleared`); by induction the
events of a run do (`Accounts.replay`). What a report says of its run over targets goes along with the
targets (`generateMany_covers`).

Results:
* `Accounts.run`, `Accounts.isHit_iff`, `Accounts.size_eq`: the counts, the hits and the size of the cache.
* `run_covers`: what a report says of its targets.
-/
namespace Handoff

variable {settings : Settings}

/-! ## One event -/

/-- What the counts and the entries of a session say about the events before. -/
structure Accounts (settings : Settings) (events : List Event) (session : Session) : Prop where
  counted : session.cache.hits + session.cache.misses = events.countP Event.isAsked
  stored : ∀ key, key ∈ session.cache.entries.keys ↔ AskedSinceClear settings events key
  bounded : session.cache.size ≤ session.cache.misses

namespace Accounts

variable {events : List Event} {session : Session}

theorem start : Accounts settings [] {} where
  counted := rfl
  stored key := by
    refine ⟨fun h => (by cases h), ?_⟩
    rintro ⟨before, r, after, split, -⟩
    cases before <;> cases split
  bounded := Nat.le_refl 0

theorem asked (accounts : Accounts settings events session) {r : Request} {dialect : Dialect}
    (valid : r.options.dialect = .ok dialect) :
    Accounts settings (events ++ [.asked r]) (session.next settings (.asked r)) := by
  have counted := accounts.counted
  have bounded := accounts.bounded
  have one : [Event.asked r].countP Event.isAsked = 1 := rfl
  rw [Session.next]
  -- A hit finds its key there and leaves the keys; a miss adds its own behind them.
  cases session.generateNode_step settings r with
  | refused invalid step => cases valid.symm.trans invalid
  | hit valid found step =>
    rw [step]
    refine ⟨?_, fun key => ?_, bounded⟩
    · rw [List.countP_append, one]
      dsimp only
      omega
    · rw [askedSinceClear_asked, ← accounts.stored]
      refine ⟨.inr, ?_⟩
      rintro (rfl | old)
      · exact Keyed.mem_keys_iff.mpr ⟨_, found⟩
      · exact old
  | miss valid absent step =>
    have fresh := Keyed.get?_eq_none_iff.mp absent
    rw [step]
    have keys (value : Issued) : (session.cache.entries.insert (r.key settings) value).keys =
        session.cache.entries.keys ++ [r.key settings] := by
      rw [Keyed.keys_insert, if_neg fresh]
    refine ⟨?_, fun key => ?_, ?_⟩
    · rw [List.countP_append, one]
      dsimp only
      omega
    · rw [askedSinceClear_asked, ← accounts.stored, keys, List.mem_append, List.mem_singleton, or_comm,
        eq_comm]
    · have size (m : Keyed Issued) : m.size = m.keys.length := (List.length_map ..).symm
      unfold Cache.size at bounded ⊢
      dsimp only
      rw [size] at bounded ⊢
      rw [keys, List.length_append, List.length_singleton]
      omega

theorem cleared (accounts : Accounts settings events session) :
    Accounts settings (events ++ [.cleared]) (session.next settings .cleared) where
  counted := by
    rw [List.countP_append]
    exact accounts.counted
  stored key := by
    refine ⟨fun h => (by cases h), fun h => absurd h not_askedSinceClear_cleared⟩
  bounded := Nat.zero_le _

/-- Events keep the accounts, one after the other. -/
theorem replay (accounts : Accounts settings events session) {more : List Event}
    (valid : ∀ r, .asked r ∈ more → ∃ dialect, r.options.dialect = .ok dialect) :
    Accounts settings (events ++ more) (session.replay settings more) := by
  induction more generalizing events session with
  | nil =>
    rw [List.append_nil]
    exact accounts
  | cons e more ih =>
    have step : Accounts settings (events ++ [e]) (session.next settings e) := by
      cases e with
      | asked r =>
        obtain ⟨dialect, valid⟩ := valid r (List.mem_cons_self ..)
        exact accounts.asked valid
      | cleared => exact accounts.cleared
    have later := ih step fun r hr => valid r (List.mem_cons_of_mem _ hr)
    rw [List.append_assoc] at later
    exact later

/-- A request is a hit, and counts as one, if its key was asked for since the last clear. -/
theorem isHit_iff (accounts : Accounts settings events session) {r : Request} {dialect : Dialect}
    (valid : r.options.dialect = .ok dialect) :
    ∃ answer, (session.generateNode settings r.node r.options r.custom).1 = .ok answer ∧
      (answer.isHit = true ↔ AskedSinceClear settings events (r.key settings)) ∧
      (session.next settings (.asked r)).cache.hits =
        session.cache.hits + if answer.isHit then 1 else 0 := by
  rw [← accounts.stored, Session.next]
  cases session.generateNode_step settings r with
  | refused invalid step => cases valid.symm.trans invalid
  | hit valid found step =>
    rw [step]
    exact ⟨_, rfl, ⟨fun _ => Keyed.mem_keys_iff.mpr ⟨_, found⟩, fun _ => rfl⟩, rfl⟩
  | miss valid absent step =>
    rw [step]
    refine ⟨_, rfl, ⟨fun h => (by cases h), fun mem => ?_⟩, rfl⟩
    exact absurd mem (Keyed.get?_eq_none_iff.mp absent)

/-- The cache holds as many components as there are keys that were asked for since the last clear. -/
theorem size_eq (accounts : Accounts settings events session) :
    session.cache.size = {key | AskedSinceClear settings events key}.ncard := by
  have keys : {key | AskedSinceClear settings events key} =
      (session.cache.entries.keys.toFinset : Set String) := by
    ext key
    rw [List.coe_toFinset]
    exact (accounts.stored key).symm
  have distinct : session.cache.entries.keys.Nodup := session.cache.entries.distinct
  rw [keys, Set.ncard_coe_finset, List.toFinset_card_of_nodup distinct]
  exact (List.length_map ..).symm

end Accounts

/-! ## Reports -/

/-- A component answers a request if it has the id of the request's node and was built for a request with
the same key. -/
def Answers (settings : Settings) (r : Request) (c : GeneratedComponent) : Prop :=
  c.id = r.node.value.id ∧
    ∃ s : Request, s.key settings = r.key settings ∧ settings.component s = .ok c

/-- What a report says of a run over targets, from the session before it and the one after it. -/
structure Covers (settings : Settings) (document : Document) (options : Options) (custom : CustomCode)
    (names : List String) (before after : Session) (report : GenerationReport) (nodes : List Node) :
    Prop where
  /-- Each target stands for a node. -/
  resolved : List.Forall₂ (fun name node => document.resolve name = .ok node) names nodes
  /-- Each of these nodes has its component, in order. -/
  components : List.Forall₂ (fun node (issued : Issued) =>
    Answers settings ⟨node, options, custom⟩ issued.component) nodes report.components
  count : report.componentCount = names.length
  hits : after.cache.hits = before.cache.hits + report.cacheHits
  analyzed : report.totalNodesAnalyzed = (nodes.map Tree.size).sum

theorem answers_of_key {r s : Request} {c : GeneratedComponent}
    (same : s.key settings = r.key settings) (built : settings.component s = .ok c) :
    Answers settings r c := by
  refine ⟨?_, s, same, built⟩
  obtain ⟨dialect, valid⟩ := dialect_of_component built
  unfold Settings.component at built
  rw [valid] at built
  cases built
  exact (CacheKey.text_parts same).1

/-- A request is answered, and counted as a hit if it is one. -/
theorem generateNode_answers {requests : List Request} {session after : Session}
    (traced : Traced settings requests session) {r : Request} {answer : Session.Answer}
    (answered : session.generateNode settings r.node r.options r.custom = (.ok answer, after)) :
    Answers settings r answer.issued.component ∧
      after.cache.hits = session.cache.hits + if answer.isHit then 1 else 0 := by
  cases session.generateNode_step settings r with
  | refused invalid step => cases step.symm.trans answered
  | hit valid found step =>
    cases step.symm.trans answered
    obtain ⟨s, -, same, built⟩ := traced _ _ found
    exact ⟨answers_of_key same built, rfl⟩
  | miss valid absent step =>
    cases step.symm.trans answered
    exact ⟨answers_of_key rfl (settings.component_of_valid valid), rfl⟩

/-- The report of a run over targets covers them. -/
theorem generateMany_covers {requests : List Request} {document : Document} {options : Options}
    {custom : CustomCode} {names : List String} {session last : Session} {report : GenerationReport}
    (traced : Traced settings requests session)
    (asked : ∀ r ∈ Operation.targetRequests document options custom names, r ∈ requests)
    (reported : session.generateMany settings document names options custom = (.ok report, last)) :
    ∃ nodes, Covers settings document options custom names session last report nodes := by
  induction names generalizing session report with
  | nil =>
    cases reported
    exact ⟨[], .nil, .nil, rfl, rfl, rfl⟩
  | cons name rest ih =>
    cases session.generateMany_step settings document options custom name rest with
    | refused call run asks => cases run.symm.trans reported
    | @answered node dialect answer after resolved valid call run asks =>
      rw [asks, List.forall_mem_cons] at asked
      rw [Session.generate_eq resolved] at call
      obtain ⟨first, counted⟩ := generateNode_answers (r := ⟨node, options, custom⟩) traced call
      have traced_after := (kept_traced settings requests).node _ asked.1 session traced
      dsimp only at traced_after
      rw [call] at traced_after
      rw [run] at reported
      cases more : after.generateMany settings document rest options custom with
      | mk result s =>
        rw [more] at reported
        cases result with
        | error e => cases reported
        | ok others =>
          cases reported
          -- The other targets are covered from the session that the first one leaves.
          obtain ⟨nodes, covers⟩ := ih traced_after asked.2 more
          refine ⟨node :: nodes, .cons (target_eq_ok_iff.mp resolved) covers.resolved,
            .cons first covers.components, ?_, ?_, ?_⟩
          · exact congrArg (· + 1) covers.count
          · rw [covers.hits, counted, Nat.add_assoc]
            rfl
          · rw [List.map_cons, List.sum_cons, ← covers.analyzed, ← Tree.length_walk]
            rfl

/-- The operations that run over targets, with their targets. -/
inductive Operation.RunsOver : Operation → Document → List String → Options → CustomCode → Prop where
  | targets (document : Document) (names : List String) (options : Options) (custom : CustomCode) :
      RunsOver (.generateMany document names options custom) document names options custom
  | components (document : Document) (options : Options) (custom : CustomCode) :
      RunsOver (.generateComponents document options custom) document document.components.keys
        options custom

theorem Operation.RunsOver.perform {op : Operation} {document : Document} {names : List String}
    {options : Options} {custom : CustomCode} (runs : op.RunsOver document names options custom)
    (session : Session) :
    session.perform settings op =
      ((session.generateMany settings document names options custom).map .report id) := by
  cases runs <;> rfl

theorem Operation.RunsOver.requests {op : Operation} {document : Document} {names : List String}
    {options : Options} {custom : CustomCode} (runs : op.RunsOver document names options custom) :
    op.requests = Operation.targetRequests document options custom names := by
  cases runs <;> rfl

/-! ## Runs -/

theorem run_append (session : Session) (a b : List Operation) :
    session.run settings (a ++ b) =
      let first := session.run settings a
      let rest := first.2.run settings b
      (first.1 ++ rest.1, rest.2) := by
  induction a generalizing session with
  | nil => rfl
  | cons op a ih =>
    have later := ih (session.perform settings op).2
    dsimp only [List.cons_append, Session.run] at later ⊢
    rw [later]

theorem length_run (session : Session) (operations : List Operation) :
    (session.run settings operations).1.length = operations.length := by
  induction operations generalizing session with
  | nil => rfl
  | cons op rest ih => exact congrArg (· + 1) (ih _)

/-- A call gives back what it gives back in the session that the calls before it leave. -/
theorem getElem?_run (session : Session) (before : List Operation) (op : Operation)
    (after : List Operation) :
    (session.run settings (before ++ op :: after)).1[before.length]? =
      some ((session.run settings before).2.perform settings op).1 := by
  have length : (session.run settings before).1.length = before.length := length_run session before
  rw [run_append]
  dsimp only
  rw [← length, List.getElem?_append_right (Nat.le_refl _), Nat.sub_self]
  rfl

theorem getElem?_run_runsOver {op : Operation} {document : Document} {names : List String}
    {options : Options} {custom : CustomCode} (runs : op.RunsOver document names options custom)
    (session : Session) (before after : List Operation) :
    (session.run settings (before ++ op :: after)).1[before.length]? =
      some (.report
        ((session.run settings before).2.generateMany settings document names options custom).1) := by
  rw [getElem?_run, runs.perform]
  rfl

/-- The accounts hold after every run of a new session. -/
theorem Accounts.run (settings : Settings) (operations : List Operation) :
    Accounts settings (operations.flatMap Operation.events)
      (Session.run settings {} operations).2 := by
  rw [run_eq_replay, ← List.nil_append (operations.flatMap Operation.events)]
  exact start.replay fun r => valid_of_asked

/-- Every report of a run of a new session covers its targets. -/
theorem run_covers {operations before after : List Operation} {op : Operation} {document : Document}
    {names : List String} {options : Options} {custom : CustomCode} {report : GenerationReport}
    (split : operations = before ++ op :: after)
    (runs : op.RunsOver document names options custom)
    (reported : (Session.run settings {} operations).1[before.length]? = some (.report (.ok report))) :
    ∃ nodes, Covers settings document options custom names (Session.run settings {} before).2
      (Session.run settings {} (before ++ [op])).2 report nodes := by
  subst split
  rw [getElem?_run_runsOver runs] at reported
  have after : (Session.run settings {} (before ++ [op])).2 =
      ((Session.run settings {} before).2.generateMany settings document names options custom).2 := by
    rw [run_append]
    exact congrArg Prod.snd (runs.perform _)
  rw [after]
  have traced : Traced settings ((before ++ [op]).flatMap Operation.requests)
      (Session.run settings {} before).2 := by
    refine (kept_traced settings _).run before (fun key issued hit => by cases hit) ?_
    intro o ho r hr
    exact List.mem_flatMap.mpr ⟨o, List.mem_append_left _ ho, hr⟩
  refine generateMany_covers traced (fun r hr => ?_) (Prod.ext ?_ rfl)
  · rw [← runs.requests] at hr
    exact List.mem_flatMap.mpr ⟨op, List.mem_append_right _ (List.mem_singleton_self op), hr⟩
  · injection reported with reported
    injection reported

/-- What the counts, the cache and the reports of a new session say after any calls. Every request that
was made counts as a hit or as a miss; it is a hit if its key was asked for since the last clear. The
cache holds one component for each of those keys, and no more than there were misses. A report has the
components of its targets, in order, with the hits and the nodes among them. -/
theorem run_accounted (settings : Settings) (operations : List Operation) :
    let events := operations.flatMap Operation.events
    let last := (Session.run settings {} operations).2
    last = Session.replay settings {} events ∧
    last.cache.hits + last.cache.misses = (operations.flatMap Operation.requests).length ∧
    (∀ before r after, events = before ++ .asked r :: after →
      ∃ answer, ((Session.replay settings {} before).generateNode settings r.node r.options
          r.custom).1 = .ok answer ∧
        (answer.isHit = true ↔ AskedSinceClear settings before (r.key settings)) ∧
        (Session.replay settings {} (before ++ [.asked r])).cache.hits =
          (Session.replay settings {} before).cache.hits + if answer.isHit then 1 else 0) ∧
    last.cache.size = {key | AskedSinceClear settings events key}.ncard ∧
    last.cache.size ≤ last.cache.misses ∧
    ∀ before op after document names options custom report, operations = before ++ op :: after →
      op.RunsOver document names options custom →
      (Session.run settings {} operations).1[before.length]? = some (.report (.ok report)) →
        ∃ nodes, Covers settings document options custom names (Session.run settings {} before).2
          (Session.run settings {} (before ++ [op])).2 report nodes := by
  intro events last
  have accounts : Accounts settings events last := Accounts.run settings operations
  refine ⟨run_eq_replay {} operations, accounts.counted.trans (countP_flatMap_events operations), ?_,
    accounts.size_eq, accounts.bounded, fun _ _ _ _ _ _ _ _ => run_covers⟩
  intro before r after split
  have valid (s : Request) (mem : .asked s ∈ events) :
      ∃ dialect, s.options.dialect = .ok dialect := valid_of_asked mem
  rw [split] at valid
  obtain ⟨dialect, given⟩ := valid r (List.mem_append_right _ (List.mem_cons_self ..))
  have earlier : Accounts settings before (Session.replay settings {} before) :=
    Accounts.start.replay fun s hs => valid s (List.mem_append_left _ hs)
  rw [replay_append]
  exact earlier.isHit_iff given

/-- Calls for one button by its id, its name and its key, then after a clear a run over targets that is
refused half-way and one over the component index. -/
def countedRun : List Operation :=
  let options : Options := { markup := some .static, stylesheet := some .plain }
  [.generateMany (buttonPage "Go") ["1:2", "Submit", "submit"] options {},
    .clear,
    .generateMany (buttonPage "Go") ["submit", "1:9"] options {},
    .generateComponents (buttonPage "Go") options {}]

def buttonRequest : Request :=
  ⟨Node.text "1:2" "Submit button" "Go", { markup := some .static, stylesheet := some .plain }, {}⟩

theorem events_countedRun :
    countedRun.flatMap Operation.events =
      [.asked buttonRequest, .asked buttonRequest, .asked buttonRequest, .cleared,
        .asked buttonRequest, .asked buttonRequest] := by
  cbv

/-- The run asks five times for one key. The second request is a hit and the one behind the clear is
none; one component is left, and the first call reports three. -/
theorem run_accounted_countedRun :
    let button := buttonRequest
    (Session.run {} {} countedRun).2.cache.hits + (Session.run {} {} countedRun).2.cache.misses = 5 ∧
      (∃ answer, ((Session.replay {} {} [.asked button]).generateNode {} button.node button.options
        button.custom).1 = .ok answer ∧ answer.isHit = true) ∧
      (∃ answer, ((Session.replay {} {} [.asked button, .asked button, .asked button,
        .cleared]).generateNode {} button.node button.options button.custom).1 = .ok answer ∧
        answer.isHit = false) ∧
      (Session.run {} {} countedRun).2.cache.size = 1 ∧
      ∃ report nodes, Covers {} (buttonPage "Go") button.options {} ["1:2", "Submit", "submit"] {}
        (Session.run {} {} (countedRun.take 1)).2 report nodes := by
  intro button
  obtain ⟨-, counted, answered, size, -, reported⟩ := run_accounted {} countedRun
  rw [events_countedRun] at answered size
  have again (events : List Event) :
      AskedSinceClear {} (events ++ [.asked button]) (button.key {}) :=
    askedSinceClear_asked.mpr (.inl rfl)
  have anew (events : List Event) (key : String) : ¬AskedSinceClear {} (events ++ [.cleared]) key :=
    not_askedSinceClear_cleared
  refine ⟨?_, ?_, ?_, ?_, ?_⟩
  · have five : (countedRun.flatMap Operation.requests).length = 5 := by
      rw [← countP_flatMap_events, events_countedRun]
      rfl
    exact counted.trans five
  · obtain ⟨answer, given, hit, -⟩ := answered [.asked button] button _ rfl
    exact ⟨answer, given, hit.mpr (again [])⟩
  · obtain ⟨answer, given, hit, -⟩ := answered [.asked button, .asked button, .asked button, .cleared]
      button _ rfl
    refine ⟨answer, given, Bool.eq_false_iff.mpr fun isHit => ?_⟩
    exact anew [.asked button, .asked button, .asked button] _ (hit.mp isHit)
  · have keys : {key | AskedSinceClear {} ([.asked button, .asked button, .asked button, .cleared] ++
        [.asked button] ++ [.asked button]) key} = {button.key {}} := by
      ext key
      rw [Set.mem_ofPred_eq, askedSinceClear_asked, askedSinceClear_asked, Set.mem_singleton_iff]
      have none := anew [.asked button, .asked button, .asked button] key
      exact ⟨fun h => h.elim Eq.symm fun h => h.elim Eq.symm fun h => absurd h none,
        fun h => .inl h.symm⟩
    exact size.trans ((congrArg Set.ncard keys).trans (Set.ncard_singleton _))
  · have found : ∀ n ∈ ["1:2", "Submit", "submit"], ∀ e,
        ¬Refused (buttonPage "Go") n button.options e := by
      have node : ∀ n ∈ ["1:2", "Submit", "submit"],
          (buttonPage "Go").resolve n = .ok button.node := by
        simp only [List.forall_mem_cons, List.not_mem_nil, false_imp_iff, implies_true, and_true]
        exact ⟨by cbv, by cbv, by cbv⟩
      exact fun n hn => forall_not_refused_iff.mpr ⟨_, ⟨.static, .plain, by decide⟩, node n hn, rfl, rfl⟩
    obtain ⟨report, given⟩ : ∃ report, (Session.generateMany {} {} (buttonPage "Go")
        ["1:2", "Submit", "submit"] button.options {}).1 = .ok report := exists_report_iff.mpr found
    refine ⟨report, reported [] _ _ _ _ _ _ report rfl (.targets ..) ?_⟩
    refine (getElem?_run_runsOver (.targets ..) {} [] _).trans ?_
    exact congrArg (fun r => some (Outcome.report r)) given

end Handoff
