import Handoff.Proofs.Session.Transparency
/-!
# Where the entries of the cache come from

Nothing is assumed about digests here. What a single request keeps, every run of requests keeps
(`Kept.run`). The invariant that is carried through a run that way says that each entry of the cache is
the component of some request of the run with the entry's key.

Results: `Kept.run`, `run_traced`.
-/
namespace Handoff

variable {settings : Settings} {requests : List Request}

/-- A property of sessions that the requests keep, and that forgetting all components keeps. -/
structure Kept (settings : Settings) (requests : List Request) (P : Session → Prop) : Prop where
  node : ∀ r ∈ requests, ∀ session, P session →
    P (session.generateNode settings r.node r.options r.custom).2
  clear : ∀ session, P session → P session.clear

namespace Kept

variable {P : Session → Prop}

/-- A call for one node is refused, which changes nothing, or makes a request. -/
theorem generateNode (kept : Kept settings requests P) {session : Session} (h : P session)
    (r : Request) (asked : ∀ dialect, r.options.dialect = .ok dialect → r ∈ requests) :
    P (session.generateNode settings r.node r.options r.custom).2 := by
  cases valid : r.options.dialect with
  | error e =>
    rw [Session.generateNode_of_error valid]
    exact h
  | ok dialect => exact kept.node r (asked dialect valid) session h

theorem generate (kept : Kept settings requests P) (document : Document) (name : String)
    (options : Options) (custom : CustomCode) {session : Session} (h : P session)
    (asked : ∀ r ∈ Operation.targetRequests document options custom [name], r ∈ requests) :
    P (session.generate settings document name options custom).2 := by
  cases resolved : Session.target document name with
  | error e =>
    rw [Session.generate_of_missing resolved]
    exact h
  | ok node =>
    rw [Session.generate_eq resolved]
    refine kept.generateNode h ⟨node, options, custom⟩ fun dialect valid => asked _ ?_
    rw [Operation.targetRequests_cons resolved valid]
    exact List.mem_cons_self ..

/-- Targets are asked for one after the other, up to the first one that is refused. -/
theorem generateMany (kept : Kept settings requests P) (document : Document) (options : Options)
    (custom : CustomCode) (names : List String) {session : Session} (h : P session)
    (asked : ∀ r ∈ Operation.targetRequests document options custom names, r ∈ requests) :
    P (session.generateMany settings document names options custom).2 := by
  induction names generalizing session with
  | nil => exact h
  | cons name rest ih =>
    have first := kept.generate document name options custom h fun r hr =>
      asked r (Operation.targetRequests_head_subset hr)
    cases session.generateMany_step settings document options custom name rest with
    | refused call run asks =>
      rw [run]
      exact h
    | answered resolved valid call run asks =>
      rw [call] at first
      rw [asks, List.forall_mem_cons] at asked
      rw [run]
      exact ih first asked.2

theorem perform (kept : Kept settings requests P) (op : Operation) {session : Session} (h : P session)
    (asked : ∀ r ∈ op.requests, r ∈ requests) : P (session.perform settings op).2 := by
  cases op with
  | generate document name options custom =>
    exact kept.generate document name options custom h asked
  | generateNode node options custom =>
    refine kept.generateNode h ⟨node, options, custom⟩ fun dialect valid => asked _ ?_
    dsimp only [Operation.requests] at valid ⊢
    rw [valid]
    exact List.mem_cons_self ..
  | generateMany document names options custom =>
    exact kept.generateMany document options custom names h asked
  | generateComponents document options custom =>
    exact kept.generateMany document options custom document.components.keys h asked
  | clear => exact kept.clear session h

/-- A run keeps what its requests keep. -/
theorem run (kept : Kept settings requests P) (operations : List Operation) {session : Session}
    (h : P session) (asked : ∀ op ∈ operations, ∀ r ∈ op.requests, r ∈ requests) :
    P (session.run settings operations).2 := by
  induction operations generalizing session with
  | nil => exact h
  | cons op rest ih =>
    rw [List.forall_mem_cons] at asked
    exact ih (kept.perform op h asked.1) asked.2

end Kept

/-! ## Entries -/

/-- Every entry of the cache is the component of some request with the entry's key. -/
def Traced (settings : Settings) (requests : List Request) (session : Session) : Prop :=
  ∀ key issued, session.cache.entries.get? key = some issued →
    ∃ r ∈ requests, r.key settings = key ∧ settings.component r = .ok issued.component

theorem kept_traced (settings : Settings) (requests : List Request) :
    Kept settings requests (Traced settings requests) where
  node r mem session traced := by
    cases session.generateNode_step settings r with
    | refused invalid step =>
      rw [step]
      exact traced
    | hit valid found step =>
      rw [step]
      exact traced
    | miss valid absent step =>
      rw [step]
      intro key issued hit
      dsimp only at hit
      rw [Keyed.get?_insert] at hit
      split at hit
      · next same =>
        cases hit
        exact ⟨r, mem, same.symm, settings.component_of_valid valid⟩
      · exact traced key issued hit
  clear session _ key issued hit := by cases hit

/-- At the end of a run of a new session every entry comes from a request of the run. -/
theorem run_traced (settings : Settings) (operations : List Operation) :
    Traced settings (operations.flatMap Operation.requests) (Session.run settings {} operations).2 :=
  (kept_traced settings _).run operations (fun key issued hit => by cases hit)
    fun op hop _ hr => List.mem_flatMap.mpr ⟨op, hop, hr⟩

end Handoff
