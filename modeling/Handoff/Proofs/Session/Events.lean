import Handoff.Proofs.Session.Refusal
/-!
# Runs as events

To the cache of a session a run comes to requests for single nodes, in order, and to clears between them:
its events. A session is moved by its events alone, one after the other, whichever calls they belong to.
From the events it can be told which keys were asked for since the last clear.

Results:
* `run_eq_replay`: a run leaves the session that its events leave.
* `countP_flatMap_events`: every request of a run is one event.
* `askedSinceClear_concat`: which keys one more event adds, and which it takes away.
-/
namespace Handoff

/-- What happens to the cache of a session. -/
inductive Event where
  | asked (r : Request)
  | cleared

def Event.isAsked : Event → Bool
  | .asked _ => true
  | .cleared => false

def Operation.events : Operation → List Event
  | .clear => [.cleared]
  | op => op.requests.map .asked

/-- A key was asked for, and nothing was cleared behind that. -/
def AskedSinceClear (settings : Settings) (events : List Event) (key : String) : Prop :=
  ∃ before r after, events = before ++ .asked r :: after ∧ r.key settings = key ∧
    .cleared ∉ after

namespace Session

def next (settings : Settings) (session : Session) : Event → Session
  | .asked r => (session.generateNode settings r.node r.options r.custom).2
  | .cleared => session.clear

def replay (settings : Settings) (session : Session) (events : List Event) : Session :=
  events.foldl (next settings) session

end Session

variable {settings : Settings}

/-! ## Runs as events -/

theorem replay_append (session : Session) (a b : List Event) :
    session.replay settings (a ++ b) = (session.replay settings a).replay settings b :=
  List.foldl_append

/-- A run over targets leaves the session that its requests leave, also where it ends half-way. -/
theorem replay_targetRequests (session : Session) (document : Document) (names : List String)
    (options : Options) (custom : CustomCode) :
    (session.generateMany settings document names options custom).2 =
      session.replay settings
        ((Operation.targetRequests document options custom names).map .asked) := by
  induction names generalizing session with
  | nil => rfl
  | cons name rest ih =>
    cases session.generateMany_step settings document options custom name rest with
    | refused call run asks =>
      rw [run, asks]
      rfl
    | @answered node dialect answer after resolved valid call run asks =>
      have moved : session.next settings (.asked ⟨node, options, custom⟩) = after :=
        congrArg Prod.snd ((Session.generate_eq resolved).symm.trans call)
      rw [run, asks, List.map_cons, Session.replay, List.foldl_cons, moved]
      exact ih after

theorem perform_eq_replay (session : Session) (op : Operation) :
    (session.perform settings op).2 = session.replay settings op.events := by
  cases op with
  | generate document name options custom =>
    have events : (Operation.generate document name options custom).events =
        (Operation.targetRequests document options custom [name]).map .asked := rfl
    rw [events, ← replay_targetRequests]
    cases session.generateMany_step settings document options custom name [] with
    | refused call run asks => rw [run, Session.perform, call]
    | answered resolved valid call run asks =>
      rw [run, Session.perform, call]
      rfl
  | generateNode node options custom =>
    have events : (Operation.generateNode node options custom).events =
        (Operation.generateNode node options custom).requests.map .asked := rfl
    rw [events, Operation.requests]
    cases valid : options.dialect with
    | error e =>
      rw [Session.perform, Session.generateNode_of_error valid]
      rfl
    | ok dialect => rfl
  | generateMany document names options custom => exact replay_targetRequests ..
  | generateComponents document options custom => exact replay_targetRequests ..
  | clear => rfl

/-- A run leaves the session that its events leave. -/
theorem run_eq_replay (session : Session) (operations : List Operation) :
    (session.run settings operations).2 =
      session.replay settings (operations.flatMap Operation.events) := by
  induction operations generalizing session with
  | nil => rfl
  | cons op rest ih =>
    rw [List.flatMap_cons, replay_append, ← perform_eq_replay, ← ih]
    rfl

theorem valid_of_mem_targetRequests {document : Document} {names : List String} {options : Options}
    {custom : CustomCode} {r : Request}
    (h : r ∈ Operation.targetRequests document options custom names) :
    ∃ dialect, r.options.dialect = .ok dialect := by
  induction names with
  | nil => cases h
  | cons name rest ih =>
    unfold Operation.targetRequests at h
    split at h
    · next node dialect resolved valid =>
      rcases List.mem_cons.mp h with rfl | h
      · exact ⟨dialect, valid⟩
      · exact ih h
    · cases h

/-- What is asked for has two dialects that go together. -/
theorem valid_of_mem_requests {op : Operation} {r : Request} (h : r ∈ op.requests) :
    ∃ dialect, r.options.dialect = .ok dialect := by
  cases op with
  | generate document name options custom => exact valid_of_mem_targetRequests h
  | generateNode node options custom =>
    dsimp only [Operation.requests] at h
    split at h
    · next dialect valid =>
      rw [List.mem_singleton.mp h]
      exact ⟨dialect, valid⟩
    · cases h
  | generateMany document names options custom => exact valid_of_mem_targetRequests h
  | generateComponents document options custom => exact valid_of_mem_targetRequests h
  | clear => cases h

theorem mem_requests_of_asked {op : Operation} {r : Request} (h : .asked r ∈ op.events) :
    r ∈ op.requests := by
  cases op with
  | clear => cases List.mem_singleton.mp h
  | _ =>
    obtain ⟨s, mem, eq⟩ := List.mem_map.mp h
    cases eq
    exact mem

theorem valid_of_asked {operations : List Operation} {r : Request}
    (h : .asked r ∈ operations.flatMap Operation.events) :
    ∃ dialect, r.options.dialect = .ok dialect := by
  obtain ⟨op, -, hr⟩ := List.mem_flatMap.mp h
  exact valid_of_mem_requests (mem_requests_of_asked hr)

theorem countP_events (op : Operation) : op.events.countP Event.isAsked = op.requests.length := by
  have asked (requests : List Request) :
      (requests.map Event.asked).countP Event.isAsked = requests.length := by
    rw [List.countP_map]
    exact List.countP_eq_length.mpr fun _ _ => rfl
  cases op with
  | clear => rfl
  | _ => exact asked _

/-- Along a run as much is asked for as requests are made. -/
theorem countP_flatMap_events (operations : List Operation) :
    (operations.flatMap Operation.events).countP Event.isAsked =
      (operations.flatMap Operation.requests).length := by
  rw [List.countP_flatMap, List.length_flatMap]
  exact congrArg List.sum (List.map_congr_left fun op _ => countP_events op)

/-! ## Keys since the last clear -/

/-- Behind one more event a key counts as asked for if that event asks for it, or if it did so before and
nothing is cleared. -/
theorem askedSinceClear_concat {events : List Event} {e : Event} {key : String} :
    AskedSinceClear settings (events ++ [e]) key ↔
      (∃ r, e = .asked r ∧ r.key settings = key) ∨
        e ≠ .cleared ∧ AskedSinceClear settings events key := by
  constructor
  · rintro ⟨before, r, after, split, same, open'⟩
    -- The request is the last event, or the last event stands behind it.
    rcases List.eq_nil_or_concat' after with rfl | ⟨after, last, rfl⟩
    · obtain ⟨-, eq⟩ := List.append_inj' split rfl
      exact .inl ⟨r, (List.cons.inj eq).1, same⟩
    · rw [← List.cons_append, ← List.append_assoc] at split
      obtain ⟨rfl, eq⟩ := List.append_inj' split rfl
      obtain rfl := (List.cons.inj eq).1
      simp only [List.mem_append, List.mem_singleton, not_or] at open'
      exact .inr ⟨fun cleared => open'.2 cleared.symm, before, r, after, rfl, same, open'.1⟩
  · rintro (⟨r, rfl, same⟩ | ⟨kept, before, r, after, rfl, same, open'⟩)
    · exact ⟨events, r, [], rfl, same, List.not_mem_nil⟩
    · refine ⟨before, r, after ++ [e], by simp, same, ?_⟩
      simp only [List.mem_append, List.mem_singleton, not_or]
      exact ⟨open', fun cleared => kept cleared.symm⟩

theorem askedSinceClear_asked {events : List Event} {r : Request} {key : String} :
    AskedSinceClear settings (events ++ [.asked r]) key ↔
      r.key settings = key ∨ AskedSinceClear settings events key := by
  simp [askedSinceClear_concat]

theorem not_askedSinceClear_cleared {events : List Event} {key : String} :
    ¬AskedSinceClear settings (events ++ [.cleared]) key := by
  simp [askedSinceClear_concat]

end Handoff
