import Handoff.Session
/-!
# Runs of a session

An operation is one call on a session; a run is a list of them, each on the session that the ones
before it leave behind. `Operation.requests` lists the nodes that an operation asks the cache for, in
order: a run over several targets ends at the first that is refused.

`Settings.expected` says what an operation gives back when every component is built anew.
-/
namespace Handoff

inductive Operation where
  | generate (document : Document) (name : String) (options : Options) (custom : CustomCode)
  | generateNode (node : Node) (options : Options) (custom : CustomCode)
  | generateMany (document : Document) (names : List String) (options : Options)
      (custom : CustomCode)
  | generateComponents (document : Document) (options : Options) (custom : CustomCode)
  | clear

inductive Outcome where
  | answer (result : Except GenerationError Session.Answer)
  | report (result : Except GenerationError GenerationReport)
  | cleared

/-- The components of an outcome, in order. -/
def Outcome.components : Outcome → Except GenerationError (List GeneratedComponent)
  | .answer result => result.map fun a => [a.issued.component]
  | .report result => result.map fun r => r.components.map Issued.component
  | .cleared => .ok []

namespace Session

/-- One call. -/
def perform (settings : Settings) (session : Session) : Operation → Outcome × Session
  | .generate document name options custom =>
    let (result, session) := session.generate settings document name options custom
    (.answer result, session)
  | .generateNode node options custom =>
    let (result, session) := session.generateNode settings node options custom
    (.answer result, session)
  | .generateMany document names options custom =>
    let (result, session) := session.generateMany settings document names options custom
    (.report result, session)
  | .generateComponents document options custom =>
    let (result, session) := session.generateComponents settings document options custom
    (.report result, session)
  | .clear => (.cleared, session.clear)

/-- Calls one after the other. -/
def run (settings : Settings) (session : Session) : List Operation → List Outcome × Session
  | [] => ([], session)
  | op :: rest =>
    let (outcome, session) := session.perform settings op
    let (outcomes, session) := run settings session rest
    (outcome :: outcomes, session)

end Session

/-! ## Requests -/

structure Request where
  node : Node
  options : Options
  custom : CustomCode

/-- The key of a request. -/
def Request.key (settings : Settings) (r : Request) : String :=
  (settings.key r.node r.options r.custom).text

namespace Operation

/-- The requests of a run over targets, up to the first one that is refused. -/
def targetRequests (document : Document) (options : Options) (custom : CustomCode) :
    List String → List Request
  | [] => []
  | name :: rest =>
    match Session.target document name, options.dialect with
    | .ok node, .ok _ => ⟨node, options, custom⟩ :: targetRequests document options custom rest
    | _, _ => []

/-- The requests that an operation makes, in order. -/
def requests : Operation → List Request
  | .generate document name options custom => targetRequests document options custom [name]
  | .generateNode node options custom =>
    match options.dialect with
    | .ok _ => [⟨node, options, custom⟩]
    | .error _ => []
  | .generateMany document names options custom => targetRequests document options custom names
  | .generateComponents document options custom =>
    targetRequests document options custom document.components.keys
  | .clear => []

end Operation

/-! ## Without a cache -/

namespace Settings

def component (settings : Settings) (r : Request) : Except GenerationError GeneratedComponent :=
  r.options.dialect.map fun dialect => settings.build r.node dialect r.options r.custom

/-- The component of a target, built anew. -/
def targetComponent (settings : Settings) (document : Document) (options : Options)
    (custom : CustomCode) (name : String) : Except GenerationError GeneratedComponent := do
  let node ← Session.target document name
  settings.component ⟨node, options, custom⟩

/-- What an operation gives back when every component is built anew. -/
def expected (settings : Settings) : Operation → Except GenerationError (List GeneratedComponent)
  | .generate document name options custom =>
    [name].mapM (settings.targetComponent document options custom)
  | .generateNode node options custom =>
    (settings.component ⟨node, options, custom⟩).map fun c => [c]
  | .generateMany document names options custom =>
    names.mapM (settings.targetComponent document options custom)
  | .generateComponents document options custom =>
    document.components.keys.mapM (settings.targetComponent document options custom)
  | .clear => .ok []

end Settings
end Handoff
