import Handoff.Scene.Layer
import Handoff.Keyed
/-!
# Scene documents

A document is a scene with an index of its named components. A target is the id of a node, or else
the name or the key of an entry of the index.
-/
namespace Handoff

structure ComponentMeta where
  key : String
  name : String
  description : Option String := none
deriving DecidableEq, Inhabited

/-- A scene and the index of its components, by node id. -/
structure Document where
  name : Option String := none
  root : Node
  components : Keyed ComponentMeta := .empty
deriving Inhabited

namespace Document

def node? (d : Document) (id : String) : Option Node :=
  d.root.find? fun l => l.id == id

/-- The id of the first entry of the index with that name or key. -/
def idOfComponent? (d : Document) (target : String) : Option String :=
  (d.components.entries.find? fun (_, entry) => entry.name == target || entry.key == target).map
    Prod.fst

/-- The node with that id. If there is none, the id is the error. -/
def find (d : Document) (id : String) : Except String Node :=
  match d.node? id with
  | some n => .ok n
  | none => .error id

/-- The node that a target stands for. The error is the id that no node has. -/
def resolve (d : Document) (target : String) : Except String Node :=
  match d.node? target with
  | some n => .ok n
  | none =>
    match d.idOfComponent? target with
    | some id => d.find id
    | none => .error target

def nodeCount (d : Document) : Nat :=
  d.root.walk.length

end Document
end Handoff
