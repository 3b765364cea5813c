import Handoff.Proofs.Tree
import Handoff.Scene.Document
/-!
# What a target stands for

A target is the id of a node, or else the name or the key of an entry of the component index. Names and
keys need not be apart, and an entry may be about a node that is not in the scene. The entry is chosen
first, by name or key alone and in the order of the index, and its node is looked up afterwards: an entry
about a missing node hides those behind it.

Results:
* `Document.node?_eq_some_iff`, `Document.node?_eq_none_iff`: the first node with an id.
* `Document.idOfComponent?_eq_some_iff`: the first entry with a name or key.
* `Document.resolve_iff`: the node that a target stands for, or the id that is missed.
* `Document.not_resolvesAny_hiddenCard`: an entry hidden by one about a missing node.
-/
namespace Handoff

/-- What satisfies a condition in a list, and nothing before it does. -/
def FirstWith {α : Type} (p : α → Prop) (l : List α) (x : α) : Prop :=
  p x ∧ ∃ before after, l = before ++ x :: after ∧ ∀ y ∈ before, ¬p y

theorem find?_eq_some_iff_first {α : Type} {p : α → Bool} {q : α → Prop} (same : ∀ x, p x = true ↔ q x)
    {l : List α} {x : α} : l.find? p = some x ↔ FirstWith q l x := by
  rw [List.find?_eq_some_iff_append, FirstWith, same]
  simp only [Bool.not_eq_true', ← same, Bool.not_eq_true]

namespace Document

variable {d : Document} {target id : String}

/-- Whether a node of the scene has that id. -/
def Occurs (d : Document) (id : String) : Prop := ∃ n ∈ d.root.preorder, n.value.id = id

/-- The first node of the scene with that id, parents before their children. -/
def NodeOf (d : Document) (id : String) : Node → Prop :=
  FirstWith (fun n => n.value.id = id) d.root.preorder

/-- Whether an entry of the index has the target for its name or its key. -/
def Answers (target : String) (entry : String × ComponentMeta) : Prop :=
  entry.2.name = target ∨ entry.2.key = target

theorem node?_eq_some_iff {n : Node} : d.node? id = some n ↔ d.NodeOf id n := by
  rw [node?, Tree.find?, Tree.walk_eq_preorder]
  exact find?_eq_some_iff_first fun n => beq_iff_eq

theorem node?_eq_none_iff : d.node? id = none ↔ ¬d.Occurs id := by
  rw [node?, Tree.find?, Tree.walk_eq_preorder, List.find?_eq_none]
  simp only [beq_iff_eq, Occurs, not_exists, not_and]

theorem idOfComponent?_eq_some_iff : d.idOfComponent? target = some id ↔
    ∃ entry, FirstWith (Answers target) d.components.entries entry ∧ entry.1 = id := by
  rw [idOfComponent?, Option.map_eq_some_iff]
  refine exists_congr fun entry => and_congr_left fun _ => find?_eq_some_iff_first fun entry => ?_
  rw [Bool.or_eq_true, beq_iff_eq, beq_iff_eq, Answers]

theorem idOfComponent?_eq_none_iff : d.idOfComponent? target = none ↔
    ∀ entry ∈ d.components.entries, ¬Answers target entry := by
  rw [idOfComponent?, Option.map_eq_none_iff, List.find?_eq_none]
  refine forall₂_congr fun entry _ => not_congr ?_
  rw [Bool.or_eq_true, beq_iff_eq, beq_iff_eq, Answers]

theorem exists_entry_iff {p : String → Prop} :
    (∃ entry, FirstWith (Answers target) d.components.entries entry ∧ p entry.1) ↔
      ∃ id, d.idOfComponent? target = some id ∧ p id := by
  simp only [idOfComponent?_eq_some_iff]
  constructor
  · rintro ⟨entry, first, asked⟩
    exact ⟨entry.1, ⟨entry, first, rfl⟩, asked⟩
  · rintro ⟨_, ⟨entry, first, rfl⟩, asked⟩
    exact ⟨entry, first, asked⟩

/-- A target stands for the first node that has it for its id. If there is none, the first entry of the
index with the target for its name or key decides: the target stands for the first node with the id of
that entry, and if there is no such node, that id is missed. Without an entry the target itself is
missed. -/
theorem resolve_iff (d : Document) (target : String) :
    (∀ n, d.resolve target = .ok n ↔
      d.NodeOf target n ∨
        ¬d.Occurs target ∧
          ∃ entry, FirstWith (Answers target) d.components.entries entry ∧ d.NodeOf entry.1 n) ∧
    ∀ id, d.resolve target = .error id ↔
      ¬d.Occurs target ∧
        ((∃ entry, FirstWith (Answers target) d.components.entries entry ∧
            entry.1 = id ∧ ¬d.Occurs entry.1) ∨
          (∀ entry ∈ d.components.entries, ¬Answers target entry) ∧ id = target) := by
  -- Both sides come to the same searches: for a node by the target, for an entry by the target, and for
  -- a node by the id of the entry.
  have stands n : (∃ entry, FirstWith (Answers target) d.components.entries entry ∧ d.NodeOf entry.1 n) ↔
      ∃ id, d.idOfComponent? target = some id ∧ d.node? id = some n := by
    simp only [node?_eq_some_iff]
    exact exists_entry_iff (p := (d.NodeOf · n))
  have missed id : (∃ entry, FirstWith (Answers target) d.components.entries entry ∧
      entry.1 = id ∧ ¬d.Occurs entry.1) ↔ d.idOfComponent? target = some id ∧ d.node? id = none := by
    rw [exists_entry_iff (p := fun named => named = id ∧ ¬d.Occurs named), node?_eq_none_iff]
    simp only [and_left_comm (b := _ = id), exists_eq_left]
  simp only [stands, missed]
  simp only [← node?_eq_some_iff, ← node?_eq_none_iff, ← idOfComponent?_eq_none_iff]
  cases byId : d.node? target with
  | some found => simp [resolve, byId]
  | none =>
    cases byEntry : d.idOfComponent? target with
    | none => simp [resolve, byId, byEntry, eq_comm]
    | some named =>
      cases byName : d.node? named with
      | none => simp [resolve, find, byId, byEntry, byName]
      | some found => simp [resolve, find, byId, byEntry, byName]

/-- What resolving a target would come to if entries about missing nodes were passed over. -/
structure ResolvesAny (d : Document) (target : String) : Prop where
  node : ∀ n, d.NodeOf target n → d.resolve target = .ok n
  entry : ¬d.Occurs target → ∀ entry n,
    FirstWith (fun e => Answers target e ∧ d.Occurs e.1) d.components.entries entry →
      d.NodeOf entry.1 n → d.resolve target = .ok n
  missing : ∀ id, d.resolve target = .error id →
    ¬d.Occurs target ∧ ∀ entry ∈ d.components.entries, Answers target entry → ¬d.Occurs entry.1

/-- A card in the scene, and before it in the index one that is not. -/
def hiddenCard : Document where
  root := .node { id := "1", name := "Page", kind := .canvas } [.leaf { id := "2", name := "Card" }]
  components := .ofList [("9", ⟨"far", "Card", none⟩), ("2", ⟨"near", "Card", none⟩)]

theorem not_resolvesAny_hiddenCard :
    hiddenCard.resolve "Card" = .error "9" ∧ ¬hiddenCard.ResolvesAny "Card" := by
  have search (id : String) : hiddenCard.node? id =
      hiddenCard.root.preorder.find? fun n => n.value.id == id := by
    rw [node?, Tree.find?, Tree.walk_eq_preorder]
  have byId : hiddenCard.node? "Card" = none := by
    rw [search]
    decide
  have byEntry : hiddenCard.idOfComponent? "Card" = some "9" := by decide
  have gone : hiddenCard.node? "9" = none := by
    rw [search]
    decide
  have missed : hiddenCard.resolve "Card" = .error "9" := by
    simp only [resolve, byId, byEntry, find, gone]
  refine ⟨missed, fun any => ?_⟩
  obtain ⟨-, absent⟩ := any.missing "9" missed
  have indexed : ("2", ⟨"near", "Card", none⟩) ∈ hiddenCard.components.entries := by decide
  exact absent _ indexed (.inl rfl) ⟨.leaf { id := "2", name := "Card" }, .tail _ (.head _), rfl⟩

end Document
end Handoff
