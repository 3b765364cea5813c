/-!
# Trees

A scene, its classification, its styles and its markup are trees of one shape that carry different
things. `Tree` is that shape, once.

`walk` visits a tree with an explicit stack, `preorder` by recursion; `walk_eq_preorder` says that
they agree. `sameShape` compares two trees and ignores what they carry.
-/
namespace Handoff

/-- A value and the trees below it, in order. -/
inductive Tree (α : Type) where
  | node (value : α) (children : List (Tree α))

namespace Tree

variable {α β : Type}

def value : Tree α → α
  | .node v _ => v

def children : Tree α → List (Tree α)
  | .node _ cs => cs

def leaf (v : α) : Tree α := .node v []

instance [Inhabited α] : Inhabited (Tree α) := ⟨leaf default⟩

/-- The number of nodes. -/
def size : Tree α → Nat
  | .node _ cs => 1 + sizes cs
where
  sizes : List (Tree α) → Nat
    | [] => 0
    | t :: ts => size t + sizes ts

/-- Changes what every node carries. -/
def map (f : α → β) : Tree α → Tree β
  | .node v cs => .node (f v) (maps cs)
where
  maps : List (Tree α) → List (Tree β)
    | [] => []
    | t :: ts => map f t :: maps ts

/-- Whether two trees agree but for what they carry. -/
def sameShape : Tree α → Tree β → Bool
  | .node _ cs, .node _ ds => sameShapes cs ds
where
  sameShapes : List (Tree α) → List (Tree β) → Bool
    | [], [] => true
    | c :: cs, d :: ds => sameShape c d && sameShapes cs ds
    | _, _ => false

/-- The subtrees, each before those below it, from left to right. -/
def preorder : Tree α → List (Tree α)
  | .node v cs => .node v cs :: preorders cs
where
  preorders : List (Tree α) → List (Tree α)
    | [] => []
    | t :: ts => preorder t ++ preorders ts

theorem sizes_append (ts us : List (Tree α)) :
    size.sizes (ts ++ us) = size.sizes ts + size.sizes us := by
  induction ts with
  | nil => simp [size.sizes]
  | cons t ts ih => simp only [List.cons_append, size.sizes, ih]; omega

/-- Takes the tree on top of a stack and puts its children in its place. -/
def step : List (Tree α) → Option (Tree α × List (Tree α))
  | [] => none
  | t :: stack => some (t, t.children ++ stack)

/-- The trees that come to the top of a stack, one after the other. -/
def walkStack (stack : List (Tree α)) : List (Tree α) :=
  match _next : step stack with
  | none => []
  | some (t, rest) => t :: walkStack rest
termination_by size.sizes stack
decreasing_by
  cases stack with
  | nil => cases _next
  | cons u stack =>
    cases u with
    | node v cs =>
      simp only [step, children, Option.some.injEq, Prod.mk.injEq] at _next
      rw [← _next.2, sizes_append]
      simp only [size.sizes, size]
      omega

/-- The subtrees in the order in which a stack that starts with the tree reaches them. -/
def walk (t : Tree α) : List (Tree α) :=
  walkStack [t]

theorem walkStack_eq_preorders (stack : List (Tree α)) :
    walkStack stack = preorder.preorders stack := by
  fun_induction walkStack stack with
  | case1 stack h =>
    cases stack with
    | nil => rfl
    | cons t ts => cases h
  | case2 stack t rest h ih =>
    cases stack with
    | nil => cases h
    | cons u us =>
      cases u with
      | node v cs =>
        simp only [step, children, Option.some.injEq, Prod.mk.injEq] at h
        obtain ⟨rfl, rfl⟩ := h
        rw [ih]
        have append (ts us : List (Tree α)) :
            preorder.preorders (ts ++ us) = preorder.preorders ts ++ preorder.preorders us := by
          induction ts with
          | nil => rfl
          | cons t ts ih => simp [preorder.preorders, ih]
        rw [append]
        rfl

/-- The stack reaches the subtrees in preorder. -/
theorem walk_eq_preorder (t : Tree α) : t.walk = t.preorder := by
  rw [walk, walkStack_eq_preorders]
  simp [preorder.preorders]

/-- What the nodes carry, in the order of the walk. -/
def values (t : Tree α) : List α :=
  t.walk.map value

/-- The first subtree in the order of the walk whose root satisfies a condition. -/
def find? (p : α → Bool) (t : Tree α) : Option (Tree α) :=
  t.walk.find? fun u => p u.value

def descendantCount (t : Tree α) : Nat :=
  t.walk.length - 1

/-- Whether some subtree below the root satisfies a condition. -/
def anyDescendant (p : Tree α → Bool) (t : Tree α) : Bool :=
  (t.walk.drop 1).any p

def any (p : α → Bool) (t : Tree α) : Bool :=
  t.values.any p

end Tree
end Handoff
