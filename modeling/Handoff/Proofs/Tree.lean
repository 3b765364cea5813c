import Handoff.Tree
import Mathlib.Data.List.Forall2
/-!
# Trees, node by node

`Tree.ind` proves something of every tree from the trees below its root. The order of the walk is
written through the children here: a node first, then what each child carries.

Results:
* `values_node`: what a tree carries, through its children.
* `length_walk`: the walk is as long as the tree has nodes.
* `values_subset_of_mem_walk`: a subtree carries nothing that the tree does not carry.
* `forall₂_walk`: what two trees pass on to their children, in order, holds all along their walks.
-/
namespace Handoff.Tree

variable {α β : Type}

/-- A property that passes from the children to their parent holds of every tree. -/
@[elab_as_elim]
theorem ind {P : Tree α → Prop} (node : ∀ v cs, (∀ c ∈ cs, P c) → P (.node v cs)) : ∀ t, P t
  | .node v cs => node v cs (all cs)
where
  all : ∀ cs : List (Tree α), ∀ c ∈ cs, P c
    | c :: cs, d, h => by
      rcases List.mem_cons.mp h with eq | h
      · rw [eq]
        exact ind node c
      · exact all cs d h

theorem preorders_eq (ts : List (Tree α)) : preorder.preorders ts = ts.flatMap preorder := by
  induction ts with
  | nil => rfl
  | cons t ts ih => rw [preorder.preorders, ih, List.flatMap_cons]

theorem preorder_node (v : α) (cs : List (Tree α)) :
    (node v cs).preorder = .node v cs :: cs.flatMap preorder := by
  rw [preorder, preorders_eq]

@[simp]
theorem walk_node (v : α) (cs : List (Tree α)) :
    (node v cs).walk = .node v cs :: cs.flatMap walk := by
  rw [walk_eq_preorder, preorder_node, funext walk_eq_preorder]

/-- What a tree carries: what its root carries, then what each child does. -/
@[simp]
theorem values_node (v : α) (cs : List (Tree α)) :
    (node v cs).values = v :: cs.flatMap values := by
  rw [values, walk_node, List.map_cons, List.map_flatMap]
  rfl

theorem getElem?_values_zero (t : Tree α) : t.values[0]? = some t.value := by
  cases t with
  | node v cs =>
    rw [values_node]
    rfl

theorem maps_eq (f : α → β) (ts : List (Tree α)) : map.maps f ts = ts.map (map f) := by
  induction ts with
  | nil => rfl
  | cons t ts ih => rw [map.maps, ih, List.map_cons]

@[simp]
theorem map_node (f : α → β) (v : α) (cs : List (Tree α)) :
    (node v cs).map f = .node (f v) (cs.map (map f)) := by
  rw [map, maps_eq]

@[simp]
theorem children_map (f : α → β) (t : Tree α) : (t.map f).children = t.children.map (map f) := by
  cases t
  rw [map_node]
  rfl

@[simp]
theorem walk_map (f : α → β) (t : Tree α) : (t.map f).walk = t.walk.map (map f) := by
  induction t using ind with
  | node v cs ih =>
    rw [map_node, walk_node, walk_node, List.map_cons, map_node, List.map_flatMap, List.flatMap_map]
    exact congrArg _ (List.flatMap_congr ih)

@[simp]
theorem value_map (f : α → β) (t : Tree α) : (t.map f).value = f t.value := by
  cases t
  rfl

@[simp]
theorem values_map (f : α → β) (t : Tree α) : (t.map f).values = t.values.map f := by
  rw [values, values, walk_map, List.map_map, List.map_map]
  exact List.map_congr_left fun u _ => value_map f u

@[simp]
theorem mem_walk_self (t : Tree α) : t ∈ t.walk := by
  cases t with
  | node v cs =>
    rw [walk_node]
    exact List.mem_cons_self ..

theorem length_flatMap_walk {ts : List (Tree α)} (each : ∀ t ∈ ts, t.walk.length = t.size) :
    (ts.flatMap walk).length = size.sizes ts := by
  induction ts with
  | nil => rfl
  | cons t ts ih =>
    rw [List.forall_mem_cons] at each
    rw [List.flatMap_cons, List.length_append, each.1, ih each.2, size.sizes]

/-- The walk visits every node once. -/
theorem length_walk (t : Tree α) : t.walk.length = t.size := by
  induction t using ind with
  | node v cs ih =>
    rw [walk_node, List.length_cons, length_flatMap_walk ih, size, Nat.add_comm]

/-- A subtree carries nothing that the tree does not carry. -/
theorem values_subset_of_mem_walk {t u : Tree α} (h : u ∈ t.walk) : ∀ x ∈ u.values, x ∈ t.values := by
  induction t using ind with
  | node v cs ih =>
    rw [walk_node] at h
    rcases List.mem_cons.mp h with rfl | h
    · exact fun x hx => hx
    · obtain ⟨c, hc, hu⟩ := List.mem_flatMap.mp h
      intro x hx
      rw [values_node]
      exact List.mem_cons_of_mem _ (List.mem_flatMap.mpr ⟨c, hc, ih c hc hu x hx⟩)

/-! ## Two trees at once -/

/-- What two trees pass on to their children, in order, holds all along their walks. -/
theorem forall₂_walk {R : Tree α → Tree β → Prop}
    (down : ∀ t u, R t u → List.Forall₂ R t.children u.children) {t : Tree α} {u : Tree β}
    (h : R t u) : List.Forall₂ R t.walk u.walk := by
  induction t using ind generalizing u with
  | node v cs ih =>
    cases u with
    | node w ds =>
      have below : List.Forall₂ R cs ds := down _ _ h
      rw [walk_node, walk_node]
      refine .cons h ?_
      clear h
      induction below with
      | nil => exact .nil
      | cons first rest more =>
        rw [List.flatMap_cons, List.flatMap_cons]
        exact List.rel_append (ih _ (List.mem_cons_self ..) first)
          (more (fun c hc => ih c (List.mem_cons_of_mem _ hc)))

theorem sameShapes_iff {ts : List (Tree α)} {us : List (Tree β)} :
    sameShape.sameShapes ts us = true ↔ List.Forall₂ (fun t u => t.sameShape u = true) ts us := by
  induction ts generalizing us with
  | nil => cases us <;> simp [sameShape.sameShapes]
  | cons t ts ih => cases us <;> simp [sameShape.sameShapes, ih]

theorem sameShape_iff {t : Tree α} {u : Tree β} : t.sameShape u = true ↔
    List.Forall₂ (fun t u => t.sameShape u = true) t.children u.children := by
  cases t
  cases u
  rw [sameShape, sameShapes_iff]
  rfl

theorem mem_walk_of_find? {p : α → Bool} {t u : Tree α} (h : t.find? p = some u) : u ∈ t.walk :=
  List.mem_of_find?_eq_some h

end Handoff.Tree
