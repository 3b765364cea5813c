import Handoff.Proofs.Tree
import Mathlib.Data.Option.Basic
/-!
# Places in a tree

A path leads from the root of a tree to the child with each of its numbers in turn, the first child
having number zero. Paths are in the order of a dictionary: a node comes before what is below it, and
what is below one child before what is below the next.

Results:
* `map_at?_paths`, `pairwise_paths`, `mem_paths_iff`: the walk goes over the paths of a tree in order, and
  over each of them once.
* `at?_of_children`: what is made from a tree level by level is made from each of its subtrees in place.
* `sameShape_iff_skeleton`: trees are compared by their shapes.
* `anyDescendant_iff`: what is tested below the root.
-/
namespace Handoff.Tree

variable {α β : Type}

/-- The subtree that a path leads to, if it leads to one. -/
def at? : Tree α → List Nat → Option (Tree α)
  | t, [] => some t
  | t, i :: path => t.children[i]?.bind fun c => c.at? path

/-- The paths that lead to a node of a tree. -/
def paths : Tree α → List (List Nat)
  | .node _ cs => [] :: pathsFrom 0 cs
where
  pathsFrom (i : Nat) : List (Tree α) → List (List Nat)
    | [] => []
    | c :: cs => (paths c).map (i :: ·) ++ pathsFrom (i + 1) cs

theorem at?_node_cons (v : α) (cs : List (Tree α)) (i : Nat) (path : List Nat) :
    (node v cs).at? (i :: path) = cs[i]?.bind fun c => c.at? path := rfl

theorem map_at?_pathsFrom {cs : List (Tree α)} (each : ∀ c ∈ cs, c.paths.map c.at? = c.walk.map some)
    (v : α) (before : List (Tree α)) :
    (paths.pathsFrom before.length cs).map (node v (before ++ cs)).at? =
      (cs.flatMap walk).map some := by
  induction cs generalizing before with
  | nil => rfl
  | cons c cs ih =>
    have first : (c.paths.map (before.length :: ·)).map (node v (before ++ c :: cs)).at? =
        c.walk.map some := by
      rw [← each c (List.mem_cons_self ..), List.map_map]
      refine List.map_congr_left fun path _ => ?_
      rw [Function.comp_apply, at?_node_cons, List.getElem?_append_right (Nat.le_refl _),
        Nat.sub_self]
      rfl
    have rest := ih (fun d hd => each d (List.mem_cons_of_mem _ hd)) (before ++ [c])
    rw [List.length_append, List.length_singleton, List.append_assoc] at rest
    rw [paths.pathsFrom, List.map_append, List.flatMap_cons, List.map_append, first]
    exact congrArg _ rest

/-- The walk comes to the subtrees in the order of their paths. -/
theorem map_at?_paths (t : Tree α) : t.paths.map t.at? = t.walk.map some := by
  induction t using ind with
  | node v cs ih =>
    rw [paths, walk_node, List.map_cons, List.map_cons]
    exact congrArg _ (map_at?_pathsFrom ih v [])

theorem mem_pathsFrom_iff {cs : List (Tree α)} {i : Nat} {path : List Nat} :
    path ∈ paths.pathsFrom i cs ↔
      ∃ j c below, cs[j]? = some c ∧ below ∈ c.paths ∧ path = (i + j) :: below := by
  induction cs generalizing i with
  | nil => simp [paths.pathsFrom]
  | cons c cs ih =>
    rw [paths.pathsFrom, List.mem_append, List.mem_map, ih]
    constructor
    · rintro (⟨below, mem, rfl⟩ | ⟨j, d, below, child, mem, rfl⟩)
      · exact ⟨0, c, below, rfl, mem, rfl⟩
      · exact ⟨j + 1, d, below, child, mem, by rw [Nat.add_right_comm, Nat.add_assoc]⟩
    · rintro ⟨j, d, below, child, mem, rfl⟩
      cases j with
      | zero =>
        cases child
        exact .inl ⟨below, mem, rfl⟩
      | succ j => exact .inr ⟨j, d, below, child, mem, by rw [Nat.add_right_comm, Nat.add_assoc]⟩

/-- The paths of a tree are those that lead somewhere. -/
theorem mem_paths_iff {t : Tree α} {path : List Nat} : path ∈ t.paths ↔ (t.at? path).isSome = true := by
  induction path generalizing t with
  | nil => cases t; simp [paths, at?]
  | cons i path ih =>
    cases t with
    | node v cs =>
      rw [paths, List.mem_cons, mem_pathsFrom_iff, at?_node_cons]
      constructor
      · rintro (root | ⟨j, c, below, child, mem, same⟩)
        · cases root
        · rw [Nat.zero_add] at same
          cases same
          rw [child]
          exact ih.mp mem
      · intro leads
        cases child : cs[i]? with
        | none =>
          rw [child] at leads
          cases leads
        | some c =>
          rw [child] at leads
          exact .inr ⟨i, c, path, child, ih.mpr leads, by rw [Nat.zero_add]⟩

theorem pairwise_pathsFrom {cs : List (Tree α)} (each : ∀ c ∈ cs, c.paths.Pairwise (· < ·)) (i : Nat) :
    (paths.pathsFrom i cs).Pairwise (· < ·) := by
  induction cs generalizing i with
  | nil => exact .nil
  | cons c cs ih =>
    rw [List.forall_mem_cons] at each
    rw [paths.pathsFrom, List.pairwise_append, List.pairwise_map]
    refine ⟨each.1.imp fun lt => ?_, ih each.2 (i + 1), ?_⟩
    · exact List.cons_lt_cons_iff.mpr (.inr ⟨rfl, lt⟩)
    · intro a ha b hb
      obtain ⟨first, -, rfl⟩ := List.mem_map.mp ha
      obtain ⟨j, -, below, -, -, rfl⟩ := mem_pathsFrom_iff.mp hb
      exact List.cons_lt_cons_iff.mpr (.inl (by omega))

/-- The paths of a tree are in order, so that none comes twice. -/
theorem pairwise_paths (t : Tree α) : t.paths.Pairwise (· < ·) := by
  induction t using ind with
  | node v cs ih =>
    rw [paths, List.pairwise_cons]
    refine ⟨fun path mem => ?_, pairwise_pathsFrom ih 0⟩
    obtain ⟨j, -, below, -, -, rfl⟩ := mem_pathsFrom_iff.mp mem
    exact List.nil_lt_cons ..

/-- What is made from a tree level by level is made from each of its subtrees, in place. -/
theorem at?_of_children {f : Tree α → Tree β} (down : ∀ t, (f t).children = t.children.map f)
    (t : Tree α) (path : List Nat) : (f t).at? path = (t.at? path).map f := by
  induction path generalizing t with
  | nil => rfl
  | cons i path ih =>
    rw [at?, at?, down, List.getElem?_map]
    cases t.children[i]? with
    | none => rfl
    | some c => exact ih c

theorem paths_map (f : α → β) (t : Tree α) : (t.map f).paths = t.paths := by
  induction t using ind with
  | node v cs ih =>
    have below (i : Nat) : paths.pathsFrom i (cs.map (map f)) = paths.pathsFrom i cs := by
      induction cs generalizing i with
      | nil => rfl
      | cons c cs more =>
        rw [List.forall_mem_cons] at ih
        rw [List.map_cons, paths.pathsFrom, paths.pathsFrom, ih.1, more ih.2]
    rw [map_node, paths, paths, below]

/-! ## Shapes -/

/-- The shape of a tree: what is left of it when nodes carry nothing. -/
def skeleton (t : Tree α) : Tree Unit := t.map fun _ => ()

theorem forall₂_sameShape_iff {cs : List (Tree α)} {ds : List (Tree β)}
    (each : ∀ c ∈ cs, ∀ d : Tree β, c.sameShape d = true ↔ c.skeleton = d.skeleton) :
    List.Forall₂ (fun c d => c.sameShape d = true) cs ds ↔ cs.map skeleton = ds.map skeleton := by
  induction cs generalizing ds with
  | nil => cases ds <;> simp
  | cons c cs ih =>
    rw [List.forall_mem_cons] at each
    cases ds with
    | nil => simp
    | cons d ds =>
      rw [List.forall₂_cons, each.1, ih each.2, List.map_cons, List.map_cons, List.cons.injEq]

/-- Trees are compared by their shapes. -/
theorem sameShape_iff_skeleton {t : Tree α} {u : Tree β} :
    t.sameShape u = true ↔ t.skeleton = u.skeleton := by
  induction t using ind generalizing u with
  | node v cs ih =>
    cases u with
    | node w ds =>
      have below : List.Forall₂ (fun c d => c.sameShape d = true) cs ds ↔
          cs.map skeleton = ds.map skeleton := forall₂_sameShape_iff fun c hc d => ih c hc
      rw [sameShape_iff, skeleton, skeleton, map_node, map_node, node.injEq]
      exact below.trans (and_iff_right rfl).symm

theorem size_skeleton (t : Tree α) : t.skeleton.size = t.size := by
  rw [← length_walk, ← length_walk, skeleton, walk_map, List.length_map]

/-! ## Below the root -/

theorem descendantCount_add_one (t : Tree α) : t.descendantCount + 1 = t.size := by
  have filled : 0 < t.walk.length := List.length_pos_of_mem t.mem_walk_self
  rw [descendantCount, ← length_walk]
  omega

theorem mem_drop_walk_iff {t u : Tree α} :
    u ∈ t.walk.drop 1 ↔ ∃ path, path ≠ [] ∧ t.at? path = some u := by
  cases t with
  | node v cs =>
    have places : (paths.pathsFrom 0 cs).map (node v cs).at? = (cs.flatMap walk).map some :=
      map_at?_pathsFrom (fun c _ => map_at?_paths c) v []
    rw [walk_node, List.drop_succ_cons, List.drop_zero,
      ← List.mem_map_of_injective (Option.some_injective _), ← places, List.mem_map]
    constructor
    · rintro ⟨path, mem, leads⟩
      obtain ⟨j, c, below, -, -, rfl⟩ := mem_pathsFrom_iff.mp mem
      exact ⟨_, List.cons_ne_nil _ _, leads⟩
    · rintro ⟨path, below, leads⟩
      have mem : path ∈ (node v cs).paths := mem_paths_iff.mpr (by rw [leads]; rfl)
      rw [paths, List.mem_cons] at mem
      exact ⟨path, mem.resolve_left below, leads⟩

/-- Whether some node below the root satisfies a condition does not depend on the root. -/
theorem anyDescendant_iff {p : Tree α → Bool} {t : Tree α} : t.anyDescendant p = true ↔
    ∃ path u, path ≠ [] ∧ t.at? path = some u ∧ p u = true := by
  rw [anyDescendant, List.any_eq_true]
  constructor
  · rintro ⟨u, mem, holds⟩
    obtain ⟨path, below, leads⟩ := mem_drop_walk_iff.mp mem
    exact ⟨path, u, below, leads, holds⟩
  · rintro ⟨path, u, below, leads, holds⟩
    exact ⟨u, mem_drop_walk_iff.mpr ⟨path, below, leads⟩, holds⟩

end Handoff.Tree
