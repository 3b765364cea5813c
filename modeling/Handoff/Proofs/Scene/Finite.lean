import Handoff.Proofs.Tree
import Handoff.Scene.Document
/-!
# Scenes with finite numbers

A scene that was read from a text holds finite numbers only, as a text has no way to write any
other. The predicates below say so for each part of a scene.

Results: `Node.Finite.below`, `Document.Finite.resolve` (what is found in a finite scene is finite).
-/
namespace Handoff

structure Color.Finite (c : Color) : Prop where
  r : c.r.isFinite = true
  g : c.g.isFinite = true
  b : c.b.isFinite = true
  a : c.a.isFinite = true

structure Vector2.Finite (v : Vector2) : Prop where
  x : v.x.isFinite = true
  y : v.y.isFinite = true

structure Rect.Finite (r : Rect) : Prop where
  x : r.x.isFinite = true
  y : r.y.isFinite = true
  width : r.width.isFinite = true
  height : r.height.isFinite = true

structure ColorStop.Finite (s : ColorStop) : Prop where
  color : s.color.Finite
  position : s.position.isFinite = true

structure Paint.Finite (p : Paint) : Prop where
  color : ∀ c ∈ p.color, c.Finite
  opacity : ∀ x ∈ p.opacity, x.isFinite = true
  stops : ∀ s ∈ p.stops, s.Finite
  handles : ∀ v ∈ p.handles, v.Finite

structure Effect.Finite (e : Effect) : Prop where
  radius : e.radius.isFinite = true
  spread : ∀ x ∈ e.spread, x.isFinite = true
  offset : ∀ v ∈ e.offset, v.Finite
  color : ∀ c ∈ e.color, c.Finite

structure Typography.Finite (t : Typography) : Prop where
  size : ∀ x ∈ t.size, x.isFinite = true
  weight : ∀ x ∈ t.weight, x.isFinite = true
  lineHeight : ∀ x ∈ t.lineHeight, x.isFinite = true
  letterSpacing : ∀ x ∈ t.letterSpacing, x.isFinite = true
  fills : ∀ p ∈ t.fills, p.Finite

structure Layout.Finite (l : Layout) : Prop where
  spacing : ∀ x ∈ l.spacing, x.isFinite = true
  top : l.padding.top.isFinite = true
  right : l.padding.right.isFinite = true
  bottom : l.padding.bottom.isFinite = true
  left : l.padding.left.isFinite = true

/-- All numbers of a layer are finite. -/
structure Layer.Finite (l : Layer) : Prop where
  box : ∀ r ∈ l.box, r.Finite
  fills : ∀ p ∈ l.fills, p.Finite
  strokes : ∀ p ∈ l.strokes, p.Finite
  strokeWeight : ∀ x ∈ l.strokeWeight, x.isFinite = true
  effects : ∀ e ∈ l.effects, e.Finite
  typography : ∀ t ∈ l.typography, t.Finite
  layout : l.layout.Finite
  cornerRadius : ∀ x ∈ l.cornerRadius, x.isFinite = true
  opacity : ∀ x ∈ l.opacity, x.isFinite = true
  background : ∀ c ∈ l.background, c.Finite

/-- All numbers of a node and of those below it are finite. -/
def Node.Finite (n : Node) : Prop := ∀ l ∈ n.values, l.Finite

/-- All numbers of a document are finite. -/
def Document.Finite (d : Document) : Prop := Node.Finite d.root

theorem Node.Finite.root {layer : Layer} {children : List Node}
    (h : Node.Finite (.node layer children)) : layer.Finite := by
  apply h
  rw [Tree.values_node]
  exact List.mem_cons_self ..

theorem Node.Finite.child {layer : Layer} {children : List Node}
    (h : Node.Finite (.node layer children)) : ∀ c ∈ children, Node.Finite c := by
  intro c hc l hl
  apply h
  rw [Tree.values_node]
  exact List.mem_cons_of_mem _ (List.mem_flatMap.mpr ⟨c, hc, hl⟩)

/-- What stands below a finite node is finite. -/
theorem Node.Finite.below {n u : Node} (h : Node.Finite n) (hu : u ∈ n.walk) : Node.Finite u :=
  fun l hl => h l (Tree.values_subset_of_mem_walk hu l hl)

theorem Document.Finite.node? {d : Document} (h : d.Finite) {id : String} {n : Node}
    (found : d.node? id = some n) : Node.Finite n :=
  Node.Finite.below h (Tree.mem_walk_of_find? found)

/-- The node that a target of a finite document stands for is finite. -/
theorem Document.Finite.resolve {d : Document} (h : d.Finite) {target : String} {n : Node}
    (found : d.resolve target = .ok n) : Node.Finite n := by
  unfold Document.resolve at found
  split at found
  · next n' hit =>
    cases found
    exact h.node? hit
  · split at found
    · next id _ =>
      unfold Document.find at found
      split at found
      · next hit =>
        cases found
        exact h.node? hit
      · cases found
    · cases found

end Handoff
