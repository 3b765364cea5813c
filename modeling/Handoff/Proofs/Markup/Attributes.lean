import Handoff.Proofs.Markup.Mirror
/-!
# Attributes in the text of an element

Every element below another one has its own line in the text of the whole, and its attributes stand in
that line as they are spelled. Tags do not matter for that, as long as no element without content has
children.

Results:
* `Element.exists_mem_walk_ofNode`: every node has its element.
* `Element.infix_render`: the attributes of every element stand in the text of the whole.
-/
namespace Handoff

theorem ElementHead.infix_opening {h : ElementHead} {a : Attribute} (mem : a ∈ h.attributes)
    {d : MarkupDialect} {text : String} (spelled : a.render d = some text) :
    text.toList <:+: (h.opening d).toList := by
  have carried : ' ' :: text.toList <:+: h.attributeText d := by
    refine List.infix_of_mem_flatten (List.mem_map.mpr ⟨text, ?_, rfl⟩)
    exact List.mem_filterMap.mpr ⟨a, mem, spelled⟩
  rw [toList_opening]
  refine (List.suffix_cons ' ' _).isInfix.trans (carried.trans ?_)
  exact ((List.suffix_append _ _).trans (List.suffix_cons _ _)).isInfix

theorem ElementHead.opening_prefix_line (h : ElementHead) (d : MarkupDialect) :
    (h.opening d).toList <+: (h.line d).toList := by
  unfold line
  dsimp only
  split
  · rw [String.toList_append]
    exact List.prefix_append _ _
  · split
    · simp only [String.toList_append, List.append_assoc]
      exact List.prefix_append _ _
    · split
      · simp only [String.toList_append, List.append_assoc]
        exact List.prefix_append _ _
      · rw [String.toList_append]
        exact List.prefix_append _ _

namespace Element

/-- Every node of a styled tree has its element in a built one. -/
theorem exists_mem_walk_ofNode {tags : TagTable} {optimizeImages : Bool} {classOf : ClassAssignment}
    {place : Place} {inside : Bool} {root n : Styled} (h : n ∈ root.walk) :
    ∃ u ∈ (ofNode tags optimizeImages classOf place inside root).walk,
      ∃ place inside, u = ofNode tags optimizeImages classOf place inside n := by
  obtain ⟨i, bound, rfl⟩ := List.mem_iff_getElem.mp h
  have along : List.Forall₂ (fun n e => ∃ place inside,
      e = ofNode tags optimizeImages classOf place inside n) root.walk
      (ofNode tags optimizeImages classOf place inside root).walk := forall₂_walk_ofNode place inside root
  obtain ⟨same, made⟩ := List.forall₂_iff_get.mp along
  exact ⟨_, List.getElem_mem (same ▸ bound), made i bound (same ▸ bound)⟩

/-- The opening of every element below stands in some line, if elements without content have no
children. -/
theorem exists_line_of_mem_walk {d : MarkupDialect} {e : Element}
    (leaf : ∀ u ∈ e.walk, Tag.isVoid u.value.tag = true → u.children = []) (column : Nat) {u : Element}
    (mem : u ∈ e.walk) : ∃ line ∈ e.lines d column, (u.value.opening d).toList <:+: line.toList := by
  induction e using Tree.ind generalizing column with
  | node h children ih =>
    rw [Tree.walk_node, List.forall_mem_cons] at leaf
    rw [Tree.walk_node, List.mem_cons] at mem
    rw [lines]
    by_cases single : (Tag.isVoid h.tag || children.isEmpty) = true
    · have childless : children = [] := by
        rcases Bool.or_eq_true_iff.mp single with void | empty
        · exact leaf.1 void
        · exact List.isEmpty_iff.mp empty
      rw [childless, List.flatMap_nil, or_iff_left List.not_mem_nil] at mem
      rw [if_pos single, mem]
      refine ⟨_, List.mem_singleton_self _, ?_⟩
      rw [String.toList_append]
      exact (h.opening_prefix_line d).isInfix.trans (List.suffix_append _ _).isInfix
    · rw [if_neg single, linesAll_eq]
      rcases mem with rfl | below
      · refine ⟨Text.spaces column ++ h.opening d ++ ">", by simp, ?_⟩
        rw [String.toList_append, String.toList_append]
        exact ⟨_, _, rfl⟩
      · obtain ⟨c, hc, hu⟩ := List.mem_flatMap.mp below
        obtain ⟨line, hl, found⟩ := ih c hc (fun v hv => leaf.2 v (List.mem_flatMap.mpr ⟨c, hc, hv⟩))
          (column + 2) hu
        refine ⟨line, ?_, found⟩
        simp only [List.mem_append, List.mem_cons, List.mem_flatMap]
        exact .inl (.inr ⟨c, hc, hl⟩)

theorem line_infix_render {d : MarkupDialect} {column : Nat} {e : Element} {line : String}
    (mem : line ∈ e.lines d column) : line.toList <:+: (e.render d column).toList := by
  obtain ⟨first, rest, eq⟩ := exists_lines d column e
  rw [render, eq, toList_intercalate_lines]
  rw [eq, List.mem_cons] at mem
  rcases mem with rfl | later
  · exact (List.prefix_append _ _).isInfix
  · have broken' : '\n' :: line.toList <:+: broken rest :=
      List.infix_of_mem_flatten (List.mem_map.mpr ⟨line, later, rfl⟩)
    exact (List.suffix_cons _ _).isInfix.trans (broken'.trans (List.suffix_append _ _).isInfix)

/-- The attributes of every element stand in the text of the whole. -/
theorem infix_render {d : MarkupDialect} {e : Element}
    (leaf : ∀ u ∈ e.walk, Tag.isVoid u.value.tag = true → u.children = []) (column : Nat) {u : Element}
    (mem : u ∈ e.walk) {a : Attribute} (carried : a ∈ u.value.attributes) {text : String}
    (spelled : a.render d = some text) : text.toList <:+: (e.render d column).toList := by
  obtain ⟨line, hl, found⟩ := exists_line_of_mem_walk leaf column mem
  exact (ElementHead.infix_opening carried spelled).trans (found.trans (line_infix_render hl))

end Element

end Handoff
