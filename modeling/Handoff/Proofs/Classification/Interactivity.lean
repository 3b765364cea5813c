import Handoff.Proofs.Classification
import Handoff.Proofs.Text.Case
import Handoff.Proofs.Tree.Path
/-!
# Interactivity in a classification

Every node has its verdict in the place that the node has in the scene. A verdict calls a node
interactive if a keyword is found in its name or in one below it, both taken to lower case as a whole.
That is to look for the keyword in whatever case as long as names are simple; in a name with a capital
sigma a keyword may stand letter for letter and still not be found.

Results:
* `Keywords.matchesName_ofList_iff`: which names match.
* `Classifier.at?_classify`, `Classifier.isInteractive_classify_iff`: the verdict in each place.
* `Classifier.classify_interactive_iff`: shape, number and interactivity of all verdicts.
-/
namespace Handoff

/-- A name matches if in lower case it has a keyword of the list, in lower case, for a part. -/
theorem Keywords.matchesName_ofList_iff {words : List String} {name : String} :
    (ofList words).matchesName name = true ↔
      ∃ word ∈ words, (Text.lower word).toList <:+: (Text.lower name).toList := by
  rw [matchesName, firstMatch?, List.find?_isSome]
  simp only [ofList, Text.occursIn_iff, List.mem_map, exists_exists_and_eq_and]

namespace Classifier

variable (c : Classifier)

/-- The classification has the verdict on a node in the place of that node. -/
theorem at?_classify (n : Node) (path : List Nat) :
    (c.classify n).at? path = (n.at? path).map c.classify :=
  Tree.at?_of_children c.children_classify n path

theorem skeleton_classify (n : Node) : (c.classify n).skeleton = n.skeleton :=
  (Tree.sameShape_iff_skeleton.mp (c.sameShape_classify n)).symm

/-- A node is interactive if its name or one below it matches. -/
theorem isInteractive_classify_iff (n : Node) : (c.classify n).value.isInteractive = true ↔
    ∃ layer ∈ n.values, c.interactiveKeywords.matchesName layer.name = true := by
  induction n using Tree.ind with
  | node layer children ih =>
    have below : ((children.map c.classify).any fun t => t.value.isInteractive) = true ↔
        ∃ l ∈ children.flatMap Tree.values, c.interactiveKeywords.matchesName l.name = true := by
      simp only [List.any_map, List.any_eq_true, Function.comp_apply, List.mem_flatMap]
      constructor
      · rintro ⟨child, mem, interactive⟩
        obtain ⟨l, hl, named⟩ := (ih child mem).mp interactive
        exact ⟨l, ⟨child, mem, hl⟩, named⟩
      · rintro ⟨l, ⟨child, mem, hl⟩, named⟩
        exact ⟨child, mem, (ih child mem).mpr ⟨l, hl, named⟩⟩
    rw [classify, classifyAll_eq, Tree.values_node]
    simp only [List.mem_cons, exists_eq_or_imp, ← below]
    exact Bool.or_eq_true_iff

/-- A classification mirrors its scene and no tree of another shape, and has one verdict for every node
that the walk comes to. In every place, the verdict calls the node interactive if its name or one below
it holds a keyword once both are in lower case; where these names are simple, that is if one of them
holds a keyword in whatever case. -/
theorem classify_interactive_iff (c : Classifier) (words : List String) (n : Node) :
    let c : Classifier := { c with interactiveKeywords := .ofList words }
    (∀ m : Node, (c.classify n).sameShape m = true ↔ n.skeleton = m.skeleton) ∧
    (c.classify n).size = n.walk.length ∧
    ∀ path u, n.at? path = some u → ∃ v, (c.classify n).at? path = some v ∧
      (v.value.isInteractive = true ↔ ∃ layer ∈ u.values, ∃ word ∈ words,
        (Text.lower word).toList <:+: (Text.lower layer.name).toList) ∧
      ((∀ layer ∈ u.values, Text.Simple layer.name) →
        (v.value.isInteractive = true ↔ ∃ layer ∈ u.values, ∃ word ∈ words,
          Text.HoldsAnyCase word layer.name)) := by
  intro c
  refine ⟨fun m => ?_, ?_, fun path u leads => ⟨c.classify u, ?_, ?_⟩⟩
  · rw [Tree.sameShape_iff_skeleton, skeleton_classify]
  · rw [← Tree.size_skeleton, skeleton_classify, Tree.size_skeleton, Tree.length_walk]
  · rw [at?_classify, leads]
    rfl
  · have found : (c.classify u).value.isInteractive = true ↔ ∃ layer ∈ u.values, ∃ word ∈ words,
        (Text.lower word).toList <:+: (Text.lower layer.name).toList := by
      rw [isInteractive_classify_iff]
      exact exists_congr fun layer => and_congr_right fun _ => Keywords.matchesName_ofList_iff
    refine ⟨found, fun simple => found.trans ?_⟩
    refine exists_congr fun layer => and_congr_right fun mem => ?_
    exact exists_congr fun word => and_congr_right fun _ =>
      (Text.holdsAnyCase_iff (simple layer mem)).symm

def sumCell : Layer := { id := "2", name := "AutoΣCell", kind := .frame }

def lightPanel : Node :=
  .node { id := "3", name := "Panel", kind := .frame }
    [.leaf { id := "4", name := "Light ON", kind := .frame }]

def sumPage : Node :=
  .node { id := "1", name := "Sheet", kind := .frame } [.leaf sumCell, lightPanel]

/-- The cell holds a keyword letter for letter and is not interactive; the panel is, because of the
switch in it. -/
theorem classify_interactive_sumPage :
    let c : Classifier := { standard with interactiveKeywords := .ofList ["AutoΣ", "LIGHT"] }
    sumPage.at? [0] = some (.leaf sumCell) ∧ Text.HoldsAnyCase "AutoΣ" sumCell.name ∧
      (∃ v, (c.classify sumPage).at? [0] = some v ∧ v.value.isInteractive = false) ∧
      sumPage.at? [1] = some lightPanel ∧ (∀ layer ∈ lightPanel.values, Text.Simple layer.name) ∧
      ∃ v, (c.classify sumPage).at? [1] = some v ∧ v.value.isInteractive = true := by
  intro c
  obtain ⟨-, -, each⟩ := classify_interactive_iff standard ["AutoΣ", "LIGHT"] sumPage
  have cellValues : (Tree.leaf sumCell).values = [sumCell] := by
    rw [Tree.leaf, Tree.values_node]
    rfl
  have panelNames : lightPanel.values.map Layer.name = ["Panel", "Light ON"] := by
    rw [Tree.values, Tree.walk_eq_preorder]
    rfl
  have simple : ∀ layer ∈ lightPanel.values, Text.Simple layer.name := by
    rw [← List.forall_mem_map (P := Text.Simple), panelNames]
    decide
  refine ⟨rfl, Text.holdsAnyCase_of_infix (by decide), ?_, rfl, simple, ?_⟩
  · obtain ⟨v, there, found, -⟩ := each [0] (.leaf sumCell) rfl
    rw [cellValues] at found
    exact ⟨v, there, Bool.eq_false_iff.mpr fun interactive =>
      absurd (found.mp interactive) (by decide +kernel)⟩
  · obtain ⟨v, there, -, holds⟩ := each [1] lightPanel rfl
    have light : Text.HoldsAnyCase "LIGHT" "Light ON" :=
      ⟨"Light".toList, by decide, by decide +kernel⟩
    have named : "Light ON" ∈ lightPanel.values.map Layer.name := by
      rw [panelNames]
      decide
    obtain ⟨layer, mem, name⟩ := List.mem_map.mp named
    exact ⟨v, there, (holds simple).mpr ⟨layer, mem, "LIGHT", by decide, name ▸ light⟩⟩

end Classifier
end Handoff
