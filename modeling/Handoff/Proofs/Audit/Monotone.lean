import Handoff.Audit.Auditor
import Handoff.Proofs.Classification
import Handoff.Proofs.Tree
import Mathlib.Algebra.GroupWithZero.Nat
import Mathlib.Algebra.Order.BigOperators.Group.List
import Mathlib.Algebra.Order.Group.Nat
import Mathlib.Data.List.Flatten
import Mathlib.Tactic.Tauto
/-!
# Audits of growing scenes

A scene grows when a tree is appended to the children of one of its nodes. What the audit found
before is found again: the walk reaches every old node in its old order, and the check of the
component as a whole cannot be met by what was added, unless that brings a text of its own.

Results:
* `Tree.Grows.values_sublist`: a grown tree carries what it carried, in order, among other things.
* `Auditor.issues_sublist`: the issues of a scene are among those of the grown one, in order.
* `Auditor.score_eq_sub_penaltySum`, `Auditor.score_le_of_sublist`: what the score is, and that it does
  not rise with more issues.
* `Auditor.tier_rank_le`: more issues and a lower score never give a better tier.
* `Auditor.audit_monotone`: issues, score and tier of a scene and of the scene grown.
-/
namespace Handoff

open List

/-! ## Growing -/

namespace Tree

variable {α : Type}

/-- The second tree is the first with a tree appended to the children of one node. -/
inductive Grows (added : Tree α) : Tree α → Tree α → Prop where
  | here (v : α) (cs : List (Tree α)) : Grows added (.node v cs) (.node v (cs ++ [added]))
  | deeper {t u : Tree α} (v : α) (before after : List (Tree α)) (inside : Grows added t u) :
    Grows added (.node v (before ++ t :: after)) (.node v (before ++ u :: after))

namespace Grows

variable {added t u : Tree α}

theorem value_eq (grows : Grows added t u) : u.value = t.value := by
  cases grows <;> rfl

theorem children_ne_nil (grows : Grows added t u) (h : t.children ≠ []) : u.children ≠ [] := by
  cases grows <;> simp [children]

theorem values_sublist (grows : Grows added t u) : t.values <+ u.values := by
  induction grows with
  | here v cs =>
    rw [values_node, values_node, flatMap_append]
    exact (sublist_append_left ..).cons_cons v
  | deeper v before after _ ih =>
    simp only [values_node, flatMap_append, flatMap_cons]
    exact ((Sublist.refl _).append (ih.append (Sublist.refl _))).cons_cons v

theorem mem_values (grows : Grows added t u) {x : α} (h : x ∈ u.values) :
    x ∈ t.values ∨ x ∈ added.values := by
  induction grows with
  | here v cs =>
    simp only [values_node, flatMap_append, flatMap_cons, flatMap_nil, mem_cons, mem_append] at h ⊢
    tauto
  | deeper v before after _ ih =>
    simp only [values_node, flatMap_append, flatMap_cons, mem_cons, mem_append] at h ⊢
    tauto

/-- A condition that nothing added meets is met by the grown tree as it was before. -/
theorem any_eq (grows : Grows added t u) {p : α → Bool} (h : ∀ x ∈ added.values, p x = false) :
    u.any p = t.any p := by
  rw [Bool.eq_iff_iff, any, any, any_eq_true, any_eq_true]
  constructor
  · rintro ⟨x, hx, px⟩
    rcases grows.mem_values hx with old | new
    · exact ⟨x, old, px⟩
    · rw [h x new] at px
      cases px
  · rintro ⟨x, hx, px⟩
    exact ⟨x, grows.values_sublist.subset hx, px⟩

end Grows

end Tree

/-! ## Categories -/

namespace Classifier

theorem category_classify (c : Classifier) (node : Node) : (c.classify node).value.category =
    (c.categoryOfName? node.value.name).getD
      (c.categoryOfShape node.value node.children.length) := by
  cases node
  rfl

end Classifier

namespace Auditor

variable {added node grown : Node}

/-- No check of a component is made for a category that only its shape tells. -/
theorem componentIssues_categoryOfShape (c : Classifier) (node : Node) (layer : Layer) (n : Nat) :
    componentIssues node (c.categoryOfShape layer n) = [] := by
  unfold Classifier.categoryOfShape
  split
  · rfl
  · split <;> rfl

/-- What is missing from a component is missing from the grown one, if it is used for the same. -/
theorem componentIssues_sublist (grows : Tree.Grows added node grown)
    (silent : ∀ l ∈ added.values, l.text? = none) (category : Category) :
    componentIssues node category <+ componentIssues grown category := by
  unfold componentIssues
  rw [grows.value_eq]
  cases category with
  | button =>
    have same : (grown.any fun l => l.text?.isSome) = node.any fun l => l.text?.isSome :=
      grows.any_eq fun l hl => by rw [silent l hl]; rfl
    simp only [same]
    exact Sublist.refl _
  | card =>
    by_cases childless : node.children = []
    · simp [childless]
    · simp [childless, grows.children_ne_nil childless]
  | text | input | layout | image | icon | complex => exact Sublist.refl _

/-- What the classifier makes of a node may change as it grows, but then nothing was missing. -/
theorem componentIssues_classify_sublist (c : Classifier) (grows : Tree.Grows added node grown)
    (silent : ∀ l ∈ added.values, l.text? = none) :
    componentIssues node (c.classify node).value.category <+
      componentIssues grown (c.classify grown).value.category := by
  rw [c.category_classify, c.category_classify, grows.value_eq]
  cases c.categoryOfName? node.value.name with
  | some category => exact componentIssues_sublist grows silent category
  | none =>
    simp only [Option.getD_none, componentIssues_categoryOfShape]
    exact Sublist.refl _

/-! ## Issues, score and tier -/

theorem issues_sublist (a : Auditor) (c : Classifier) (grows : Tree.Grows added node grown)
    (silent : ∀ l ∈ added.values, l.text? = none) :
    a.issues node (c.classify node).value.category <+
      a.issues grown (c.classify grown).value.category :=
  (grows.values_sublist.flatMap _).append (componentIssues_classify_sublist c grows silent)

/-- What the penalties of issues come to, whether or not a word holds it. -/
def penaltySum (a : Auditor) (profile : AuditProfile) (issues : List Issue) : Nat :=
  (issues.map fun i => ((a.penalties profile).of i.severity).toNat).sum

theorem toNat_deduction (a : Auditor) (profile : AuditProfile) (issues : List Issue) :
    (a.deduction profile issues).toNat = a.penaltySum profile issues % 2 ^ 32 := by
  -- The induction is on the issues still to come, from any total so far.
  have from_total (total : UInt32) :
      (issues.foldl (fun total i => total + (a.penalties profile).of i.severity) total).toNat =
        (total.toNat + a.penaltySum profile issues) % 2 ^ 32 := by
    induction issues generalizing total with
    | nil => exact (Nat.mod_eq_of_lt total.toNat_lt).symm
    | cons i rest ih =>
      have sum : a.penaltySum profile (i :: rest) =
          ((a.penalties profile).of i.severity).toNat + a.penaltySum profile rest := sum_cons
      rw [foldl_cons, ih, UInt32.toNat_add, sum, Nat.mod_add_mod, Nat.add_assoc]
  rw [deduction, from_total]
  exact congrArg (· % 2 ^ 32) (Nat.zero_add _)

/-- The score is what the penalties leave of a hundred, as long as a word holds their sum. -/
theorem score_eq_sub_penaltySum {a : Auditor} {profile : AuditProfile} {issues : List Issue}
    (fits : a.penaltySum profile issues < 2 ^ 32) :
    a.score profile issues = 100 - a.penaltySum profile issues := by
  rw [score, toNat_deduction, Nat.mod_eq_of_lt fits]

theorem penaltySum_le_of_sublist (a : Auditor) (profile : AuditProfile) {before after : List Issue}
    (h : before <+ after) : a.penaltySum profile before ≤ a.penaltySum profile after :=
  (h.map _).sum_le_sum fun _ _ => Nat.zero_le _

theorem score_le_of_sublist {a : Auditor} {profile : AuditProfile} {before after : List Issue}
    (h : before <+ after) (fits : a.penaltySum profile after < 2 ^ 32) :
    a.score profile after ≤ a.score profile before := by
  have sums := a.penaltySum_le_of_sublist profile h
  rw [score_eq_sub_penaltySum fits, score_eq_sub_penaltySum (sums.trans_lt fits)]
  omega

theorem score_le (a : Auditor) (profile : AuditProfile) (issues : List Issue) :
    a.score profile issues ≤ 100 :=
  Nat.sub_le ..

end Auditor

/-- How good a tier is: a profile has one lowest tier, whatever that is called. -/
def Tier.rank : Tier → Nat
  | .aaa => 2
  | .aa => 1
  | .a | .nonCompliant => 0

namespace Auditor

/-- The tier is the lowest for a critical issue or a very low score, the middle one for an issue of
high severity or a low score, and the highest otherwise. -/
theorem tier_rank (a : Auditor) (profile : AuditProfile) (issues : List Issue) (score : Nat) :
    (a.tier profile issues score).rank =
      if (∃ i ∈ issues, i.severity = .critical) ∨ score < a.lowestTierBelow then 0
      else if (∃ i ∈ issues, i.severity = .high) ∨ score < a.aaBelow then 1
      else 2 := by
  unfold tier
  simp only [Bool.or_eq_true, any_eq_true, beq_iff_eq, decide_eq_true_eq]
  split
  · cases profile <;> rfl
  · split <;> rfl

theorem tier_rank_le (a : Auditor) (profile : AuditProfile) {before after : List Issue}
    {high low : Nat} (issues : before <+ after) (scores : low ≤ high) :
    (a.tier profile after low).rank ≤ (a.tier profile before high).rank := by
  have worse (s : Severity) (bound : Nat)
      (h : (∃ i ∈ before, i.severity = s) ∨ high < bound) :
      (∃ i ∈ after, i.severity = s) ∨ low < bound := by
    rcases h with ⟨i, hi, eq⟩ | h
    · exact .inl ⟨i, issues.subset hi, eq⟩
    · exact .inr (by omega)
  rw [tier_rank, tier_rank]
  by_cases lowest : (∃ i ∈ before, i.severity = .critical) ∨ high < a.lowestTierBelow
  · rw [if_pos lowest, if_pos (worse _ _ lowest)]
  · rw [if_neg lowest]
    by_cases middle : (∃ i ∈ before, i.severity = .high) ∨ high < a.aaBelow
    · rw [if_pos middle, if_pos (worse _ _ middle)]
      split <;> omega
    · rw [if_neg middle]
      split
      · omega
      · split <;> omega

/-- A tree without a text of its own, appended to the children of any node of a scene, takes no issue
away: the issues found before are found again in their order, the score does not rise, and the tier
gets no better. This is so for every classifier, every auditor and either profile, whatever markup
the two scenes are rendered to, as long as a word holds the sum of all penalties. -/
theorem audit_monotone (a : Auditor) (c : Classifier) (profile : AuditProfile)
    (grows : Tree.Grows added node grown) (silent : ∀ l ∈ added.values, l.text? = none)
    (fits : a.penaltySum profile (a.issues grown (c.classify grown).value.category) < 2 ^ 32)
    (markup grownMarkup : String) :
    let before := a.audit node (c.classify node).value.category markup profile
    let after := a.audit grown (c.classify grown).value.category grownMarkup profile
    before.issues <+ after.issues ∧ after.score ≤ before.score ∧
      after.tier.rank ≤ before.tier.rank ∧ before.score ≤ 100 ∧ after.score ≤ 100 := by
  have issues := a.issues_sublist c grows silent
  have scores := score_le_of_sublist issues fits
  exact ⟨issues, scores, a.tier_rank_le profile issues scores, a.score_le .., a.score_le ..⟩

/-- A photo in the group of a panel. -/
theorem audit_monotone_photo :
    let photo := Node.named "3" "Photo" .rectangle
    let scene (group : Node) := Node.withChildren (.named "1" "Panel" .frame) [group]
    let empty := scene (.named "2" "Group" .group)
    let full := scene (Node.withChildren (.named "2" "Group" .group) [photo])
    let audit (node : Node) :=
      standard.audit node (Classifier.standard.classify node).value.category "" .full
    Tree.Grows photo empty full ∧ (∀ l ∈ photo.values, l.text? = none) ∧
      standard.penaltySum .full (audit full).issues < 2 ^ 32 ∧
      (audit empty).issues <+ (audit full).issues ∧ (audit full).score ≤ (audit empty).score ∧
      (audit full).tier.rank ≤ (audit empty).tier.rank ∧ (audit empty).score ≤ 100 ∧
      (audit full).score ≤ 100 := by
  intro photo scene empty full audit
  have grows : Tree.Grows photo empty full := .deeper _ [] [] (.here _ [])
  have silent : ∀ l ∈ photo.values, l.text? = none := by
    intro l hl
    rw [show photo.values = [photo.value] from Tree.values_node _ [], mem_singleton] at hl
    rw [hl]
    rfl
  have fits : standard.penaltySum .full (audit full).issues < 2 ^ 32 := by decide +kernel
  exact ⟨grows, silent, fits,
    audit_monotone standard Classifier.standard .full grows silent fits "" ""⟩

end Auditor
end Handoff
