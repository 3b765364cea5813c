import Handoff.Audit.Report
import Handoff.Audit.ButtonRole
import Handoff.Classification
import Handoff.Text.Blank
/-!
# Accessibility audits

Every node of a component is held to the rules, in the order of the walk; the component as a whole
is then checked for what it is used for. Each issue takes its penalty off the score.
-/
namespace Handoff

/-- Keywords, bounds, penalties and texts of an audit. -/
structure Auditor where
  interactiveKeywords : Keywords
  headingKeywords : Keywords
  /-- Names of heading levels, which count as whole words only. -/
  headingLevels : Keywords
  imageKeywords : Keywords
  /-- The least contrast of a fill and a stroke. -/
  minContrast : Float
  fullPenalties : Penalties
  simplifiedPenalties : Penalties
  /-- A score below this is in the lowest tier. -/
  lowestTierBelow : Nat
  /-- A score below this is not in the highest tier. -/
  aaBelow : Nat
  generalSuggestions : List String
  categorySuggestions : List (Category × List String)
deriving Inhabited

namespace Auditor

/-- The audit in use unless another is given. -/
def standard : Auditor where
  interactiveKeywords := Keywords.interactive
  headingKeywords := .ofList ["heading", "title"]
  headingLevels := .ofList ["h1", "h2", "h3", "h4", "h5", "h6"]
  imageKeywords := .ofList ["image", "img", "photo", "avatar"]
  minContrast := 4.5
  fullPenalties := ⟨20, 15, 10, 5⟩
  simplifiedPenalties := ⟨15, 15, 10, 0⟩
  lowestTierBelow := 60
  aaBelow := 80
  generalSuggestions := [
    "Test the component with a screen reader",
    "Verify every interactive element is reachable with the keyboard"]
  categorySuggestions := [
    (.button, ["Give the button an accessible name that describes its action"]),
    (.input, [
      "Associate the input with a visible <label>",
      "Announce validation errors with aria-describedby"]),
    (.image, ["Describe the image content in its alt text"]),
    (.card, ["Use a heading inside the card so it can be navigated by outline"])]

def penalties (a : Auditor) : AuditProfile → Penalties
  | .full => a.fullPenalties
  | .simplified => a.simplifiedPenalties

def elementOf (l : Layer) : String :=
  if Text.isBlankText l.name then l.id else l.name

/-! ## Rules -/

/-- The first solid fill and the first solid stroke shown have to differ enough. -/
def contrastIssue? (a : Auditor) (l : Layer) : Option Issue := do
  let fill ← Paint.firstSolid? l.fills
  let stroke ← Paint.firstSolid? l.strokes
  let ratio := fill.contrast stroke
  if ratio ≥ a.minContrast then none
  else some {
    severity := .high
    message := "Insufficient color contrast (" ++ Number.fixed 2 ratio ++
      ":1) between fill and stroke"
    element := elementOf l
    fix := "Increase the contrast ratio to at least " ++
      Number.Spelling.plain.text a.minContrast ++ ":1"
    rule := some .colorContrast }

/-- What looks interactive needs a focus that can be seen. -/
def focusIssue? (a : Auditor) (l : Layer) : Option Issue :=
  if a.interactiveKeywords.matchesName l.name then some {
    severity := .medium
    message := "Interactive element needs a visible focus indicator"
    element := elementOf l
    fix := "Add :focus-visible styles and keep the element reachable by keyboard"
    rule := some .focusManagement }
  else none

/-- A text that reads like a heading should be one. -/
def headingIssue? (a : Auditor) (l : Layer) : Option Issue :=
  if l.isText && (a.headingKeywords.matchesName l.name || a.headingLevels.matchesWord l.name) then
    some {
      severity := .low
      message := "Text looks like a heading but may not use heading markup"
      element := elementOf l
      fix := "Use an h1-h6 element that fits the document outline"
      rule := some .semanticStructure }
  else none

/-- An image needs a text in its place. -/
def imageIssue? (a : Auditor) (l : Layer) : Option Issue :=
  if l.hasImageFill || a.imageKeywords.matchesName l.name then some {
    severity := .critical
    message := "Image is missing alternative text"
    element := elementOf l
    fix := "Provide a descriptive alt attribute, or alt=\"\" for decorative images"
    rule := some .altText }
  else none

/-- What a rule finds at a node. -/
def issue? (a : Auditor) (l : Layer) : RuleId → Option Issue
  | .colorContrast => a.contrastIssue? l
  | .focusManagement => a.focusIssue? l
  | .semanticStructure => a.headingIssue? l
  | .altText => a.imageIssue? l

def issuesAt (a : Auditor) (l : Layer) : List Issue :=
  RuleId.all.filterMap (a.issue? l)

/-! ## Components -/

/-- What is missing from a component as a whole. -/
def componentIssues (node : Node) (category : Category) : List Issue :=
  let element := elementOf node.value
  match category with
  | .button =>
    if node.any fun l => l.text?.isSome then []
    else [{
      severity := .high
      message := "Button lacks descriptive text"
      element
      fix := "Add a visible label or an aria-label"
      rule := none }]
  | .input => [{
      severity := .medium
      message := "Input needs an associated label"
      element
      fix := "Connect a <label> through the for/id pair or aria-labelledby"
      rule := none }]
  | .card =>
    if node.children.isEmpty then []
    else [{
      severity := .low
      message := "Card content could be exposed as a landmark"
      element
      fix := "Wrap the card in <article> or give it role=\"region\" with a label"
      rule := none }]
  | _ => []

/-- All issues of a component. -/
def issues (a : Auditor) (node : Node) (category : Category) : List Issue :=
  node.values.flatMap a.issuesAt ++ componentIssues node category

/-- What the penalties of issues come to, as a word: past the last one the sum starts again at 0. -/
def deduction (a : Auditor) (profile : AuditProfile) (issues : List Issue) : UInt32 :=
  issues.foldl (fun total i => total + (a.penalties profile).of i.severity) 0

/-- The score that issues leave. -/
def score (a : Auditor) (profile : AuditProfile) (issues : List Issue) : Nat :=
  100 - (a.deduction profile issues).toNat

/-- The tier of a score, given the issues. It depends on severities and not on labels. -/
def tier (a : Auditor) (profile : AuditProfile) (issues : List Issue) (score : Nat) : Tier :=
  let any (s : Severity) := issues.any fun i => i.severity == s
  if any .critical || score < a.lowestTierBelow then
    match profile with
    | .full => .a
    | .simplified => .nonCompliant
  else if any .high || score < a.aaBelow then .aa
  else .aaa

def nativeButtonHint : String :=
  "Prefer a native <button> element over role=\"button\""

/-- What could be done better. -/
def suggestions (a : Auditor) (issues : List Issue) (category : Category) (markup : String) :
    List String :=
  let found (rule : RuleId) (suggestion : String) : List String :=
    if issues.any fun i => i.rule == some rule then [suggestion] else []
  a.generalSuggestions ++
    ((a.categorySuggestions.find? fun entry => entry.1 == category).map Prod.snd).getD [] ++
    found .colorContrast "Check color pairs with a WCAG contrast checker" ++
    found .focusManagement "Add :focus-visible styling for keyboard users" ++
    found .altText "Write alt text that conveys the purpose of each image" ++
    (if ButtonRole.isMisplaced markup then [nativeButtonHint] else [])

/-- The audit of a component with its markup. -/
def audit (a : Auditor) (node : Node) (category : Category) (markup : String)
    (profile : AuditProfile) : AuditReport :=
  let issues := a.issues node category
  let score := a.score profile issues
  { score
    issues
    suggestions := a.suggestions issues category markup
    tier := a.tier profile issues score
    profile }

end Auditor
end Handoff
