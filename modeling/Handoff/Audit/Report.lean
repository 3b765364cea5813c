import Handoff.Options
/-!
# Audit reports

An issue has a severity, which decides what it costs, and a rule if one found it. The score starts
at 100; the tier depends on the score and on the worst severity.
-/
namespace Handoff

inductive Severity where
  | critical
  | high
  | medium
  | low
deriving DecidableEq, Inhabited

namespace Severity

/-- The name of a severity, which is also its full label. -/
def name : Severity → String
  | .critical => "critical"
  | .high => "high"
  | .medium => "medium"
  | .low => "low"

def all : List Severity := [.critical, .high, .medium, .low]

def ofName? (name : String) : Option Severity :=
  all.find? fun s => s.name == name

/-- What a report calls an issue of a severity. -/
def label (s : Severity) : AuditProfile → String
  | .full => s.name
  | .simplified =>
    match s with
    | .critical | .high => "error"
    | .medium => "warning"
    | .low => "info"

end Severity

inductive Tier where
  | aaa
  | aa
  | a
  | nonCompliant
deriving DecidableEq, Inhabited

/-- The name of a tier. -/
def Tier.name : Tier → String
  | .aaa => "AAA"
  | .aa => "AA"
  | .a => "A"
  | .nonCompliant => "Non-compliant"

/-- The rules that every node is held to. -/
inductive RuleId where
  | colorContrast
  | focusManagement
  | semanticStructure
  | altText
deriving DecidableEq, Inhabited

namespace RuleId

/-- The name of a rule. -/
def name : RuleId → String
  | .colorContrast => "color-contrast"
  | .focusManagement => "focus-management"
  | .semanticStructure => "semantic-structure"
  | .altText => "alt-text"

/-- Every rule, in the order in which a node is held to them. -/
def all : List RuleId :=
  [.colorContrast, .focusManagement, .semanticStructure, .altText]

end RuleId

structure Issue where
  severity : Severity
  message : String
  /-- The name of the node, or else its id. -/
  element : String
  fix : String
  /-- The rule that found it; checks of the component as a whole have none. -/
  rule : Option RuleId
deriving DecidableEq, Inhabited

structure AuditReport where
  score : Nat
  issues : List Issue
  suggestions : List String
  tier : Tier
  profile : AuditProfile
deriving DecidableEq, Inhabited

namespace AuditReport

def count (r : AuditReport) (s : Severity) : Nat :=
  (r.issues.filter fun i => i.severity == s).length

def hasRule (r : AuditReport) (rule : RuleId) : Bool :=
  r.issues.any fun i => i.rule == some rule

end AuditReport

structure Penalties where
  critical : UInt32
  high : UInt32
  medium : UInt32
  low : UInt32
deriving DecidableEq, Inhabited

/-- What an issue of a severity costs. -/
def Penalties.of (p : Penalties) : Severity → UInt32
  | .critical => p.critical
  | .high => p.high
  | .medium => p.medium
  | .low => p.low

end Handoff
