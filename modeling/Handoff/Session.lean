import Handoff.Audit.Auditor
import Handoff.Cache
import Handoff.Component.Emission
import Handoff.Integration.Splice
/-!
# Generating components

A session turns nodes into components: it classifies and styles a node, emits its code, audits it,
puts custom code in and records how all this was done. Components are kept in a cache, so that a
request that comes again is answered by the component that is there.

The options are checked before the cache is asked; a request that is refused leaves the session as
it was. Every component that is built gets a serial number, by which an answer out of the cache can
be told from one that is new.
-/
namespace Handoff

structure Settings where
  /-- The version that keys and components carry. -/
  version : String := "0.1.0"
  classifier : Classifier := .standard
  tags : TagTable := .standard
  utility : UtilityScale := .standard
  auditor : Auditor := .standard
  viewport : ViewportPolicy := {}
  digest : Digest := .standard

instance : Inhabited Settings := ⟨{}⟩

structure ComponentMetadata where
  sourceNodeId : String
  category : Category
  complexity : Complexity
  /-- How faithful the code is likely to be, from 0.5 to 1. -/
  estimatedAccuracy : Float
  dependencies : List String
  suggestedProps : List String
  warnings : List String
  markupDialect : MarkupDialect
  styleDialect : StyleDialect
  version : String
deriving Inhabited

structure GeneratedComponent where
  id : String
  sanitizedName : String
  markup : String
  stylesheet : String
  typeDeclarations : Option String
  accessibility : Option AuditReport
  responsive : Option Variants
  metadata : ComponentMetadata
deriving Inhabited

/-! ## Building one component -/

/-- How faithful the code of a component is likely to be: less for involved components, for images
and for warnings, and never below a half. -/
def estimateAccuracy (complexity : Complexity) (node : Node) (warnings : Nat) : Float :=
  let base : Float := 0.95
  let afterComplexity := base - match complexity with
    | .complex => 0.10
    | .medium => 0.05
    | .simple => 0
  let afterImages :=
    if node.any Layer.hasImageFill then afterComplexity - 0.05 else afterComplexity
  let estimate := afterImages - 0.02 * Float.ofNat warnings
  if estimate < 0.5 then 0.5 else if 1 < estimate then 1 else estimate

namespace Settings

def emitter (s : Settings) : Emitter :=
  ⟨s.tags, s.utility⟩

def styled (s : Settings) (node : Node) (options : Options) : Styled :=
  let policy := if options.includeResponsive then some s.viewport else none
  Styled.ofNode policy node (s.classifier.classify node)

/-- What the options say about emission. -/
def emissionOptions (options : Options) : EmissionOptions where
  typescript := options.typescript
  optimizeImages := options.optimizeImages
  widths := if options.includeResponsive then some (.ofWidths options.breakpoints) else none

/-- The component of a node. -/
def build (s : Settings) (node : Node) (dialect : Dialect) (options : Options)
    (custom : CustomCode) : GeneratedComponent :=
  let name := Naming.componentName node.value.name
  let styled := s.styled node options
  let verdict := styled.value.verdict
  let emitted := s.emitter.emit styled name dialect (emissionOptions options)
  let accessibility :=
    if options.includeAccessibility then
      some (s.auditor.audit node verdict.category emitted.markup options.auditProfile)
    else none
  let integration := Integration.integrate dialect.markup custom emitted.markup emitted.stylesheet
  { id := node.value.id
    sanitizedName := name
    markup := integration.markup
    stylesheet := integration.stylesheet
    typeDeclarations := emitted.typeDeclarations
    accessibility
    responsive := styled.value.variants
    metadata := {
      sourceNodeId := node.value.id
      category := verdict.category
      complexity := verdict.complexity
      estimatedAccuracy := estimateAccuracy verdict.complexity node integration.warnings.length
      dependencies := dialect.dependencies options.typescript
      suggestedProps := (PropSpec.ofVerdict verdict).map PropSpec.name
      warnings := integration.warnings.map IntegrationWarning.message
      markupDialect := dialect.markup
      styleDialect := dialect.style
      version := s.version } }

/-- The key of a request. -/
def key (s : Settings) (node : Node) (options : Options) (custom : CustomCode) : CacheKey :=
  .ofRequest s.digest "component" s.version node options custom

end Settings

/-! ## Sessions -/

/-- A component with the number of those built before it. -/
structure Issued where
  serial : Nat
  component : GeneratedComponent
deriving Inhabited

/-- The cache of a session and the number of components it has built. -/
structure Session where
  cache : Cache Issued := {}
  built : Nat := 0
deriving Inhabited

structure GenerationReport where
  components : List Issued
  totalNodesAnalyzed : Nat
  cacheHits : Nat
deriving Inhabited

namespace GenerationReport

def componentCount (r : GenerationReport) : Nat := r.components.length

/-- The mean of the estimates; 0 without components. -/
def averageAccuracy (r : GenerationReport) : Float :=
  if r.components.isEmpty then 0
  else
    let total : Float := r.components.foldl (fun sum c => sum + c.component.metadata.estimatedAccuracy) 0
    total / Float.ofNat r.componentCount

end GenerationReport

namespace Session

structure Answer where
  issued : Issued
  isHit : Bool
deriving Inhabited

/-- The component of a node, out of the cache if it is there. -/
def generateNode (settings : Settings) (session : Session) (node : Node) (options : Options)
    (custom : CustomCode) : Except GenerationError Answer × Session :=
  match options.dialect with
  | .error e => (.error e, session)
  | .ok dialect =>
    let key := (settings.key node options custom).text
    match session.cache.lookUp key with
    | (some issued, cache) => (.ok ⟨issued, true⟩, { session with cache })
    | (none, cache) =>
      let issued := ⟨session.built, settings.build node dialect options custom⟩
      (.ok ⟨issued, false⟩, ⟨cache.set key issued, session.built + 1⟩)

def target (document : Document) (target : String) : Except GenerationError Node :=
  (document.resolve target).mapError .nodeNotFound

/-- The component of a target. -/
def generate (settings : Settings) (session : Session) (document : Document) (name : String)
    (options : Options) (custom : CustomCode) : Except GenerationError Answer × Session :=
  match target document name with
  | .error e => (.error e, session)
  | .ok node => session.generateNode settings node options custom

/-- The components of several targets, up to the first one that is refused. -/
def generateMany (settings : Settings) (session : Session) (document : Document)
    (targets : List String) (options : Options) (custom : CustomCode) :
    Except GenerationError GenerationReport × Session :=
  match targets with
  | [] => (.ok ⟨[], 0, 0⟩, session)
  | name :: rest =>
    match target document name with
    | .error e => (.error e, session)
    | .ok node =>
      match session.generateNode settings node options custom with
      | (.error e, session) => (.error e, session)
      | (.ok answer, session) =>
        match session.generateMany settings document rest options custom with
        | (.error e, session) => (.error e, session)
        | (.ok report, session) =>
          (.ok {
            components := answer.issued :: report.components
            totalNodesAnalyzed := node.walk.length + report.totalNodesAnalyzed
            cacheHits := (if answer.isHit then 1 else 0) + report.cacheHits }, session)

/-- The components of all entries of the component index, in its order. -/
def generateComponents (settings : Settings) (session : Session) (document : Document)
    (options : Options) (custom : CustomCode) :
    Except GenerationError GenerationReport × Session :=
  session.generateMany settings document document.components.keys options custom

/-- Forgets all components; the counts go on. -/
def clear (session : Session) : Session :=
  { session with cache := session.cache.clear }

end Session
end Handoff
