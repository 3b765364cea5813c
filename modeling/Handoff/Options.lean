import Handoff.Dialect
import Handoff.Json.Record
import Handoff.Json.Value
import Handoff.Viewport
/-!
# Options of a request

What a caller asks for: the two dialects, some switches, the profile of the audit, and widths of
screens by name. `Options.toJson` writes them, `Options.ofText` reads them back.

A text with an unknown dialect is refused for just that. The names are therefore looked at before
the rest of the text is; markup comes first.
-/
namespace Handoff

inductive AuditProfile where
  | full
  | simplified
deriving DecidableEq, Inhabited

namespace AuditProfile

def name : AuditProfile → String
  | .full => "full"
  | .simplified => "simplified"

/-- The profile of that name. -/
def ofName? : String → Option AuditProfile
  | "full" => some .full
  | "simplified" => some .simplified
  | _ => none

end AuditProfile

structure Options where
  markup : Option MarkupDialect := none
  stylesheet : Option StyleDialect := none
  /-- Whether types are declared. -/
  typescript : Bool := true
  includeAccessibility : Bool := true
  includeResponsive : Bool := true
  /-- Whether images load late. -/
  optimizeImages : Bool := false
  auditProfile : AuditProfile := .full
  /-- Widths of screens by name. -/
  breakpoints : Option NamedWidths := none
deriving Inhabited

inductive OptionsError where
  | unreadable (fault : Fault)
  | dialect (error : GenerationError)

namespace Options

/-- The two dialects of a request, both of which have to be given. -/
def dialect (o : Options) : Except GenerationError Dialect := do
  let some markup := o.markup | throw (.missingDialect .markup)
  let some style := o.stylesheet | throw (.missingDialect .stylesheet)
  Dialect.pair markup style

def withBreakpoint (o : Options) (name : String) (width : UInt32) : Options :=
  { o with breakpoints := some ((o.breakpoints.getD .empty).insert name width) }

/-! ## Writing -/

def orNull {α : Type} (f : α → Json) : Option α → Json
  | some v => f v
  | none => .null

/-- The options with all members. -/
def toJson (o : Options) : Json :=
  .object [
    ("markup", orNull (fun d => .string d.name) o.markup),
    ("stylesheet", orNull (fun d => .string d.name) o.stylesheet),
    ("typescript", .boolean o.typescript),
    ("includeAccessibility", .boolean o.includeAccessibility),
    ("includeResponsive", .boolean o.includeResponsive),
    ("optimizeImages", .boolean o.optimizeImages),
    ("auditProfile", .string o.auditProfile.name),
    ("breakpoints", orNull (fun widths => .object <| widths.entries.map fun e =>
      (e.1, .number (.integer e.2.toNat))) o.breakpoints)]

/-! ## Reading -/

/-- A name of a dialect that may be `null`. -/
def asDialect {α : Type} (parse : String → Except GenerationError α) :
    Json → Except Mismatch (Option α) :=
  Json.asOptional fun v => do
    let name ← v.asString
    match parse name with
    | .ok d => return d
    | .error e => throw (.refused e.message)

/-- The members of options. -/
def fields : List (KeptField Options) := [
  ⟨"markup", fun v => (fun markup o => { o with markup }) <$> asDialect MarkupDialect.parse v⟩,
  ⟨"stylesheet", fun v => (fun stylesheet o => { o with stylesheet }) <$>
    asDialect StyleDialect.parse v⟩,
  ⟨"typescript", fun v => (fun typescript o => { o with typescript }) <$> v.asBoolean⟩,
  ⟨"includeAccessibility", fun v => (fun includeAccessibility o =>
    { o with includeAccessibility }) <$> v.asBoolean⟩,
  ⟨"includeResponsive", fun v => (fun includeResponsive o => { o with includeResponsive }) <$>
    v.asBoolean⟩,
  ⟨"optimizeImages", fun v => (fun optimizeImages o => { o with optimizeImages }) <$>
    v.asBoolean⟩,
  ⟨"auditProfile", fun v => (fun auditProfile o => { o with auditProfile }) <$>
    v.asName AuditProfile.ofName?⟩,
  ⟨"breakpoints", fun v => (fun breakpoints o => { o with breakpoints }) <$>
    Json.asOptional (fun v => (fun entries => .ofList entries) <$> v.asMap Json.asWord) v⟩]

def ofJson (v : Json) : Except Mismatch Options :=
  v.asRecord "struct GenerationOptions" fields {}

/-- Refuses an unknown dialect in a member that is a text. -/
def checkName {α : Type} (parse : String → Except GenerationError α) (member : Option Json) :
    Except GenerationError Unit :=
  match member with
  | some (.string name) => (fun _ => ()) <$> parse name
  | _ => .ok ()

/-- The options that a text holds. -/
def ofText (text : String) : Except OptionsError Options :=
  match Json.ofText text with
  | .error fault => .error (.unreadable fault)
  | .ok v =>
    let v := v.sortMembers
    let names := do
      checkName MarkupDialect.parse (v.member? "markup")
      checkName StyleDialect.parse (v.member? "stylesheet")
    match names with
    | .error e => .error (.dialect e)
    | .ok () => (ofJson v).mapError fun cause => .unreadable (.mismatch cause)

end Options

/-! ## Custom code -/

/-- Code of the caller's own, to be put into the output. -/
structure CustomCode where
  markup : Option String := none
  styles : Option String := none
  advancedStyles : Option String := none
  imports : Option String := none
  utilities : Option String := none
deriving DecidableEq, Inhabited

namespace CustomCode

/-- A fragment without the blanks at its end, unless nothing is left. -/
def fragment? (field : Option String) : Option String :=
  match field with
  | some s => if Text.isBlankText s then none else some (Text.trimEnd s)
  | none => none

def isEmpty (c : CustomCode) : Bool :=
  [c.markup, c.styles, c.advancedStyles, c.imports, c.utilities].all fun field =>
    (fragment? field).isNone

/-- The fragments with all members. -/
def toJson (c : CustomCode) : Json :=
  .object [
    ("markup", Options.orNull .string c.markup),
    ("styles", Options.orNull .string c.styles),
    ("advancedStyles", Options.orNull .string c.advancedStyles),
    ("imports", Options.orNull .string c.imports),
    ("utilities", Options.orNull .string c.utilities)]

/-- The members of custom code. -/
def fields : List (KeptField CustomCode) :=
  let text (name : String) (set : Option String → CustomCode → CustomCode) :
      KeptField CustomCode := ⟨name, fun v => set <$> Json.asOptional Json.asString v⟩
  [text "markup" fun markup c => { c with markup },
    text "styles" fun styles c => { c with styles },
    text "advancedStyles" fun advancedStyles c => { c with advancedStyles },
    text "imports" fun imports c => { c with imports },
    text "utilities" fun utilities c => { c with utilities }]

def ofJson (v : Json) : Except Mismatch CustomCode :=
  v.sortMembers.asRecord "struct CustomCode" fields {}

end CustomCode
end Handoff
