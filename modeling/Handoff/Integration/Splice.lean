import Handoff.Integration.Anchor
import Handoff.Options
import Handoff.Text.Lines
/-!
# Splicing custom code

Fragments are put into generated code in a fixed order: markup, imports, utilities, then styles. A
fragment that finds no place for itself stops everything: both texts then stay as they were, and a
warning says so. Nothing that was generated is ever dropped or changed.
-/
namespace Handoff

inductive SpliceError where
  | missingBodyOpening (dialect : MarkupDialect)
  | missingBodyClose
  | missingScriptBlock
deriving DecidableEq, Inhabited

/-- The wording of an error. -/
def SpliceError.message : SpliceError → String
  | .missingBodyOpening d => "no component body opening found in " ++ d.name ++ " markup"
  | .missingBodyClose => "no closing </body> tag to attach custom utilities to"
  | .missingScriptBlock => "no <script> block to attach custom utilities to"

inductive IntegrationWarning where
  /-- There are styles and no markup that they could be for. -/
  | orphanStyles
  | notIntegrated (error : SpliceError)
deriving DecidableEq, Inhabited

def IntegrationWarning.message : IntegrationWarning → String
  | .orphanStyles => "custom styles without corresponding markup"
  | .notIntegrated error => "custom code not integrated: " ++ error.message

structure Integration where
  markup : String
  stylesheet : String
  warnings : List IntegrationWarning
deriving DecidableEq, Inhabited

namespace Splice

def utilitiesBanner : String := "// Custom utilities"

def stylesBanner : String := "/* Custom styles */"

def advancedStylesBanner : String := "/* Advanced styles */"

/-- A split text with something put in. -/
def insertAt (split : Anchor.Split) (piece : String) : String :=
  String.ofList split.1 ++ piece ++ String.ofList split.2

/-- Puts markup behind the opening of the body, indented. -/
def insertMarkup (dialect : MarkupDialect) (fragment markup : String) :
    Except SpliceError String :=
  match Anchor.search (Anchor.openingStart dialect) markup.toList with
  | some split => .ok (insertAt split ("\n" ++ Text.indent 2 fragment))
  | none => .error (.missingBodyOpening dialect)

/-- The place for imports: behind that of the framework, or behind the opening of the script. -/
def importAnchor? (dialect : MarkupDialect) (markup : List Char) : Option Anchor.Split :=
  match Anchor.search Anchor.importStart markup with
  | some split => some split
  | none => if dialect = .templated then Anchor.search Anchor.scriptStart markup else none

/-- Puts imports in their place, or in front of everything. -/
def insertImports (dialect : MarkupDialect) (fragment markup : String) : String :=
  match importAnchor? dialect markup.toList with
  | some split => insertAt split ("\n" ++ fragment)
  | none => fragment ++ "\n" ++ markup

def bannered (banner fragment : String) : String :=
  banner ++ "\n" ++ fragment ++ "\n"

/-- What stands before a block at the end of a text, so that an empty line is between the two. -/
def gapAfter (text : String) : String :=
  if text.isEmpty then "" else if text.toList.getLast? = some '\n' then "\n" else "\n\n"

/-- Puts a bannered fragment at the end of a text. -/
def appendBlock (banner fragment text : String) : String :=
  text ++ (gapAfter text ++ bannered banner fragment)

def bodyClose? (markup : List Char) : Option Anchor.Split :=
  Text.splitLast "</body>".toList markup

def scriptClose? (markup : List Char) : Option Anchor.Split :=
  Anchor.andThen (Anchor.search Anchor.scriptStart markup) (Text.splitFirst "</script>".toList)

/-- Puts utilities at the end of a file, of its body or of its script. -/
def insertUtilities (dialect : MarkupDialect) (fragment markup : String) :
    Except SpliceError String :=
  let block := bannered utilitiesBanner fragment
  match dialect with
  | .componentized => .ok (appendBlock utilitiesBanner fragment markup)
  | .static =>
    match bodyClose? markup.toList with
    | some split => .ok (insertAt split ("<script>\n" ++ block ++ "</script>\n"))
    | none => .error .missingBodyClose
  | .templated =>
    match scriptClose? markup.toList with
    | some split =>
      let lead := if split.1.getLast? = some '\n' then "\n" else "\n\n"
      .ok (insertAt split (lead ++ block))
    | none => .error .missingScriptBlock

/-- All fragments of markup in their places. -/
def intoMarkup (dialect : MarkupDialect) (custom : CustomCode) (markup : String) :
    Except SpliceError String := do
  let markup ← match CustomCode.fragment? custom.markup with
    | some fragment => insertMarkup dialect fragment markup
    | none => pure markup
  let markup := match CustomCode.fragment? custom.imports with
    | some fragment => insertImports dialect fragment markup
    | none => markup
  match CustomCode.fragment? custom.utilities with
  | some fragment => insertUtilities dialect fragment markup
  | none => pure markup

/-- All styles behind those that are there. -/
def intoStylesheet (custom : CustomCode) (stylesheet : String) : String :=
  let styled := match CustomCode.fragment? custom.styles with
    | some fragment => appendBlock stylesBanner fragment stylesheet
    | none => stylesheet
  match CustomCode.fragment? custom.advancedStyles with
  | some fragment => appendBlock advancedStylesBanner fragment styled
  | none => styled

end Splice

namespace Integration

/-- Whether there are custom styles and no custom markup. -/
def hasOrphanStyles (custom : CustomCode) : Bool :=
  let styles := (CustomCode.fragment? custom.styles).isSome ||
    (CustomCode.fragment? custom.advancedStyles).isSome
  styles && (CustomCode.fragment? custom.markup).isNone

/-- Generated code with custom code in it, or as it was. -/
def integrate (dialect : MarkupDialect) (custom : CustomCode) (markup stylesheet : String) :
    Integration :=
  let orphans := if hasOrphanStyles custom then [.orphanStyles] else []
  match Splice.intoMarkup dialect custom markup with
  | .ok spliced => ⟨spliced, Splice.intoStylesheet custom stylesheet, orphans⟩
  | .error e => ⟨markup, stylesheet, orphans ++ [.notIntegrated e]⟩

end Integration
end Handoff
