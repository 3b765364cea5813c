import Handoff.Component.Props
import Handoff.Dialect
import Handoff.Text.Lines
import Handoff.Text.Blank
/-!
# Component files

The file of a component holds its body, indented, and around it what the markup dialect asks for:
a function with its imports, a template with a script and a style block, or a whole document.
-/
namespace Handoff

structure ComponentParts where
  name : String
  /-- The markup of the root, in column 0. -/
  body : String
  props : List PropSpec
  typescript : Bool
  style : StyleDialect
  stylesheet : String
  /-- Whether clicks are handed on. -/
  isInteractive : Bool

namespace ComponentParts

def joined (lines : List String) : String :=
  String.intercalate "\n" lines

def propsType (p : ComponentParts) : String :=
  p.name ++ "Props"

/-! ## Functions -/

/-- The imports of a function file. -/
def imports (p : ComponentParts) : List String :=
  "import React from 'react';" ::
    match p.style with
    | .utility => []
    | .plain => ["import './" ++ p.name ++ ".css';"]
    | .scopedModule => ["import styles from './" ++ p.name ++ ".module.css';"]
    | .cssInJs => ["import styled from 'styled-components';"]

/-- All that stands before the function. -/
def preamble (p : ComponentParts) : String :=
  let wrapper :=
    if p.style = .cssInJs ∧ p.stylesheet ≠ "" then [Text.trimEnd p.stylesheet] else []
  let types :=
    if p.typescript then ["export " ++ PropSpec.interfaceText p.name p.props] else []
  String.intercalate "\n\n" (joined p.imports :: wrapper ++ types)

/-- A file with a function that returns the body. -/
def functionFile (p : ComponentParts) : String :=
  let parameters := if p.typescript then "props: " ++ p.propsType else "props"
  joined [
    p.preamble,
    "",
    "export default function " ++ p.name ++ "(" ++ parameters ++ ") \x7b",
    "  return (",
    Text.indent 4 p.body,
    "  );",
    "\x7d",
    ""]

/-! ## Templates -/

/-- The script of a template file. -/
def script (p : ComponentParts) : String :=
  let declared :=
    if p.typescript then
      [PropSpec.interfaceText p.name p.props, "", "defineProps<" ++ p.propsType ++ ">();"]
    else
      let names := p.props.map fun prop => "'" ++ prop.name ++ "'"
      ["defineProps([" ++ String.intercalate ", " names ++ "]);"]
  let emitted :=
    if !p.isInteractive then []
    else if p.typescript then ["defineEmits<\x7b (e: 'click'): void \x7d>();"]
    else ["defineEmits(['click']);"]
  joined (declared ++ emitted)

/-- The style block of a template file, if it has one. -/
def styleBlock (p : ComponentParts) : String :=
  let attribute? := match p.style with
    | .plain => some "scoped"
    | .scopedModule => some "module"
    | .utility | .cssInJs => none
  match attribute? with
  | some name =>
    if p.stylesheet = "" then ""
    else "\n<style " ++ name ++ ">\n" ++ p.stylesheet ++ "</style>\n"
  | none => ""

/-- A file with the body as its template. -/
def templateFile (p : ComponentParts) : String :=
  let attributes := if p.typescript then " lang=\"ts\"" else ""
  joined [
    "<template>",
    Text.indent 2 p.body,
    "</template>",
    "",
    "<script setup" ++ attributes ++ ">",
    p.script,
    "</script>",
    p.styleBlock]

/-! ## Documents -/

/-- The line of a document that brings in its styles. -/
def styleLine (p : ComponentParts) : String :=
  match p.style with
  | .utility => "<script src=\"https://cdn.tailwindcss.com\"></script>"
  | _ => "<link rel=\"stylesheet\" href=\"" ++ p.name ++ ".css\">"

/-- A document with the body. -/
def documentFile (p : ComponentParts) : String :=
  joined [
    "<!DOCTYPE html>",
    "<html lang=\"en\">",
    "<head>",
    "  <meta charset=\"UTF-8\">",
    "  <meta name=\"viewport\" content=\"width=device-width, initial-scale=1.0\">",
    "  <title>" ++ p.name ++ "</title>",
    "  " ++ p.styleLine,
    "</head>",
    "<body>",
    Text.indent 2 p.body,
    "</body>",
    "</html>",
    ""]

/-- The file of a component. -/
def file (p : ComponentParts) : MarkupDialect → String
  | .componentized => p.functionFile
  | .templated => p.templateFile
  | .static => p.documentFile

end ComponentParts
end Handoff
