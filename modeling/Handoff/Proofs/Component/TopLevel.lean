import Handoff.Component.Emission
import Handoff.Proofs.Text.Words
/-!
# What a function file declares

The file of a function is a run of imports in lines of their own and then a run of declarations, each
with an empty line before it: the wrapper of the root, the type of the props, the function. `SourceFile`
is such a file before it is written down, and `SourceFile.bound` the names that it binds at its top
level, in order. What stands inside an item, between its braces or as its value, binds nothing there.

The names are fixed (`React`, `styles`, `styled`) or the name of the component with or without a suffix.
The name of a component begins with a capital letter, so it is neither `styles` nor `styled`, and no
suffix makes it one of the fixed names; but a component can be named `React`.

Results:
* `ComponentParts.functionFile_eq`: the file of a function is a source file written down.
* `Emitter.emit_declares`: what the file of an emitted component binds, and that all of it is distinct
  unless the component is named `React`.
-/
namespace Handoff

/-! ## Source files -/

/-- An item at the top level of a function file. -/
inductive TopLevel where
  /-- Brings in what a module exports, under a name. -/
  | importDefault (name source : String)
  /-- Brings in a module for what loading it does. -/
  | importOnly (source : String)
  | constant (name value : String)
  | interface (name : String) (members : List String)
  | function (name parameters body : String)
deriving DecidableEq

namespace TopLevel

/-- An item as it is written. -/
def text : TopLevel → String
  | importDefault name source => "import " ++ name ++ " from '" ++ source ++ "';"
  | importOnly source => "import '" ++ source ++ "';"
  | constant name value => "const " ++ name ++ " = " ++ value ++ ";"
  | interface name members =>
    "export " ++ String.intercalate "\n" (("interface " ++ name ++ " \x7b") :: members ++ ["\x7d"])
  | function name parameters body =>
    "export default function " ++ name ++ "(" ++ parameters ++ ") \x7b\n" ++ body ++ "\n\x7d"

def name? : TopLevel → Option String
  | importDefault name _ | constant name _ | interface name _ | function name _ _ => some name
  | importOnly _ => none

end TopLevel

structure SourceFile where
  imports : List TopLevel
  declarations : List TopLevel

namespace SourceFile

def text (f : SourceFile) : String :=
  String.intercalate "\n\n"
    (String.intercalate "\n" (f.imports.map TopLevel.text) :: f.declarations.map TopLevel.text) ++ "\n"

/-- The names that a file binds at its top level. -/
def bound (f : SourceFile) : List String :=
  (f.imports ++ f.declarations).filterMap TopLevel.name?

end SourceFile

/-! ## The file of a function -/

namespace Text

theorem trimEnd_statement (s : String) : trimEnd (s ++ ";" ++ "\n") = s ++ ";" := by
  have ends : (s ++ ";" ++ "\n").toList.reverse = '\n' :: ';' :: s.toList.reverse := by
    rw [String.toList_append, String.toList_append, List.reverse_append, List.reverse_append]
    rfl
  apply String.toList_inj.mp
  rw [trimEnd, dropBlankEnd, ends, String.toList_ofList, List.dropWhile_cons_of_pos (by rfl),
    List.dropWhile_cons_of_neg (by decide), List.reverse_cons, List.reverse_reverse,
    String.toList_append]
  rfl

end Text

namespace Stylesheet

/-- What the wrapper of a root is set to. -/
def wrapperValue (sheet : Stylesheet) (tag : String) : String :=
  let sections := sheet.rules.map (fun r => joinedLines (wrappedLines 2 r)) ++
    sheet.media.map fun b => joinedLines (blockLines 2 b (wrappedLines 4))
  "styled." ++ tag ++ "`\n" ++ String.intercalate "\n\n" sections ++ "\n`"

theorem wrapperText_eq (sheet : Stylesheet) (component tag : String) :
    sheet.wrapperText component tag =
      (TopLevel.constant (component ++ "Root") (sheet.wrapperValue tag)).text ++ "\n" := by
  unfold wrapperText wrapperValue TopLevel.text
  dsimp only
  generalize String.intercalate _ _ = sections
  simp only [String.append_assoc]
  rfl

end Stylesheet

namespace ComponentParts

variable (p : ComponentParts)

/-- What a function file brings in. -/
def importItems : List TopLevel :=
  .importDefault "React" "react" ::
    match p.style with
    | .utility => []
    | .plain => [.importOnly ("./" ++ p.name ++ ".css")]
    | .scopedModule => [.importDefault "styles" ("./" ++ p.name ++ ".module.css")]
    | .cssInJs => [.importDefault "styled" "styled-components"]

def wrapperItems (value : String) : List TopLevel :=
  if p.style = .cssInJs then [.constant (p.name ++ "Root") value] else []

/-- The type of the props, where there are types. -/
def typeItems : List TopLevel :=
  if p.typescript then
    [.interface p.propsType (p.props.map fun prop => "  " ++ prop.name ++ "?: " ++ prop.type ++ ";")]
  else []

def functionItem : TopLevel :=
  .function p.name (if p.typescript then "props: " ++ p.propsType else "props")
    ("  return (\n" ++ Text.indent 4 p.body ++ "\n  );")

/-- The file of a function before it is written down, given what its wrapper is set to. -/
def source (value : String) : SourceFile where
  imports := p.importItems
  declarations := p.wrapperItems value ++ p.typeItems ++ [p.functionItem]

theorem text_importItems : p.importItems.map TopLevel.text = p.imports := by
  unfold importItems imports
  cases p.style with
  | utility => rfl
  | plain =>
    simp only [List.map_cons, List.map_nil]
    unfold TopLevel.text
    simp only [String.append_assoc]
    rfl
  | scopedModule =>
    simp only [List.map_cons, List.map_nil]
    unfold TopLevel.text
    simp only [String.append_assoc]
    rfl
  | cssInJs => rfl

theorem text_typeItems : p.typeItems.map TopLevel.text =
    if p.typescript then ["export " ++ PropSpec.interfaceText p.name p.props] else [] := by
  unfold typeItems
  split
  · simp only [List.map_cons, List.map_nil]
    unfold TopLevel.text PropSpec.interfaceText propsType
    simp only [String.append_assoc]
    rfl
  · rfl

theorem text_wrapperItems {value : String} (wrapped : p.style = .cssInJs →
      p.stylesheet = (TopLevel.constant (p.name ++ "Root") value).text ++ "\n") :
    (p.wrapperItems value).map TopLevel.text =
      if p.style = .cssInJs ∧ p.stylesheet ≠ "" then [Text.trimEnd p.stylesheet] else [] := by
  unfold wrapperItems
  by_cases style : p.style = .cssInJs
  · have filled : p.stylesheet ≠ "" := by
      rw [wrapped style]
      intro empty
      have lengths := congrArg String.length empty
      rw [String.length_append] at lengths
      cases lengths
    rw [if_pos style, if_pos ⟨style, filled⟩, wrapped style]
    unfold TopLevel.text
    rw [Text.trimEnd_statement]
    rfl
  · rw [if_neg style, if_neg fun both => style both.1]
    rfl

/-- The file of a function is a source file written down. -/
theorem functionFile_eq {value : String} (wrapped : p.style = .cssInJs →
      p.stylesheet = (TopLevel.constant (p.name ++ "Root") value).text ++ "\n") :
    p.functionFile = (p.source value).text := by
  have preamble : p.preamble = String.intercalate "\n\n" (String.intercalate "\n"
      (p.importItems.map TopLevel.text) ::
        (p.wrapperItems value ++ p.typeItems).map TopLevel.text) := by
    rw [List.map_append, p.text_importItems, p.text_wrapperItems wrapped, p.text_typeItems]
    rfl
  have function : p.functionItem.text = "export default function " ++ p.name ++ "(" ++
      (if p.typescript then "props: " ++ p.propsType else "props") ++ ") \x7b\n" ++
        ("  return (\n" ++ Text.indent 4 p.body ++ "\n  );") ++ "\n\x7d" := rfl
  unfold SourceFile.text source
  dsimp only
  rw [List.map_append, ← List.cons_append, List.map_singleton,
    String.intercalate_append_of_ne_nil (List.cons_ne_nil _ _) (List.cons_ne_nil _ _), ← preamble,
    String.intercalate_singleton, function]
  unfold functionFile joined
  simp only [String.intercalate_cons_cons, String.intercalate_singleton, String.append_assoc]
  rfl

end ComponentParts
/-! ## The names of a component file -/

namespace Emitter

/-- What the file of a component is put together from. -/
def parts (e : Emitter) (root : Styled) (name : String) (style : StyleDialect)
    (options : EmissionOptions) : ComponentParts where
  name
  body := (written style name (e.element root style options)).render .componentized 0
  props := PropSpec.ofVerdict root.value.verdict
  typescript := options.typescript
  style
  stylesheet := stylesheetText root style name (e.element root style options).value.tag
    (widthsFor root options)
  isInteractive := root.value.verdict.isInteractive

/-- The file of a component before it is written down. -/
def source (e : Emitter) (root : Styled) (name : String) (style : StyleDialect)
    (options : EmissionOptions) : SourceFile :=
  (e.parts root name style options).source
    ((Stylesheet.ofStyled root (widthsFor root options)).wrapperValue
      (e.element root style options).value.tag)

theorem markup_emit (e : Emitter) (root : Styled) (name : String) (style : StyleDialect)
    (options : EmissionOptions) :
    (e.emit root name ⟨.componentized, style, fun _ => rfl⟩ options).markup =
      (e.source root name style options).text := by
  refine (e.parts root name style options).functionFile_eq fun wrapped => ?_
  obtain rfl : style = .cssInJs := wrapped
  exact Stylesheet.wrapperText_eq ..

/-- The names that the file of a component binds at its top level after `React`. -/
def furtherNames (style : StyleDialect) (typescript : Bool) (name : String) : List String :=
  let brought := match style with
    | .utility | .plain => []
    | .scopedModule => ["styles"]
    | .cssInJs => ["styled", name ++ "Root"]
  brought ++ (if typescript then [name ++ "Props"] else []) ++ [name]

theorem bound_source (e : Emitter) (root : Styled) (name : String) (style : StyleDialect)
    (options : EmissionOptions) : (e.source root name style options).bound =
      "React" :: furtherNames style options.typescript name := by
  obtain ⟨typescript, -, -⟩ := options
  cases style <;> cases typescript <;> rfl

/-- A name with a suffix is none of those that do not end in it. -/
theorem append_ne (name : String) {suffix fixed : String}
    (h : ¬ suffix.toList <:+ fixed.toList) : name ++ suffix ≠ fixed := by
  rintro rfl
  exact h ⟨name.toList, String.toList_append.symm⟩

theorem ne_append (name : String) {suffix : String} (h : suffix ≠ "") : name ≠ name ++ suffix := by
  intro same
  have lengths := congrArg String.length same
  rw [String.length_append, Nat.left_eq_add, String.length_eq_zero_iff] at lengths
  exact h lengths

variable (style : StyleDialect) (typescript : Bool) (layerName : String)

/-- Only the function can bear the name of the framework. -/
theorem react_mem_furtherNames (name : String) :
    "React" ∈ furtherNames style typescript name ↔ name = "React" := by
  have root : "React" ≠ name ++ "Root" := (append_ne name (by decide)).symm
  have props : "React" ≠ name ++ "Props" := (append_ne name (by decide)).symm
  unfold furtherNames
  cases style <;> cases typescript <;> simp [root, props, eq_comm]

theorem nodup_furtherNames :
    (furtherNames style typescript (Naming.componentName layerName)).Nodup := by
  obtain ⟨first, rest, spelled, capital⟩ := Naming.componentName_capital layerName
  generalize Naming.componentName layerName = name at spelled ⊢
  have small {fixed : String} (h : fixed = "styles" ∨ fixed = "styled") : fixed ≠ name := by
    rintro rfl
    rcases h with rfl | rfl <;> cases spelled <;> cases capital
  have root : "styled" ≠ name ++ "Root" ∧ name ++ "Root" ≠ name ++ "Props" :=
    ⟨(append_ne name (by decide)).symm, fun same => by simpa using (String.append_right_inj name).mp same⟩
  have props : "styles" ≠ name ++ "Props" ∧ "styled" ≠ name ++ "Props" :=
    ⟨(append_ne name (by decide)).symm, (append_ne name (by decide)).symm⟩
  have longer : name ++ "Root" ≠ name ∧ name ++ "Props" ≠ name :=
    ⟨(ne_append name (by decide)).symm, (ne_append name (by decide)).symm⟩
  unfold furtherNames
  cases style <;> cases typescript <;> simp [small, root, props, longer]

/-- The file of a component in a function is a run of imports and declarations. The names that they
bind are the import of the framework, what the stylesheet dialect brings in and the wrapper, the type of
the props and the function. They are distinct but for one case: a layer whose name comes to `React` gives
a function with the name of that import. -/
theorem emit_declares (e : Emitter) (root : Styled) (options : EmissionOptions) :
    let name := Naming.componentName layerName
    let file := e.source root name style options
    (e.emit root name ⟨.componentized, style, fun _ => rfl⟩ options).markup = file.text ∧
      file.bound = "React" :: furtherNames style options.typescript name ∧
      (furtherNames style options.typescript name).Nodup ∧ (file.bound.Nodup ↔ name ≠ "React") := by
  dsimp only
  have distinct := nodup_furtherNames style options.typescript layerName
  have bound := e.bound_source root (Naming.componentName layerName) style options
  refine ⟨e.markup_emit .., bound, distinct, ?_⟩
  rw [bound, List.nodup_cons, react_mem_furtherNames, and_iff_left distinct]

def reactFrame : Node :=
  .leaf { id := "1", name := "React" }

/-- The frame gives a file that imports `React` and declares it. -/
theorem emit_declares_reactFrame :
    let name := Naming.componentName reactFrame.value.name
    let root := Styled.ofNode none reactFrame (Classifier.standard.classify reactFrame)
    let file := Emitter.source {} root name .utility {}
    (Emitter.emit {} root name ⟨.componentized, .utility, nofun⟩ {}).markup = file.text ∧
      file.bound = ["React", "React"] ∧ ¬ file.bound.Nodup := by
  have same : Naming.componentName reactFrame.value.name = "React" := by decide +kernel
  obtain ⟨text, bound, -, distinct⟩ := emit_declares .utility reactFrame.value.name {}
    (Styled.ofNode none reactFrame (Classifier.standard.classify reactFrame)) {}
  refine ⟨text, ?_, fun nodup => distinct.mp nodup same⟩
  rw [bound, same]
  rfl

end Emitter
end Handoff
