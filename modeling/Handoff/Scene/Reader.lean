import Handoff.Scene.Document
import Handoff.Json.Record
import Handoff.Json.Value
/-!
# Reading scenes

A scene text is read in text order. Everything but a node may be written as an object or, member by
member, as a list. A node is an object only, and its layout stands among its own members: those are
kept until the node ends and are checked then, after the members that have to be there.
-/
namespace Handoff

namespace Reader

/-- A color; opaque unless it says otherwise. -/
def color : Reader Color := RecordFormat.read {
  title := "struct Color"
  start := Color.rgb 0 0 0
  fields := [
    .needed "r" real fun x c => { c with r := x },
    .needed "g" real fun x c => { c with g := x },
    .needed "b" real fun x c => { c with b := x },
    .defaulted "a" real fun x c => { c with a := x }] }

/-- A vector; what is missing is 0. -/
def vector : Reader Vector2 := RecordFormat.read {
  title := "struct Vector"
  start := ⟨0, 0⟩
  fields := [
    .defaulted "x" real fun x v => { v with x },
    .defaulted "y" real fun y v => { v with y }] }

/-- A box; what is missing is 0. -/
def rect : Reader Rect := RecordFormat.read {
  title := "struct Rect"
  start := {}
  fields := [
    .defaulted "x" real fun x r => { r with x },
    .defaulted "y" real fun y r => { r with y },
    .defaulted "width" real fun width r => { r with width },
    .defaulted "height" real fun height r => { r with height }] }

/-- A color and its place, at the start unless it says otherwise. -/
def colorStop : Reader ColorStop := RecordFormat.read {
  title := "struct ColorStop"
  start := ⟨Color.rgb 0 0 0, 0⟩
  fields := [
    .needed "color" color fun color s => { s with color },
    .defaulted "position" real fun position s => { s with position }] }

/-- A paint. -/
def paint : Reader Paint := RecordFormat.read {
  title := "struct Paint"
  start := { kind := .unknown }
  fields := [
    .needed "type" (name (some ∘ PaintKind.ofName)) fun kind p => { p with kind },
    .defaulted "color" (optional color) fun color p => { p with color },
    .defaulted "opacity" (optional real) fun opacity p => { p with opacity },
    .defaulted "visible" (optional boolean) fun visible p => { p with visible },
    .defaulted "gradientStops" (list colorStop) fun stops p => { p with stops },
    .defaulted "gradientHandlePositions" (list vector) fun handles p => { p with handles },
    .defaulted "imageRef" (optional string) fun imageRef p => { p with imageRef }] }

/-- A shadow or a blur. -/
def effect : Reader Effect := RecordFormat.read {
  title := "struct Effect"
  start := { kind := .unknown }
  fields := [
    .needed "type" (name (some ∘ EffectKind.ofName)) fun kind e => { e with kind },
    .defaulted "visible" (optional boolean) fun visible e => { e with visible },
    .defaulted "radius" real fun radius e => { e with radius },
    .defaulted "spread" (optional real) fun spread e => { e with spread },
    .defaulted "offset" (optional vector) fun offset e => { e with offset },
    .defaulted "color" (optional color) fun color e => { e with color }] }

/-- How a text is set. -/
def typography : Reader Typography := RecordFormat.read {
  title := "struct Typography"
  start := {}
  fields := [
    .defaulted "fontFamily" (optional string) fun family t => { t with family },
    .defaulted "fontSize" (optional real) fun size t => { t with size },
    .defaulted "fontWeight" (optional real) fun weight t => { t with weight },
    .defaulted "lineHeightPx" (optional real) fun lineHeight t => { t with lineHeight },
    .defaulted "letterSpacing" (optional real) fun letterSpacing t => { t with letterSpacing },
    .defaulted "textAlignHorizontal" (optional (name TextAlign.ofName?)) fun align t =>
      { t with align },
    .defaulted "fills" (list paint) fun fills t => { t with fills }] }

/-- How a layer is anchored. -/
def constraints : Reader Constraints := RecordFormat.read {
  title := "struct Constraints"
  start := {}
  fields := [
    .defaulted "horizontal" (name HorizontalAnchor.ofName?) fun horizontal c =>
      { c with horizontal },
    .defaulted "vertical" (name VerticalAnchor.ofName?) fun vertical c => { c with vertical }] }

/-- An entry of the component index. -/
def componentMeta : Reader ComponentMeta := RecordFormat.read {
  title := "struct ComponentMeta"
  start := ⟨"", "", none⟩
  fields := [
    .needed "key" string fun key c => { c with key },
    .needed "name" string fun name c => { c with name },
    .defaulted "description" (optional string) fun description c => { c with description }] }

end Reader

/-! ## The layout among the members of a node -/

namespace Layout

/-- The members of a layout but for its padding. -/
def fields : List (KeptField Layout) := [
  ⟨"layoutMode", fun v => (fun mode l => { l with mode }) <$>
    v.asName (some ∘ LayoutMode.ofName)⟩,
  ⟨"itemSpacing", fun v => (fun spacing l => { l with spacing }) <$> Json.asOptional Json.asReal v⟩]

/-- The members of a padding, one for each side. -/
def paddingFields : List (KeptField Padding) := [
  ⟨"paddingTop", fun v => (fun top p => { p with top }) <$> v.asReal⟩,
  ⟨"paddingRight", fun v => (fun right p => { p with right }) <$> v.asReal⟩,
  ⟨"paddingBottom", fun v => (fun bottom p => { p with bottom }) <$> v.asReal⟩,
  ⟨"paddingLeft", fun v => (fun left p => { p with left }) <$> v.asReal⟩]

/-- The layout among members; the padding is read after the rest of it. -/
def ofMembers (members : List (String × Json)) : Except Mismatch Layout := do
  let layout ← readKept fields [] {} members
  let padding ← readKept paddingFields [] {} members
  return { layout with padding }

end Layout

/-! ## Nodes and documents -/

structure NodeDraft where
  layer : Layer := {}
  children : List Node := []
  /-- The members that are not the node's own. -/
  kept : List (String × Json) := []

namespace NodeDraft

open Reader

def own {α : Type} (name : String) (r : Reader α) (set : α → Layer → Layer) : Field NodeDraft :=
  .defaulted name r fun v d => { d with layer := set v d.layer }

/-- The members of a node but for its layout. -/
def fields (readChildren : Source → Except Fault (List Node)) : List (Field NodeDraft) := [
  .needed "id" string fun id d => { d with layer := { d.layer with id } },
  own "name" string fun name l => { l with name },
  own "type" (name (some ∘ NodeKind.ofName)) fun kind l => { l with kind },
  .defaulted "children" (fun _ => readChildren) fun children d => { d with children },
  own "absoluteBoundingBox" (optional rect) fun box l => { l with box },
  own "fills" (list paint) fun fills l => { l with fills },
  own "strokes" (list paint) fun strokes l => { l with strokes },
  own "strokeWeight" (optional real) fun strokeWeight l => { l with strokeWeight },
  own "effects" (list effect) fun effects l => { l with effects },
  own "style" (optional typography) fun typography l => { l with typography },
  own "characters" (optional string) fun characters l => { l with characters },
  own "cornerRadius" (optional real) fun cornerRadius l => { l with cornerRadius },
  own "opacity" (optional real) fun opacity l => { l with opacity },
  own "constraints" (optional constraints) fun constraints l => { l with constraints },
  own "backgroundColor" (optional color) fun background l => { l with background }]

def keep (depth : Nat) (name : String) (s : Source) : Except Fault (NodeDraft → NodeDraft) :=
  (fun v d => { d with kept := d.kept ++ [(name, v)] }) <$> s.toJson depth

/-- The node, once its layout is found among the members kept. -/
def finish (d : NodeDraft) : Except Fault Node :=
  match Layout.ofMembers d.kept with
  | .ok layout => .ok (.node { d.layer with layout } d.children)
  | .error cause => .error (.mismatch cause)

/-- A node whose members may open `depth` levels. -/
def readNode (readChildren : Source → Except Fault (List Node)) (depth : Nat) :
    Source → Except Fault Node
  | .object members ending => do
    let draft ← RecordFormat.readObject (fields readChildren) (keep depth) {} depth members ending
    draft.finish
  | s => .error (s.wrongType "struct SceneNode")

end NodeDraft

namespace Reader

/-- A node with everything below it. -/
def node : Reader Node
  | 0 => fun s =>
    match s with
    | .object _ _ => .error .malformed
    | s => .error (s.wrongType "struct SceneNode")
  | 1 => NodeDraft.readNode (listOf none) 0
  | depth + 2 => NodeDraft.readNode (listOf (some (node depth))) (depth + 1)

/-- A document. -/
def document : Reader Document := RecordFormat.read {
  title := "struct SceneDocument"
  start := { root := .leaf {} }
  fields := [
    .defaulted "name" (optional string) fun name d => { d with name },
    .needed "document" node fun root d => { d with root },
    .defaulted "components" (map componentMeta) fun components d => { d with components }] }

/-- A whole text, in which nothing follows the value. -/
def wholeText {α : Type} (r : Reader α) (text : String) : Except Fault α := do
  let (source, trailing) := Source.readText text
  let v ← r maxDepth source
  trailing.forM throw
  return v

end Reader

def Node.ofText (text : String) : Except Fault Node :=
  Reader.wholeText Reader.node text

def Document.ofText (text : String) : Except Fault Document :=
  Reader.wholeText Reader.document text

end Handoff
