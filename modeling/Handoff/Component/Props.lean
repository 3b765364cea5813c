import Handoff.Classification
/-!
# Props of a component

What a component can be given depends on what it is used for. All props are optional.
-/
namespace Handoff

structure PropSpec where
  name : String
  type : String
deriving DecidableEq, Inhabited

namespace PropSpec

/-- The props of a component with that classification. -/
def ofVerdict (v : Verdict) : List PropSpec :=
  let click := if v.isInteractive then [⟨"onClick", "() => void"⟩] else []
  let particular := match v.category with
    | .button => [⟨"disabled", "boolean"⟩, ⟨"variant", "'primary' | 'secondary' | 'outline'"⟩]
    | .input => [⟨"value", "string"⟩, ⟨"onChange", "(value: string) => void"⟩,
        ⟨"placeholder", "string"⟩]
    | _ => []
  ⟨"className", "string"⟩ :: click ++ particular

/-- The type of a component's props, without a line feed at its end. -/
def interfaceText (component : String) (props : List PropSpec) : String :=
  let lines := ("interface " ++ component ++ "Props \x7b") ::
    props.map (fun p => "  " ++ p.name ++ "?: " ++ p.type ++ ";") ++ ["\x7d"]
  String.intercalate "\n" lines

/-- A file that only declares the type of a component's props. -/
def declarationFile (component : String) (props : List PropSpec) : String :=
  "export " ++ interfaceText component props ++ "\n"

end PropSpec
end Handoff
