import LoreTree.Declaration.Config
import LoreTree.CommandLine.Files
/-!
Declarations of scripts: an object with a definition under every name.
-/

namespace LoreTree.Declaration

/-- A definition is a configuration, or a value that is none. -/
def definition (j : Json) : Except Failure Attribute :=
  match j.get? "config", j.get? "value" with
  | some c, _ => Attribute.config <$> config c
  | none, some v => do
    let _ ← value v
    return .other
  | none, none => .error .malformed

def script (definitions : List (String × Json)) : Script :=
  definitions.map fun (name, j) => (name, definition j)

def scriptOfText? (s : String) : Option Script :=
  match Json.ofString? {} s with
  | some (.object definitions) => some (script definitions)
  | _ => none

end LoreTree.Declaration
