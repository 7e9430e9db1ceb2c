import LoreTree.CommandLine
/-!
The name of the file that a run writes. A stem has no slash in it, so a file that is named after its
script lies in the output directory itself, wherever the script is.
-/

namespace LoreTree

namespace Path

end Path

namespace CommandLine

def outputFile (directory : Path) (options : Options) (script : Path) : Path :=
  directory.join (.ofString (nameOf options script ++ suffix))

def Options.unnamed (options : Options) : Prop :=
  (Json.last? options "--name").join = none ∨ (Json.last? options "--name").join = some ""

end CommandLine

end LoreTree
