import LoreTree.Proofs.CommandLine.Places
/-!
What a run can change in a tree of files. Making directories changes no file, writing changes the
file at the one place that a path leads to, and the path leads to it afterwards as it did before.
-/

namespace LoreTree.Files

/-- What is at a place if it is no directory: a file or a link. -/
def file? (fs : Files) (place : Place) : Option Node :=
  (fs.node? place).filter (!·.isDirectory)

/-- One tree of files is another one with some more directories. -/
structure Grows (before after : Files) : Prop where
  files : after.file? = before.file?
  room : after.room = before.room

/-- A path leads to a new file, and every other file is as it was before. -/
def Wrote (before : Files) (p : Path) (node : Node) (after : Files) : Prop :=
  ∃ place, after.locate p = .ok place ∧ after.node? place = some node ∧
    ∀ other, other ≠ place → after.file? other = before.file? other

/-- One tree of files is another one, or has a directory more where a path leads. -/
inductive Makes (before : Files) (p : Path) : Files → Prop
  | nothing : before.Makes p before
  | directory {place : Place} {after : Files} (leads : before.locate p false = .ok place)
      (absent : before.node? place = none) (sets : before.Sets place .directory after) :
      before.Makes p after

/-- A script was kept in compiled form, in one file and at most one new directory, or it was not. -/
inductive Keeps (before : Files) (p : Path) : Files → Prop
  | nothing {after : Files} (made : before.Makes p.parent after) : before.Keeps p after
  | script {place : Place} {made after : Files} {definitions : Script}
      (makes : before.Makes p.parent made) (leads : made.locate p false = .ok place)
      (free : made.node? place ≠ some .directory)
      (sets : made.Sets place (.compiled definitions) after) : before.Keeps p after

variable {fs made after : Files} {p : Path} {place other : Place} {node : Node} {last : Bool}

section Directories

theorem Grows.refl (fs : Files) : fs.Grows fs :=
  ⟨rfl, rfl⟩

theorem Grows.trans (first : fs.Grows made) (second : made.Grows after) : fs.Grows after :=
  ⟨second.files.trans first.files, second.room.trans first.room⟩

end Directories

section Failures

variable {f : Failure}

end Failures

section Writing

theorem Grows.wrote (grows : fs.Grows made) (wrote : made.Wrote p node after) :
    fs.Wrote p node after := by
  obtain ⟨place, leads, held, others⟩ := wrote
  refine ⟨place, leads, held, fun other ne => ?_⟩
  rw [others other ne, grows.files]

end Writing

end LoreTree.Files
