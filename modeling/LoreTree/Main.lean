import LoreTree.CommandLine
import LoreTree.Declaration.Script
/-!
The program: it looks at the places on the disk that a run may touch, runs, and then makes on the
disk the changes that the run made in its tree of files.
-/

namespace LoreTree.Program

def diskPath (place : Place) : String :=
  "/" ++ String.intercalate "/" place

/-- The places that following names from a place passes through, and where it ends. -/
def trail : Place → List String → List Place
  | place, [] => [place]
  | place, name :: rest => place :: trail (if name = ".." then place.dropLast else place ++ [name]) rest

def placesOf (workPlace : Place) (p : Path) : List Place :=
  trail (if p.root = "" then workPlace else []) p.parts

def pathsOf (environment : List (String × String)) : CommandLine.Request → List Path
  | .run command script options =>
    let script := Path.ofString script
    let file := Path.ofString (CommandLine.nameOf options script ++ CommandLine.suffix)
    match command, CommandLine.directoryOf options environment with
    | .build, .ok directory => [script, directory, directory.join file]
    | _, _ => [script]
  | _ => []

/-- What is on the disk at a place. A text that declares a script is one. -/
def nodeAt (place : Place) : IO (Option Node) := do
  let path ← IO.FS.realPath "/"
  let path := path / String.intercalate "/" place
  if !(← path.pathExists) then return none
  if ← path.isDir then return some .directory
  let text ← try IO.FS.readFile path catch _ => pure ""
  match Declaration.scriptOfText? text with
  | some script => return some (.script script)
  | none => return some (.text text)

def snapshot (workPlace : Place) (places : List Place) : IO Files := do
  let mut nodes := []
  for place in places.eraseDups do
    if let some node ← nodeAt place then nodes := (place, node) :: nodes
  return { workPlace, nodes := nodes.reverse }

/-- Makes the changes that a run made: directories from the outside in, then texts. -/
def commit (before after : Files) : IO Unit := do
  for (place, node) in after.nodes.reverse do
    match node, before.node? place with
    | .directory, none => IO.FS.createDirAll (diskPath place)
    | .text new, some (.text old) => if new ≠ old then IO.FS.writeFile (diskPath place) new
    | .text new, _ => IO.FS.writeFile (diskPath place) new
    | _, _ => pure ()

def describe : Failure → String
  | .refused faults => "refused: " ++ String.intercalate ", " (faults.map (·.rule.name))
  | .mismatch => "a value of the wrong kind"
  | .malformed => "a malformed declaration"
  | .tooLarge => "an integer that is too large"
  | .notShowable => "an integer with too many digits to be shown"
  | .unnamed => "a preset without a name"
  | .fileExists => "the file exists"
  | .notADirectory => "not a directory"
  | .isADirectory => "is a directory"
  | .fileMissing => "no such file or directory"
  | .nameTooLong => "a name that is too long"
  | .nameInvalid => "a name that no file can have"
  | .tooManyLinks => "too many links"
  | .denied => "permission denied"
  | .notWritten => "no room for the file"
  | .notPrinted => "a line that cannot be printed"
  | .notRunnable => "a script that cannot be run"
  | f => f.message?.getD ""

def finish (before : Files) (w : CommandLine.World) : IO Unit := do
  commit before w.files
  for line in w.log do
    IO.eprintln line.message
  IO.print w.stdout

end LoreTree.Program

open LoreTree LoreTree.Program in
def main (args : List String) : IO UInt32 := do
  let here ← IO.currentDir
  let workPlace := (Path.ofString here.toString).parts
  let directory ← IO.getEnv CommandLine.outputVariable
  let environment := (directory.map fun v => (CommandLine.outputVariable, v)).toList
  let paths := pathsOf environment (CommandLine.parse args)
  let files ← snapshot workPlace (paths.flatMap (placesOf workPlace))
  match CommandLine.run args { files, environment } with
  | .ok code w =>
    finish files w
    return code.toUInt32
  | .error f w =>
    finish files w
    IO.eprintln (describe f)
    return 1
