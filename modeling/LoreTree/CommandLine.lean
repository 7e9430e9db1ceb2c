import LoreTree.Build
import LoreTree.CommandLine.Files
import LoreTree.CommandLine.Arguments
import LoreTree.CommandLine.Help
/-!
The command line: `build` writes the lorebook of a script to a file, `show` prints it. A run starts
from a tree of files and gives a new one, with what was printed and logged.
-/

namespace LoreTree.CommandLine

structure World where
  files : Files
  environment : List (String × String) := []
  /-- The tag in the names of compiled scripts; without one the scripts that are loaded are not kept. -/
  tag : Option String := none
  /-- Whether what is kept of a script is up to date. -/
  fresh : Path → Bool := fun _ => false
  /-- Whether the output takes a line. -/
  prints : String → Bool := fun _ => true
  stdout : String := ""
  log : List LogLine := []

/-- A computation that may fail; what it did to the world before stays. -/
abbrev Session :=
  EStateM Failure World

def fail (f : Failure) : Session α :=
  throw f

def ofExcept : Except Failure α → Session α
  | .ok a => return a
  | .error f => throw f

def print (line : String) : Session Unit := do
  if !(← get).prints line then fail .notPrinted
  modify fun w => { w with stdout := w.stdout ++ line ++ "\n" }

/-- Lines for debugging are not kept. -/
def logLines (lines : List LogLine) : Session Unit :=
  modify fun w => { w with log := w.log ++ lines.filter (·.level ≠ .debug) }

def definitionsOf (script : Path) : Session Script := do
  match ← ofExcept ((← get).files.look script) with
  | none => fail (.notLoaded (.notFound script.text))
  | some node =>
    if script.isCompiled then fail (node.compiledFailure script)
    if !script.isScript then fail (.notLoaded (.notScript script.text))
    if (← get).files.denies .read script then fail .denied
    ofExcept node.definitions

def keep (script : Path) (definitions : Script) : Session Unit :=
  modify fun w =>
    match w.tag with
    | none => w
    | some tag =>
      if w.fresh script then w
      else { w with files := w.files.keep (script.compiled tag) definitions }

def configured (script : Path) (name : Option String) (definitions : Script) :
    Except Failure Config := do
  let defined ← definitions.attributes
  match name with
  | none => throw .mismatch
  | some name =>
    match Json.last? defined name with
    | some (.config c) => return c
    | _ => throw (.notLoaded (.notConfigured script.text name))

/-- Loads a script and looks for a configuration in it. The script is kept before it is run, whether
running it fails or not. -/
def load (script : Path) (name : Option String) : Session Config := do
  let definitions ← definitionsOf script
  keep script definitions
  ofExcept (configured script name definitions)

def buildFrom (c : Config) : Session Lorebook := do
  logLines c.build.log
  ofExcept c.build.result

def suffix : String :=
  ".lorebook"

def layout : Json.Layout :=
  .indented 2

def outputVariable : String :=
  "LOREBOOK_OUTPUT_DIR"

def writeLorebook (name : String) (l : Lorebook) (directory : Path) : Session Path := do
  let w ← get
  let (files, made) := w.files.ensureDirectories directory
  set { w with files }
  ofExcept made
  let path := directory.join (.ofString (name ++ suffix))
  let (files, written) := files.write path (l.toText layout)
  modify fun w => { w with files }
  ofExcept written
  logLines [⟨.info, "Wrote " ++ Decimal.natText l.records.length ++ " entries to " ++ path.text⟩]
  return path

def attributeOf (options : Options) : Option String :=
  (Json.last? options "--attr").getD (some "LOREBOOK")

def nameOf (options : Options) (script : Path) : String :=
  match (Json.last? options "--name").join with
  | none => script.stem
  | some name => if name = "" then script.stem else name

/-- The directory for the file; an option without a value names none. -/
def directoryOf (options : Options) (environment : List (String × String)) :
    Except Failure Path :=
  match Json.last? options "--output-dir" with
  | some (some d) => .ok (.ofString d)
  | some none => .error .mismatch
  | none => .ok (.ofString ((Json.last? environment outputVariable).getD "."))

def builtLine (path : Path) : String :=
  "✅ Built lorebook: " ++ path.text

def runBuild (script : Path) (options : Options) : Session Unit := do
  let c ← load script (attributeOf options)
  let l ← buildFrom c
  let directory ← ofExcept (directoryOf options (← get).environment)
  let path ← writeLorebook (nameOf options script) l directory
  print (builtLine path)

def runShow (script : Path) (options : Options) : Session Unit := do
  let c ← load script (attributeOf options)
  let l ← buildFrom c
  print (l.toText layout)

/-- Failures with a wording are logged and end the run with 1; the others end it by themselves. -/
def reported (run : Session Unit) : Session Nat := do
  try
    run
    return 0
  catch f =>
    match f.message? with
    | some m =>
      logLines [⟨.error, "Failed to build lorebook: " ++ m⟩]
      return 1
    | none => fail f

def run (args : List String) : Session Nat := do
  match parse args with
  | .usageError => return 2
  | .help command =>
    print (helpFor command)
    return 0
  | .run .build script options => reported (runBuild (.ofString script) options)
  | .run .show script options => reported (runShow (.ofString script) options)

end LoreTree.CommandLine
