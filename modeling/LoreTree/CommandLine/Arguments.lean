import LoreTree.Text.Digit
/-!
Reading the words of a command line. Options may stand anywhere after the command, may be shortened
as long as they stay unambiguous, and take their value from the next word or after an equals sign;
the last one counts. A double dash ends the options; after an equals sign it stands for no value.
-/

namespace LoreTree.CommandLine

inductive Command
  | build
  | show
  deriving DecidableEq

/-- The options that were given, in order; one without a value was given a double dash. -/
abbrev Options :=
  List (String × Option String)

inductive Request
  | help (command : Option Command)
  | usageError
  | run (command : Command) (script : String) (options : Options)
  deriving DecidableEq

def Command.name : Command → String
  | .build => "build"
  | .show => "show"

def Command.ofName? (s : String) : Option Command :=
  [Command.build, .show].find? (·.name = s)

def Command.options : Command → List String
  | .build => ["--name", "--output-dir", "--attr"]
  | .show => ["--attr"]

inductive Word
  | plain (s : String)
  /-- A call for help, which is no good if something hangs on it that it cannot take. -/
  | help (good : Bool)
  | option (name : String) (value : Option String)
  | unknown
  | dashes
  deriving DecidableEq

/-- The parts before and after the first equals sign. -/
def atEquals (cs : List Char) : List Char × Option (List Char) :=
  match cs.dropWhile (· ≠ '=') with
  | [] => (cs, none)
  | _ :: rest => (cs.takeWhile (· ≠ '='), some rest)

def someDigits (cs : List Char) : Bool :=
  !cs.isEmpty && cs.all Text.isDigit

/-- Numbers below zero are no options; a line break may follow them. -/
def isNegativeNumber (cs : List Char) : Bool :=
  match if cs.getLast? = some '\n' then cs.dropLast else cs with
  | '-' :: cs =>
    someDigits cs ||
      (match cs.dropWhile Text.isDigit with
       | '.' :: rest => someDigits rest
       | _ => false)
  | _ => false

/-- Only the letter of the short call for help may hang on it, any number of times. -/
def helpTail (cs : List Char) : Bool :=
  !cs.isEmpty && cs.all (· = 'h')

def Word.ofOption (name : String) (value : Option (List Char)) : Word :=
  if name = "--help" then .help value.isNone
  else if name = "-h" then .help (value.all helpTail)
  else .option name (value.map String.ofList)

def Word.ofDashed (s : String) : Word :=
  if isNegativeNumber s.toList || ' ' ∈ s.toList then .plain s else .unknown

/-- The word that a text stands for among options; none if it could be several options. -/
def Word.ofString? (options : List String) (s : String) : Option Word :=
  let cs := s.toList
  let known := "--help" :: options
  let (head, value) := atEquals cs
  let named := String.ofList head
  if cs.head? ≠ some '-' ∨ s = "-" then some (.plain s)
  else if s ∈ "-h" :: known then some (.ofOption s none)
  else if named ∈ "-h" :: known then some (.ofOption named value)
  else if "--".toList.isPrefixOf cs then
    match known.filter (head.isPrefixOf ·.toList) with
    | [] => some (.ofDashed s)
    | [name] => some (.ofOption name value)
    | _ => none
  else if "-h".toList.isPrefixOf cs then some (.help (helpTail (cs.drop 2)))
  else some (.ofDashed s)

/-- The words up to a double dash, and plain ones after it. -/
def words? (options : List String) : List String → Option (List Word)
  | [] => some []
  | "--" :: rest => some (.dashes :: rest.map .plain)
  | s :: rest => do
    let w ← Word.ofString? options s
    let ws ← words? options rest
    return w :: ws

structure Parsed where
  script : Option String := none
  options : Options := []
  surplus : Bool := false
  /-- The word just read was the script. -/
  atScript : Bool := false

namespace Parsed

def option (p : Parsed) (name value : String) : Parsed :=
  let given := if value = "--" then none else some value
  { p with options := p.options ++ [(name, given)], atScript := false }

/-- The first plain word is the script; there is no place for others. -/
def plain (p : Parsed) (s : String) : Parsed :=
  match p.script with
  | none => { p with script := some s, atScript := true }
  | some _ => { p with surplus := true, atScript := false }

/-- A double dash may stand anywhere before the script and directly after it. -/
def dashes (p : Parsed) : Parsed :=
  { p with surplus := p.surplus || (p.script.isSome && !p.atScript), atScript := false }

end Parsed

def finish (command : Command) : Parsed → List Word → Request
  | p, [] =>
    match p.script with
    | some script => if p.surplus then .usageError else .run command script p.options
    | none => .usageError
  | _, .help good :: _ => if good then .help (some command) else .usageError
  | p, .option name (some value) :: ws => finish command (p.option name value) ws
  | p, .option name none :: .plain value :: ws => finish command (p.option name value) ws
  | _, .option _ none :: _ => .usageError
  | p, .unknown :: ws => finish command { p with surplus := true, atScript := false } ws
  | p, .plain s :: ws => finish command (p.plain s) ws
  | p, .dashes :: ws => finish command p.dashes ws

def parseCommand (surplus : Bool) (command : Command) (args : List String) : Request :=
  match words? command.options args with
  | none => .usageError
  | some ws => finish command { surplus } ws

/-- Reads all words; options before the command can only ask for help. -/
def parseFrom (surplus : Bool) : List String → Request
  | [] => if surplus then .usageError else .help none
  | "--" :: _ => .usageError
  | s :: rest =>
    match Word.ofString? [] s with
    | some (.help good) => if good then .help none else .usageError
    | some (.plain name) =>
      match Command.ofName? name with
      | some command => parseCommand surplus command rest
      | none => .usageError
    | some _ => parseFrom true rest
    | none => .usageError

def parse (args : List String) : Request :=
  parseFrom false args

end LoreTree.CommandLine
