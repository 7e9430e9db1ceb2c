import LoreTree.Entry
import LoreTree.CommandLine.Path
/-!
A tree of files. A place is the list of names that leads to it from the top; whatever leads to a
place that holds something is a directory. A path leads to a place by its names and by the links that
it meets, and the system may deny what a run asks of it.
-/

namespace LoreTree

inductive Attribute
  | config (c : Config)
  | other

/-- The definitions of a script in order, each of which may fail. -/
abbrev Script :=
  List (String × Except Failure Attribute)

def Script.attributes (s : Script) : Except Failure (List (String × Attribute)) :=
  s.mapM fun (name, definition) => definition.map (name, ·)

inductive Node
  | directory
  | text (content : String)
  /-- The first bytes of a text, the rest of which could not be written. -/
  | cut (content : String) (bytes : Nat)
  | script (definitions : Script)
  | compiled (definitions : Script)
  | link (target : Path)

/-- What a node defines when it is loaded; only scripts define anything. -/
def Node.definitions : Node → Except Failure Script
  | .directory => .error .isADirectory
  | .script definitions => .ok definitions
  | .compiled _ => .error .notRunnable
  | _ => .ok []

def Node.compiledFailure (p : Path) : Node → Failure
  | .directory => if p.endsIn ".pyc" then .isADirectory else .notRunnable
  | _ => .notRunnable

abbrev Place :=
  List String

/-- What the system may deny: to go where a path leads, to read what is there, to make a directory
or to write a file. -/
inductive Access
  | reach
  | read
  | make
  | write

structure Files where
  /-- Where paths without a root start. -/
  workPlace : Place
  nodes : List (Place × Node)
  denies : Access → Path → Bool := fun _ _ => false
  /-- How many bytes of a text can be written to a file; all of them if no number is given. -/
  room : Path → Option Nat := fun _ => none

namespace Files

def node? (fs : Files) (place : Place) : Option Node :=
  if place.isPrefixOf fs.workPlace then some .directory
  else
    match fs.nodes.find? (·.1 = place) with
    | some (_, node) => some node
    | none => if fs.nodes.any (place.isPrefixOf ·.1) then some .directory else none

def put (fs : Files) (place : Place) (node : Node) : Files :=
  { fs with nodes := (place, node) :: fs.nodes.filter (·.1 ≠ place) }

def longestName : Nat := 255

def longestPath : Nat := 4095

def mostLinks : Nat := 40

def next (place : Place) (name : String) : Place :=
  if name = ".." then place.dropLast else place ++ [name]

/-- Where the names of a path start from, seen from a place. -/
def origin (place : Place) (p : Path) : Place :=
  if p.root = "" then place else []

/-- Goes through names up to the first link. What is done there is up to the caller, who is given the
place of the link, its target and the names after it. -/
def walk (fs : Files) (atLink : Place → Path → List String → Except Failure Place) :
    Place → List String → Except Failure Place
  | place, [] => .ok place
  | place, name :: rest =>
    match fs.node? place with
    | some .directory =>
      if longestName < name.utf8ByteSize then .error .nameTooLong
      else
        match fs.node? (next place name) with
        | some (.link target) => atLink (next place name) target rest
        | _ => fs.walk atLink (next place name) rest
    | some _ => .error .notADirectory
    | none => .error .fileMissing

/-- Goes through names and links; `last` says whether to go on from a link under the last name. -/
def follow (fs : Files) (last : Bool) : (links : Nat) → Place → List String → Except Failure Place
  | 0 => fs.walk fun link _ rest =>
    if rest.isEmpty && !last then .ok link else .error .tooManyLinks
  | links + 1 => fs.walk fun link target rest =>
    if rest.isEmpty && !last then .ok link
    else fs.follow last links (origin link.dropLast target) (target.parts ++ rest)

/-- The place that a path names. The character zero is in no name. -/
def locate (fs : Files) (p : Path) (last : Bool := true) : Except Failure Place :=
  if '\x00' ∈ p.text.toList then .error .nameInvalid
  else if longestPath < p.text.utf8ByteSize then .error .nameTooLong
  else if fs.denies .reach p then .error .denied
  else fs.follow last mostLinks (origin fs.workPlace p) p.parts

def look (fs : Files) (p : Path) : Except Failure (Option Node) :=
  match fs.locate p with
  | .ok place => .ok (fs.node? place)
  | .error .nameTooLong => .error .nameTooLong
  | .error .denied => .error .denied
  | .error _ => .ok none

def isDirectory (fs : Files) (p : Path) : Bool :=
  match fs.look p with
  | .ok (some .directory) => true
  | _ => false

def makeDirectory (fs : Files) (p : Path) : Except Failure Files := do
  let place ← fs.locate p false
  match fs.node? place with
  | some _ => throw .fileExists
  | none => if fs.denies .make p then throw .denied else return fs.put place .directory

def ensureDirectory (fs : Files) (p : Path) : Except Failure Files :=
  match fs.makeDirectory p with
  | .ok fs => .ok fs
  | .error .fileMissing => .error .fileMissing
  | .error f =>
    match fs.look p with
    | .ok (some .directory) => .ok fs
    | .ok _ => .error f
    | .error g => .error g

/-- Makes a directory and those above it, from the inside out: a parent is made only where the
directory itself cannot be. Directories that are made before a failure stay. -/
def ensureDirectories (fs : Files) (p : Path) : Files × Except Failure Unit :=
  match fs.ensureDirectory p with
  | .ok fs => (fs, .ok ())
  | .error .fileMissing =>
    if p.parts = [] then (fs, .error .fileMissing)
    else
      match fs.ensureDirectories p.parent with
      | (fs, .error f) => (fs, .error f)
      | (fs, .ok ()) =>
        match fs.ensureDirectory p with
        | .ok fs => (fs, .ok ())
        | .error f => (fs, .error f)
  | .error f => (fs, .error f)
termination_by p.parts.length
decreasing_by
  cases h : p.parts with
  | nil => contradiction
  | cons a as => simp [Path.parent, h]

/-- The place of the file that a path opens for writing, be it there or not. -/
def openFile (fs : Files) (p : Path) (last : Bool) : Except Failure Place := do
  let place ← fs.locate p last
  match fs.node? place with
  | some .directory => throw .isADirectory
  | _ => if fs.denies .write p then throw .denied else return place

/-- Writes a text to a file, which is emptied or made first. If it has no room for the whole text,
what has been written stays. -/
def write (fs : Files) (p : Path) (content : String) : Files × Except Failure Unit :=
  match fs.openFile p true with
  | .error f => (fs, .error f)
  | .ok place =>
    match (fs.room p).filter (· < content.utf8ByteSize) with
    | none => (fs.put place (.text content), .ok ())
    | some bytes => (fs.put place (.cut content bytes), .error .notWritten)

/-- A directory for what is to be kept; without it nothing is kept. -/
def keepDirectory (fs : Files) (p : Path) : Files :=
  if fs.isDirectory p then fs
  else
    match fs.makeDirectory p with
    | .ok made => made
    | .error _ => fs

/-- Puts the compiled form of a script where a path leads, in one piece and in place of a link too.
What cannot be done is left undone. -/
def keep (fs : Files) (p : Path) (definitions : Script) : Files :=
  let made := fs.keepDirectory p.parent
  match made.openFile p false with
  | .ok place => made.put place (.compiled definitions)
  | .error _ => made

end Files

end LoreTree
