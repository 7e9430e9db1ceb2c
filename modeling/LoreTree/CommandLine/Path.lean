/-!
Paths as they are written. Empty components and single dots are dropped, double dots stay; two
paths that are written alike name the same place.
-/

namespace LoreTree

structure Path where
  root : String
  parts : List String
  deriving DecidableEq

namespace Path

def pieces : List Char → List (List Char)
  | [] => [[]]
  | c :: cs =>
    if c = '/' then [] :: pieces cs
    else
      match pieces cs with
      | [] => [[c]]
      | p :: ps => (c :: p) :: ps

/-- Exactly two slashes at the start are a root of their own; any other number counts as one. -/
def rootOf (cs : List Char) : String :=
  match (cs.takeWhile (· = '/')).length with
  | 0 => ""
  | 2 => "//"
  | _ => "/"

def ofString (s : String) : Path where
  root := rootOf s.toList
  parts := ((pieces s.toList).filter fun p => p ≠ [] ∧ p ≠ ['.']).map String.ofList

/-- The path from inside another one; a path with a root replaces it. -/
def join (a b : Path) : Path :=
  if b.root = "" then ⟨a.root, a.parts ++ b.parts⟩ else b

def parent (p : Path) : Path :=
  { p with parts := p.parts.dropLast }

def text (p : Path) : String :=
  if p.root = "" ∧ p.parts = [] then "." else p.root ++ String.intercalate "/" p.parts

def name (p : Path) : String :=
  p.parts.getLast?.getD ""

/-- A name without its suffix, which starts at the last dot unless that is the first or the last
character. -/
def stemChars (cs : List Char) : List Char :=
  let tail := cs.reverse.takeWhile (· ≠ '.')
  let head := cs.take (cs.length - tail.length - 1)
  if '.' ∈ cs ∧ tail ≠ [] ∧ head ≠ [] then head else cs

def stem (p : Path) : String :=
  String.ofList (stemChars p.name.toList)

def endsIn (p : Path) (ending : String) : Bool :=
  ending.toList.isSuffixOf p.text.toList

def isScript (p : Path) : Bool :=
  p.endsIn ".py"

def isCompiled (p : Path) : Bool :=
  p.endsIn ".pyc" || p.endsIn ".so"

/-- The name under which the compiled form of a script is kept: the script's own, with a tag in it. -/
def compiledName (script : Path) (tag : String) : String :=
  let base := script.name.toList.take (script.name.length - 3)
  (if base = [] then "py" else String.ofList base) ++ "." ++ tag ++ ".pyc"

/-- Where the compiled form of a script is kept, in a directory beside the script. -/
def compiled (script : Path) (tag : String) : Path :=
  script.parent.join ⟨"", ["__pycache__", script.compiledName tag]⟩

end Path

end LoreTree
