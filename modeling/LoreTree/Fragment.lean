/-!
Pattern text that can be placed inside larger patterns. A keyword becomes a fragment by escaping
every character that has a meaning in patterns and by saying where a word may begin and end.
-/

namespace LoreTree

structure Fragment where
  chars : List Char
  deriving DecidableEq

namespace Fragment

def text (f : Fragment) : String :=
  String.ofList f.chars

def specials : List Char :=
  ['.', '*', '+', '?', '^', '$', '{', '}', '(', ')', '|', '[', ']', '\\']

def isSpecial (c : Char) : Bool :=
  specials.contains c

def escape (cs : List Char) : List Char :=
  cs.flatMap (fun c => if isSpecial c then ['\\', c] else [c])

def boundary : List Char :=
  ['\\', 'b']

/-- Any run of word characters, as short as possible. -/
def openRun : List Char :=
  ['\\', 'w', '*', '?']

/-- The opening of a group that only holds its parts together. -/
def together : List Char :=
  ['(', '?', ':']

def group (opening body : List Char) : List Char :=
  opening ++ body ++ [')']

def exact (word : List Char) : Fragment :=
  ⟨boundary ++ escape word ++ boundary⟩

def startsWith (word : List Char) : Fragment :=
  ⟨boundary ++ escape word⟩

def endsWith (word : List Char) : Fragment :=
  ⟨openRun ++ escape word ++ boundary⟩

def contains (word : List Char) : Fragment :=
  ⟨openRun ++ escape word⟩

def alternation (fs : List Fragment) : Fragment :=
  ⟨group together (List.intercalate ['|'] (fs.map chars))⟩

/-- The key under which a lorebook stores a fragment. -/
def keyChars (f : Fragment) : List Char :=
  '/' :: f.chars ++ ['/', 'i']

def key (f : Fragment) : String :=
  String.ofList f.keyChars

/-- The letters that may follow the closing slash of a key. -/
def isFlag (c : Char) : Bool :=
  ['i', 's', 'm', 'u'].contains c

/-- A key closes at its last slash, has only flags after it and no line break before it. -/
def ofKey? : List Char → Option Fragment
  | '/' :: rest =>
    let flags := rest.reverse.takeWhile (· ≠ '/')
    match rest.reverse.dropWhile (· ≠ '/') with
    | _ :: body => if flags.all isFlag ∧ '\n' ∉ body then some ⟨body.reverse⟩ else none
    | [] => none
  | _ => none

end Fragment

end LoreTree
