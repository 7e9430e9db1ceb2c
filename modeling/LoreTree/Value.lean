import LoreTree.Binary64.Shortest
import LoreTree.Operator
import LoreTree.Text.Quoted
/-!
The values that authors write where a phrase, a distance or a setting is expected. Any value may
stand anywhere; what reads it decides whether it fits.
-/

namespace LoreTree

inductive Value
  | null
  | bool (b : Bool)
  | int (n : Int)
  | float (x : Binary64)
  | text (s : String)
  | list (items : List Value)
  | tuple (items : List Value)
  | dict (members : List (String × Value))
  /-- A pattern that was compiled elsewhere, with the letters of its flags. -/
  | native (source : String) (flags : List Char)
  | fragment (f : Fragment)
  | operator (o : Operator)

namespace Value

/-- A value counts as true unless it is nothing, zero or empty. -/
def isTrue : Value → Bool
  | .null => false
  | .bool b => b
  | .int n => n ≠ 0
  | .float x => !x.isZero
  | .text s => s ≠ ""
  | .list items => !items.isEmpty
  | .tuple items => !items.isEmpty
  | .dict members => !members.isEmpty
  | .native .. => true
  | .fragment _ => true
  | .operator _ => true

def flagNames : List (Char × String) :=
  [('t', "re.TEMPLATE"), ('i', "re.IGNORECASE"), ('m', "re.MULTILINE"), ('s', "re.DOTALL"),
   ('x', "re.VERBOSE"), ('a', "re.ASCII")]

def flagLetters : List Char :=
  'u' :: flagNames.map (·.1)

/-- The blanks that a pattern may hold between its parts once the flag `x` is set. -/
def patternBlanks : List Char :=
  [' ', '\t', '\n', '\r', '\x0b', '\x0c']

inductive Opening
  | between
  /-- In a group that may turn out to be one of flags; the letters read so far. -/
  | flags (read : List Char)
  | comment
  /-- In a comment that ends with its line; the flag `x` allows them. -/
  | remark

/-- The flags that a pattern sets for the whole of itself, added to those set so far. They stand in
its opening, which holds groups of flags, comments and, once `x` is set, blanks. In a comment a
backslash takes the next character with it. -/
def ownFlags : Opening → (set : List Char) → List Char → List Char
  | _, set, [] => set
  | .between, set, '(' :: '?' :: '#' :: rest => ownFlags .comment set rest
  | .between, set, '(' :: '?' :: rest => ownFlags (.flags []) set rest
  | .between, set, c :: rest =>
    if 'x' ∉ set then set
    else if c ∈ patternBlanks then ownFlags .between set rest
    else if c = '#' then ownFlags .remark set rest
    else set
  | .flags read, set, c :: rest =>
    if c = ')' then ownFlags .between (set ++ read) rest
    else if c ∈ flagLetters then ownFlags (.flags (read ++ [c])) set rest
    else set
  | .comment, set, '\\' :: _ :: rest => ownFlags .comment set rest
  | .comment, set, c :: rest => ownFlags (if c = ')' then .between else .comment) set rest
  | .remark, set, '\\' :: _ :: rest => ownFlags .remark set rest
  | .remark, set, c :: rest => ownFlags (if c = '\n' then .between else .remark) set rest

/-- At most this many characters of a compiled pattern's source are shown. -/
def shownSource : Nat := 200

def displayNative (source : String) (flags : List Char) : String :=
  let set := ownFlags .between flags source.toList
  let names := flagNames.filterMap (fun (c, name) => if c ∈ set then some name else none)
  let shown := String.ofList ((Text.quoted source).toList.take shownSource)
  let tail := if names.isEmpty then "" else ", " ++ String.intercalate "|" names
  "re.compile(" ++ shown ++ tail ++ ")"

def displayTuple : List String → String
  | [one] => "(" ++ one ++ ",)"
  | all => "(" ++ String.intercalate ", " all ++ ")"

mutual

def display : Value → String
  | .null => "None"
  | .bool b => if b then "True" else "False"
  | .int n => Decimal.intText n
  | .float x => Binary64.plain.text x
  | .text s => Text.quoted s
  | .list items => "[" ++ String.intercalate ", " (displayAll items) ++ "]"
  | .tuple items => displayTuple (displayAll items)
  | .dict members => "\x7b" ++ String.intercalate ", " (displayMembers members) ++ "\x7d"
  | .native source flags => displayNative source flags
  | .fragment f => "EscapedPhrase(pattern=" ++ Text.quoted f.text ++ ")"
  | .operator o => if o.takesOptions then "ExtendedOperator(" ++ o.name ++ ")" else o.name

def displayAll : List Value → List String
  | [] => []
  | v :: vs => v.display :: displayAll vs

def displayMembers : List (String × Value) → List String
  | [] => []
  | (name, v) :: rest => (Text.quoted name ++ ": " ++ v.display) :: displayMembers rest

end

/-- An integer with more digits is not shown. -/
def mostDigits : Nat := 4300

mutual

/-- Whether a value can be shown: one integer with too many digits in it is enough to prevent that. -/
def isShowable : Value → Bool
  | .int n => (Decimal.digits n.natAbs).length ≤ mostDigits
  | .list items => allShowable items
  | .tuple items => allShowable items
  | .dict members => membersShowable members
  | _ => true

def allShowable : List Value → Bool
  | [] => true
  | v :: vs => v.isShowable && allShowable vs

def membersShowable : List (String × Value) → Bool
  | [] => true
  | (_, v) :: rest => v.isShowable && membersShowable rest

end

end Value

end LoreTree
