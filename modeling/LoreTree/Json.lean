import LoreTree.Binary64.Shortest
/-!
Data of documents. Integers have any size, other numbers have double precision and need not be
finite, members keep their order, and of members with one name the last one counts.
-/

namespace LoreTree

inductive Json
  | null
  | bool (b : Bool)
  | int (n : Int)
  | float (x : Binary64)
  | text (s : String)
  | array (items : List Json)
  | object (members : List (String × Json))

namespace Json

def nullWord : List Char :=
  ['n', 'u', 'l', 'l']

def trueWord : List Char :=
  ['t', 'r', 'u', 'e']

def falseWord : List Char :=
  ['f', 'a', 'l', 's', 'e']

def nanWord : List Char :=
  ['N', 'a', 'N']

def infinityWord : List Char :=
  ['I', 'n', 'f', 'i', 'n', 'i', 't', 'y']

def last? (members : List (String × α)) (name : String) : Option α :=
  (members.reverse.find? (·.1 = name)).map (·.2)

def get? (name : String) : Json → Option Json
  | .object members => last? members name
  | _ => none

end Json

end LoreTree
