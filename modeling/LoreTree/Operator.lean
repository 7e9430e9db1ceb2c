import LoreTree.Fragment
import LoreTree.Decimal
/-!
Operators that join fragments. The matched text is always that of the left fragment; the right one
is only looked for ahead of it or behind it, across a gap.
-/

namespace LoreTree

inductive Gap
  | document
  | line
  /-- Between `low` and `high` words, on one line or across lines. -/
  | words (low high : Nat) (sameLine : Bool)
  deriving DecidableEq

inductive Presence
  | present
  | absent
  deriving DecidableEq

/-- `near` and `beyond` still wait for a distance; `exact` takes one keyword and joins nothing. -/
inductive Operator
  | alternation
  | relation (presence : Presence) (gap : Gap)
  | near
  | beyond
  | exact
  deriving DecidableEq

namespace Gap

def anything : List Char :=
  ['[', '\\', 's', '\\', 'S', ']', '*', '?']

/-- Any characters up to the end of the line, as few as possible. -/
def anythingOnLine : List Char :=
  ['.', '*', '?']

def notWord : List Char :=
  ['\\', 'W']

def notWordNorLineBreak : List Char :=
  ['[', '^', '\\', 'w', '\\', 'n', ']']

def separator (sameLine : Bool) : List Char :=
  if sameLine then notWordNorLineBreak else notWord

def nextWord (sameLine : Bool) : List Char :=
  Fragment.group Fragment.together (separator sameLine ++ ['+', '\\', 'w', '+'])

def times (low high : Nat) : List Char :=
  '{' :: Decimal.digits low ++ ',' :: Decimal.digits high ++ ['}', '?']

def chars : Gap → List Char
  | .document => anything
  | .line => anythingOnLine
  | .words low high sameLine => nextWord sameLine ++ times low high ++ notWord ++ ['+']

end Gap

namespace Fragment

/-- The openings of the groups that look at what is around without matching it. -/
def ahead : List Char :=
  ['(', '?', '=']

def behind : List Char :=
  ['(', '?', '<', '=']

def notAhead : List Char :=
  ['(', '?', '!']

def notBehind : List Char :=
  ['(', '?', '<', '!']

/-- The left fragment where the right one is found, or is not found, on either side of it. -/
def relate (presence : Presence) (gap : Gap) (left right : Fragment) : Fragment :=
  let after := gap.chars ++ right.chars
  let before := right.chars ++ gap.chars ++ left.chars
  match presence with
  | .present => ⟨left.chars ++ group together (group ahead after ++ '|' :: group behind before)⟩
  | .absent => ⟨left.chars ++ group notAhead after ++ group notBehind before⟩

end Fragment

namespace Operator

def and : Operator := .relation .present .document

def excluding : Operator := .relation .absent .document

def alongside : Operator := .relation .present .line

def without : Operator := .relation .absent .line

def defaultDistance : Nat := 10

def within (low high : Nat) (sameLine : Bool) : Operator :=
  .relation .present (.words low high sameLine)

def past (high : Nat) (sameLine : Bool) : Operator :=
  .relation .absent (.words 0 high sameLine)

/-- An operator that still waits for a distance takes the default. -/
def settled : Operator → Operator
  | .near => within 0 defaultDistance true
  | .beyond => past defaultDistance true
  | o => o

def combine? (o : Operator) (left right : Fragment) : Option Fragment :=
  match o.settled with
  | .alternation => some (.alternation [left, right])
  | .relation presence gap => some (.relate presence gap left right)
  | _ => none

def takesOptions : Operator → Bool
  | .near => true
  | .beyond => true
  | _ => false

def name : Operator → String
  | .alternation => "ALT"
  | .relation .present .document => "AND"
  | .relation .absent .document => "EXCLUDING"
  | .relation .present .line => "WITH"
  | .relation .absent .line => "WITHOUT"
  | .relation .present (.words ..) => "NEAR"
  | .relation .absent (.words ..) => "BEYOND"
  | .near => "NEAR"
  | .beyond => "BEYOND"
  | .exact => "LIT"

def ofName? (s : String) : Option Operator :=
  [alternation, and, excluding, alongside, without, near, beyond, exact].find? (·.name = s)

end Operator

end LoreTree
