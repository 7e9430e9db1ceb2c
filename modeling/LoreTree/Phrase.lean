import LoreTree.Failure
/-!
Phrases: what an author may use as a key. A phrase is compiled to one fragment; an expression
compiles its two sides first and then joins them with its operator.
-/

namespace LoreTree

inductive Phrase
  | word (text : String)
  | native (source : String)
  | fragment (f : Fragment)
  | expression (left : Phrase) (op : Operator) (right : Phrase)
  /-- Three values in a row without an operator between them. -/
  | unjoined (left right : Phrase)
  | foreign

namespace Value

def isKey : Value → Bool
  | .text s => (Fragment.ofKey? s.toList).isSome
  | _ => false

def isFragment : Value → Bool
  | .fragment _ => true
  | _ => false

def isExpression : Value → Bool
  | .list [_, .operator _, _] => true
  | .tuple [_, .operator _, _] => true
  | _ => false

def takesOptions : Value → Bool
  | .operator op => op.takesOptions
  | _ => false

end Value

namespace Phrase

/-- Reads a value as a phrase; a list or tuple of three is an expression if an operator is in the middle. -/
def ofValue : Value → Phrase
  | .text s => .word s
  | .native source _ => .native source
  | .fragment f => .fragment f
  | .list [left, .operator op, right] => .expression (ofValue left) op (ofValue right)
  | .tuple [left, .operator op, right] => .expression (ofValue left) op (ofValue right)
  | .list [left, _, right] => .unjoined (ofValue left) (ofValue right)
  | .tuple [left, _, right] => .unjoined (ofValue left) (ofValue right)
  | _ => .foreign

def join (op : Operator) (left right : Fragment) : Except Failure Fragment :=
  match op.combine? left right with
  | some f => .ok f
  | none => .error .mismatch

/-- The fragment of a phrase. A plain word may be followed by more letters. -/
def compile : Phrase → Except Failure Fragment
  | .word s => .ok (.startsWith s.toList)
  | .native source => .ok ⟨source.toList⟩
  | .fragment f => .ok f
  | .expression left op right => do
    let l ← left.compile
    let r ← right.compile
    join op l r
  | .unjoined .. => .error .mismatch
  | .foreign => .error .mismatch

def compileAll (phrases : List Phrase) : Except Failure (List Fragment) :=
  phrases.mapM compile

def anyOf (phrases : List Phrase) : Except Failure Fragment :=
  .alternation <$> compileAll phrases

end Phrase

end LoreTree
