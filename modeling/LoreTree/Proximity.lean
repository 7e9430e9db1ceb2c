import LoreTree.Phrase
/-!
Distances in words, and calls of operators. A distance is a number of words or a pair of bounds;
reading it gives a range with its bounds in order.
-/

namespace LoreTree

/-- The greatest integer that is no larger than a number; none for what is no finite number. -/
def Value.whole? : Value → Except Failure (Option Int)
  | .int n => if (Binary64.ofInt? n).isSome then .ok (some n) else .error .tooLarge
  | .float x => .ok x.floor?
  | _ => .ok none

def Value.pair? : Value → Option (Value × Value)
  | .list [a, b] => some (a, b)
  | .tuple [a, b] => some (a, b)
  | _ => none

namespace Proximity

structure Range where
  low : Nat
  high : Nat
  low_le_high : low ≤ high := by omega

/-- Two bounds in either order; negative ones count as zero. -/
def Range.between (a b : Int) : Range where
  low := min a.toNat b.toNat
  high := max a.toNat b.toNat

def Range.upTo (n : Int) : Range where
  low := 0
  high := n.toNat

/-- Reads a distance; the second bound of a pair is looked at only if the first is a number. -/
def range (v : Value) : Except Failure Range := do
  match ← v.whole? with
  | some n => return .upTo n
  | none =>
    match v.pair? with
    | none => throw (.showing .notADistance v)
    | some (a, b) =>
      match ← a.whole? with
      | none => throw (.showing .notADistance v)
      | some low =>
        match ← b.whole? with
        | none => throw (.showing .notADistance v)
        | some high => return .between low high

end Proximity

namespace Operator

structure Options where
  distance : Value := .int defaultDistance
  sameLine : Value := .bool true

def Options.named (o : Options) : List (String × Value) → Except Failure Options
  | [] => .ok o
  | (name, v) :: rest =>
    if rest.any (·.1 = name) then .error .mismatch
    else if name = "distance" then Options.named { o with distance := v } rest
    else if name = "same_line" then Options.named { o with sameLine := v } rest
    else .error .mismatch

/-- The options of a call: at most two by place, and by name those that have no place. -/
def Options.ofCall (places : List Value) (names : List (String × Value)) : Except Failure Options :=
  let taken (name : String) : Bool := names.any (·.1 = name)
  match places with
  | [] => Options.named {} names
  | [d] => if taken "distance" then .error .mismatch else Options.named { distance := d } names
  | [d, s] => if names.isEmpty then .ok ⟨d, s⟩ else .error .mismatch
  | _ => .error .mismatch

/-- Gives `near` or `beyond` its options; no other operator takes any. -/
def configure (op : Operator) (o : Options) : Except Failure Operator :=
  match op with
  | .near => do
    let r ← Proximity.range o.distance
    return within r.low r.high o.sameLine.isTrue
  | .beyond => do
    let r ← Proximity.range o.distance
    return past r.high o.sameLine.isTrue
  | _ => .error .mismatch

/-- The result of calling an operator: options make an operator, phrases make a fragment. -/
def call (op : Operator) (arguments : List Value) : Except Failure Value :=
  match op, arguments with
  | .alternation, vs => Value.fragment <$> Phrase.anyOf (vs.map Phrase.ofValue)
  | .relation presence gap, [left, right] => do
    let l ← (Phrase.ofValue left).compile
    let r ← (Phrase.ofValue right).compile
    return .fragment (.relate presence gap l r)
  | .near, vs => do return .operator (← configure .near (← Options.ofCall vs []))
  | .beyond, vs => do return .operator (← configure .beyond (← Options.ofCall vs []))
  | .exact, [.text word] => .ok (.fragment (.exact word.toList))
  | _, _ => .error .mismatch

end Operator

end LoreTree
