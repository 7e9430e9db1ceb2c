import LoreTree.Decimal
/-!
Double precision numbers as exact values: a finite number is a signed natural mantissa times a
power of two. Every operation computes exactly and then rounds once, to the nearest number and to
the even mantissa in a tie.
-/

namespace LoreTree

/-- A double precision number; a finite one is `± mantissa * 2 ^ exponent`. -/
inductive Binary64
  | nan
  | infinite (negative : Bool)
  | finite (negative : Bool) (mantissa : Nat) (exponent : Int)
  deriving DecidableEq

namespace Binary64

def leastExponent : Int := -1074

def greatestExponent : Int := 971

def mantissaLimit : Nat :=
  Nat.pow 2 53

def powerOf (base : Nat) (e : Int) : Nat :=
  Nat.pow base e.toNat

def zero (negative : Bool) : Binary64 :=
  .finite negative 0 leastExponent

/-- The quotient of two numbers, rounded to the nearest integer and to even in a tie. -/
def nearestQuotient (num den : Nat) : Nat :=
  let q := num / den
  let r := 2 * (num % den)
  if r < den then q else if den < r then q + 1 else q + q % 2

/-- Numerator and denominator of `num / den / 2 ^ e`. -/
def scaled (num den : Nat) (e : Int) : Nat × Nat :=
  if e < 0 then (num * powerOf 2 (-e), den) else (num, den * powerOf 2 e)

/-- The exponent at which the mantissa of `num / den` has 53 bits, if that is not below the least. -/
def exponentFor (num den : Nat) : Int :=
  let e : Int := num.log2 - den.log2 - 53
  let (n, d) := scaled num den e
  max leastExponent (if n / d < mantissaLimit then e else e + 1)

def ofRatio (negative : Bool) (num den : Nat) : Binary64 :=
  if num = 0 then zero negative
  else
    let e := exponentFor num den
    let (n, d) := scaled num den e
    let m := nearestQuotient n d
    let (m, e) := if m = mantissaLimit then (mantissaLimit / 2, e + 1) else (m, e)
    if greatestExponent < e then .infinite negative else .finite negative m e

def ofInt? (n : Int) : Option Binary64 :=
  match ofRatio (n < 0) n.natAbs 1 with
  | .finite s m e => some (.finite s m e)
  | _ => none

/-- The number nearest to `± n * 10 ^ e`. What lies far outside the range is decided by two estimates
of its size alone: a number of `b + 1` bits is at least `10 ^ (3 * b / 10)` and less than
`10 ^ (b / 3 + 1)`. -/
def ofScientific (negative : Bool) (n : Nat) (e : Int) : Binary64 :=
  let atLeast : Nat := 3 * n.log2 / 10
  let below : Nat := n.log2 / 3 + 1
  if n = 0 then zero negative
  else if 400 < e + atLeast then .infinite negative
  else if e + below < -400 then zero negative
  else if e < 0 then ofRatio negative n (powerOf 10 (-e))
  else ofRatio negative (n * powerOf 10 e) 1

/-- The signed mantissa of a finite number over the exponent `e`, which is at most its own. -/
def signedAt (negative : Bool) (mantissa : Nat) (exponent e : Int) : Int :=
  let m : Int := mantissa * powerOf 2 (exponent - e)
  if negative then -m else m

def add : Binary64 → Binary64 → Binary64
  | .nan, _ => .nan
  | _, .nan => .nan
  | .infinite s, .infinite t => if s = t then .infinite s else .nan
  | .infinite s, .finite .. => .infinite s
  | .finite .., .infinite s => .infinite s
  | .finite s m e, .finite t n f =>
    let low := min e f
    let sum := signedAt s m e low + signedAt t n f low
    if sum = 0 then zero (s && t)
    else if low < 0 then ofRatio (sum < 0) sum.natAbs (powerOf 2 (-low))
    else ofRatio (sum < 0) (sum.natAbs * powerOf 2 low) 1

/-- The greatest integer that is no larger; none for the numbers that are not finite. -/
def floor? : Binary64 → Option Int
  | .finite s m e =>
    if e < 0 then some (signedAt s m 0 0 / powerOf 2 (-e)) else some (signedAt s m e 0)
  | _ => none

def isWhole : Binary64 → Bool
  | .finite _ m e => 0 ≤ e || m % powerOf 2 (-e) = 0
  | _ => false

def isZero : Binary64 → Bool
  | .finite _ m _ => m = 0
  | _ => false

end Binary64

end LoreTree
