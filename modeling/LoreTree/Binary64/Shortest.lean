import LoreTree.Binary64
/-!
Decimal text of double precision numbers: the fewest digits that read back as the same number, and
of those the nearest. Where the point stands and how an exponent is written is the business of a
layout.
-/

namespace LoreTree.Binary64

/-- The digits of a positive number `digits * 10 ^ exponent`. -/
structure Scientific where
  digits : Nat
  exponent : Int

/-- How many digits the integer part of `num / den` has; zero or less if it starts after the point. -/
def leadingPlace (num den : Nat) : Int :=
  if den ≤ num then (Decimal.digits (num / den)).length
  else
    match (List.range 400).find? (fun (j : Nat) => den ≤ num * powerOf 10 (j + 1)) with
    | some j => -j
    | none => -400

/-- The nearest decimal of `k` digits that reads back as the number, if one does; a tie goes to the
even digit. -/
def withDigits? (mantissa : Nat) (exponent : Int) (k : Nat) : Option Scientific :=
  let (num, den) := scaled mantissa 1 (-exponent)
  let grid := leadingPlace num den - k
  let (n, d) := if grid < 0 then (num * powerOf 10 (-grid), den) else (num, den * powerOf 10 grid)
  let low := n / d
  let lowIsNearer : Bool := 2 * (n % d) < d || (2 * (n % d) = d && low % 2 = 0)
  let reads (c : Nat) : Bool := ofScientific false c grid = .finite false mantissa exponent
  if reads low && (lowIsNearer || !reads (low + 1)) then some ⟨low, grid⟩
  else if reads (low + 1) then some ⟨low + 1, grid⟩
  else none

/-- Seventeen digits always read back, so the last case is never reached. -/
def shortest (mantissa : Nat) (exponent : Int) : Scientific :=
  ((List.range 17).findSome? (fun k => withDigits? mantissa exponent (k + 1))).getD ⟨mantissa, 0⟩

structure Layout where
  /-- The least and the greatest decimal exponent that are written without an exponent. -/
  least : Int
  greatest : Int
  exponentDigits : Nat
  nanText : String
  infinityText : String

/-- Exponents from -4 to 15 are written out, the others with a sign and two digits or more. -/
def plain : Layout where
  least := -4
  greatest := 15
  exponentDigits := 2
  nanText := "nan"
  infinityText := "inf"

def stripZeros (ds : List Char) : List Char :=
  (ds.reverse.dropWhile (· = '0')).reverse

def Layout.render (l : Layout) (ds : List Char) (place : Int) : List Char :=
  if l.least ≤ place ∧ place ≤ l.greatest then
    if place < 0 then
      '0' :: '.' :: List.replicate (-place - 1).toNat '0' ++ ds
    else
      let whole := ds.take (place.toNat + 1)
      let rest := ds.drop (place.toNat + 1)
      whole ++ List.replicate (place.toNat + 1 - whole.length) '0' ++ '.' ::
        (if rest.isEmpty then ['0'] else rest)
  else
    let tail := ds.drop 1
    let size := Decimal.digits place.natAbs
    ds.take 1 ++ (if tail.isEmpty then [] else '.' :: tail) ++
      'e' :: (if place < 0 then '-' else '+') ::
        List.replicate (l.exponentDigits - size.length) '0' ++ size

def Layout.text (l : Layout) : Binary64 → String
  | .nan => l.nanText
  | .infinite s => if s then "-" ++ l.infinityText else l.infinityText
  | .finite s m e =>
    let sign := if s then ['-'] else []
    if m = 0 then String.ofList (sign ++ ['0', '.', '0'])
    else
      let d := shortest m e
      let all := Decimal.digits d.digits
      String.ofList (sign ++ l.render (stripZeros all) (d.exponent + all.length - 1))

end LoreTree.Binary64
