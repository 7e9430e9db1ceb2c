import LoreTree.Json
/-!
Numbers in documents: an optional minus sign, digits without leading zeros, then optionally a
fraction and an exponent. A number with neither is an integer and is read exactly.
-/

namespace LoreTree.Json

structure Numeral where
  negative : Bool
  whole : List Char
  fraction : Option (List Char)
  exponent : Option (Bool × List Char)

namespace Numeral

def signedWhole (n : Numeral) : List Char :=
  if n.negative then '-' :: n.whole else n.whole

/-- A number has a single leading zero only if that is its whole part. -/
def wholeAllowed : List Char → Bool
  | [] => false
  | ['0'] => true
  | c :: _ => c ≠ '0'

/-- Digits up to the first character that is none; there has to be one at least. -/
def someDigits? (cs : List Char) : Option (List Char × List Char) :=
  if (cs.takeWhile Char.isDigit).isEmpty then none
  else some (cs.takeWhile Char.isDigit, cs.dropWhile Char.isDigit)

def fraction? : List Char → Option (Option (List Char) × List Char)
  | '.' :: rest => (someDigits? rest).map (fun (ds, rest) => (some ds, rest))
  | rest => some (none, rest)

def exponent? : List Char → Option (Option (Bool × List Char))
  | [] => some none
  | e :: rest =>
    if e = 'e' ∨ e = 'E' then
      let (negative, digits) :=
        match rest with
        | '-' :: ds => (true, ds)
        | '+' :: ds => (false, ds)
        | ds => (false, ds)
      match someDigits? digits with
      | some (ds, []) => some (some (negative, ds))
      | _ => none
    else none

def unsigned? (negative : Bool) (cs : List Char) : Option Numeral := do
  let (whole, rest) ← someDigits? cs
  guard (wholeAllowed whole)
  let (fraction, rest) ← fraction? rest
  let exponent ← exponent? rest
  return { negative, whole, fraction, exponent }

def ofChars? : List Char → Option Numeral
  | '-' :: cs => unsigned? true cs
  | cs => unsigned? false cs

def toBinary64 (n : Numeral) : Binary64 :=
  let places := n.fraction.getD []
  let shift : Int :=
    match n.exponent with
    | none => 0
    | some (negative, ds) => if negative then -Decimal.value ds else Decimal.value ds
  .ofScientific n.negative (Decimal.value (n.whole ++ places)) (shift - places.length)

def toJson (n : Numeral) : Json :=
  if n.fraction.isNone ∧ n.exponent.isNone then
    let size : Int := Decimal.value n.whole
    .int (if n.negative then -size else size)
  else .float n.toBinary64

end Numeral

end LoreTree.Json
