import LoreTree.Decimal
import LoreTree.Text.Printable
/-!
Integers that are written as text. A plain numeral is a minus sign, if there is one, and digits
without leading zeros. A text that is no plain numeral may become one by tidying: blanks around it, a
plus sign, leading zeros, underscores between digits and a fraction of zeros are taken away.
-/

namespace LoreTree.IntegerText

/-- A numeral has at most this many digits, its minus sign apart. -/
def mostDigits : Nat := 4300

def plain? : List Char → Option Int
  | '-' :: ds => (digits? ds).map fun n => -n
  | ds => digits? ds
where
  digits? (ds : List Char) : Option Int :=
    if ds ≠ [] ∧ ds.all Char.isDigit ∧ (ds.head? ≠ some '0' ∨ ds = ['0']) ∧ ds.length ≤ mostDigits
    then some (Decimal.value ds)
    else none

/-- Whether a text starts with an integer that has too many digits, whatever comes after it. Digits
after a leading zero do not count. -/
def overlong (cs : List Char) : Bool :=
  let ds := match cs with
    | '-' :: ds => ds
    | ds => ds
  ds.head? ≠ some '0' && mostDigits < (ds.takeWhile Char.isDigit).length

/-- What follows leading zeros and the underscores among them, of which `last` is the last one. The
zero before a point stays, and so does the last of all. -/
def afterZeros? (last : Char) : List Char → Option (List Char)
  | [] => some [last]
  | c :: rest =>
    if c = '0' ∨ c = '_' then afterZeros? c rest
    else if c.isDigit ∨ c = '-' then some (c :: rest)
    else if c = '.' then some (last :: c :: rest)
    else none

/-- A text without leading zeros; apart from those it has to start with a digit or a minus sign. -/
def withoutZeros? : List Char → Option (List Char)
  | [] => none
  | c :: rest =>
    if c = '0' then afterZeros? c rest
    else if c.isDigit ∨ c = '-' then some (c :: rest)
    else none

def withoutFraction (cs : List Char) : List Char :=
  let places := (cs.dropWhile (· ≠ '.')).drop 1
  if places ≠ [] ∧ places.all (· = '0') then cs.takeWhile (· ≠ '.') else cs

/-- A text without its underscores, which have to stand alone and not at the end. -/
def withoutUnderscores? : List Char → Option (List Char)
  | [] => some []
  | ['_'] => none
  | '_' :: '_' :: _ => none
  | c :: rest => (withoutUnderscores? rest).map fun ds => if c = '_' then ds else c :: ds

/-- A text without blanks around it and without a plus sign, which no minus sign may follow. -/
def withoutPlus? (cs : List Char) : Option (List Char) :=
  match Text.trim cs with
  | '+' :: '-' :: _ => none
  | '+' :: rest => some rest
  | rest => some rest

/-- A text without zeros, a fraction and underscores that do not count. -/
def condensed? (cs : List Char) : Option (List Char) := do
  let cs ← withoutZeros? cs
  withoutUnderscores? (withoutFraction cs)

/-- A minus sign that begins a text stands apart from the rest. One that turns up behind leading
zeros does not, so zeros after that one stay. -/
def tidied? (cs : List Char) : Option (List Char) := do
  match ← withoutPlus? cs with
  | '-' :: rest => (condensed? rest).map ('-' :: ·)
  | rest => condensed? rest

def integer? (cs : List Char) : Option Int :=
  match plain? cs with
  | some n => some n
  | none => (tidied? cs).bind plain?

end LoreTree.IntegerText
