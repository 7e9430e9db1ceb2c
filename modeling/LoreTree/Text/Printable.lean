import LoreTree.Text.Invisible
/-!
Which characters a text shows as they are, and which of them are blanks.
-/

namespace LoreTree.Text

/-- Whether one of the ranges holds a number. The ranges ascend, so the search ends at the first
one that begins above it. -/
def inRanges : List (Nat × Nat) → Nat → Bool
  | [], _ => false
  | (first, last) :: rest, n => if n < first then false else n ≤ last || inRanges rest n

def isPrintable (c : Char) : Bool :=
  !inRanges invisibleRanges c.toNat

def isBlank (c : Char) : Bool :=
  let n := c.toNat
  (0x9 ≤ n && n ≤ 0xd) || n = 0x20 || n = 0x85 || n = 0xa0 || n = 0x1680 ||
    (0x2000 ≤ n && n ≤ 0x200a) || n = 0x2028 || n = 0x2029 || n = 0x202f || n = 0x205f || n = 0x3000

def trim (cs : List Char) : List Char :=
  ((cs.dropWhile isBlank).reverse.dropWhile isBlank).reverse

end LoreTree.Text
