import LoreTree.Operator
import Mathlib.Computability.Language
/-!
The meaning of the patterns that stand between two fragments. A reader takes one character at a time
and puts an expression together; an expression has a language, relative to which characters are
parts of words. What a place or a look means depends on the text around it, so neither is read here.
-/

namespace LoreTree.Pattern

/-- Which characters are parts of words and which are blank. A line break is no part of a word. -/
structure Alphabet where
  isWord : Char → Bool
  isBlank : Char → Bool
  lineBreak : isWord '\n' = false

/-- What stands in a class for the characters that it holds. -/
inductive Member
  | word
  | notWord
  | blank
  | notBlank
  | lineBreak
  deriving DecidableEq

namespace Member

def ofLetter? : Char → Option Member
  | 'w' => some .word
  | 'W' => some .notWord
  | 's' => some .blank
  | 'S' => some .notBlank
  | 'n' => some .lineBreak
  | _ => none

def holds (a : Alphabet) (c : Char) : Member → Bool
  | .word => a.isWord c
  | .notWord => !a.isWord c
  | .blank => a.isBlank c
  | .notBlank => !a.isBlank c
  | .lineBreak => c == '\n'

end Member

/-- A class of characters: those that some member holds or, if it is negated, all others. -/
structure Class where
  negated : Bool := false
  members : List Member := []
  deriving DecidableEq

def Class.holds (a : Alphabet) (k : Class) (c : Char) : Bool :=
  k.negated != k.members.any (·.holds a c)

inductive Expression
  | nothing
  | one (k : Class)
  | next (front back : Expression)
  /-- A number of times between two bounds; the upper one may be missing. -/
  | repeated (part : Expression) (low : Nat) (high : Option Nat)

namespace Expression

def language (a : Alphabet) : Expression → Language Char
  | .nothing => 1
  | .one k => {g | ∃ c, k.holds a c = true ∧ g = [c]}
  | .next front back => front.language a * back.language a
  | .repeated part low high =>
    {g | ∃ n, low ≤ n ∧ (∀ most ∈ high, n ≤ most) ∧ g ∈ part.language a ^ n}

/-- Pieces that follow each other; the last one stands first. -/
def ofPieces (pieces : List Expression) : Expression :=
  pieces.foldl (fun rest piece => .next piece rest) .nothing

/-- Any number of characters of a class, but at least so many. -/
def run (k : Class) (low : Nat) : Expression :=
  .repeated (.one k) low none

variable {a : Alphabet} {k : Class} {g : List Char}

theorem mem_one_pow {n : Nat} :
    g ∈ (one k).language a ^ n ↔ g.length = n ∧ ∀ c ∈ g, k.holds a c = true := by
  induction n generalizing g with
  | zero =>
    rw [pow_zero, Language.mem_one, List.length_eq_zero_iff]
    constructor
    · rintro rfl
      simp
    · exact And.left
  | succ n ih =>
    rw [pow_succ', Language.mem_mul]
    constructor
    · rintro ⟨_, ⟨c, held, rfl⟩, rest, member, rfl⟩
      obtain ⟨length, each⟩ := ih.1 member
      exact ⟨congrArg Nat.succ length, List.forall_mem_cons.2 ⟨held, each⟩⟩
    · rintro ⟨length, each⟩
      cases g with
      | nil => cases length
      | cons c rest =>
        obtain ⟨held, each⟩ := List.forall_mem_cons.1 each
        exact ⟨[c], ⟨c, held, rfl⟩, rest, ih.2 ⟨Nat.succ.inj length, each⟩, rfl⟩

theorem mem_run {low : Nat} :
    g ∈ (run k low).language a ↔ low ≤ g.length ∧ ∀ c ∈ g, k.holds a c = true := by
  constructor
  · rintro ⟨n, least, -, member⟩
    obtain ⟨rfl, each⟩ := mem_one_pow.1 member
    exact ⟨least, each⟩
  · rintro ⟨least, each⟩
    exact ⟨g.length, least, nofun, mem_one_pow.2 ⟨rfl, each⟩⟩

theorem mem_repeated_mul {part : Expression} {low : Nat} {high : Option Nat} {rest : Language Char} :
    g ∈ (repeated part low high).language a * rest ↔
      ∃ n, low ≤ n ∧ (∀ most ∈ high, n ≤ most) ∧ g ∈ part.language a ^ n * rest := by
  constructor
  · rintro ⟨front, ⟨n, least, most, member⟩, back, follows, rfl⟩
    exact ⟨n, least, most, front, member, back, follows, rfl⟩
  · rintro ⟨n, least, most, front, member, back, follows, rfl⟩
    exact ⟨front, ⟨n, least, most, member⟩, back, follows, rfl⟩

end Expression

inductive Stage
  /-- Where nothing can be repeated: at a beginning, and after a repetition that is complete. -/
  | between
  | piece
  /-- Right after a quantifier, which may still turn out to be reluctant. -/
  | quantified
  | escaped
  /-- Right after the opening of a group, and after the question mark there. -/
  | opened
  | marked
  | inClass (k : Class)
  | classEscaped (k : Class)
  /-- In a count, with the digits of the bound that is being read. -/
  | counting (digits : List Char)
  | countingTo (low : Nat) (digits : List Char)

/-- A pattern that is being read: the pieces of the innermost open group, the last one first, and
below them those of the groups around it. -/
structure Draft where
  stage : Stage := .between
  pieces : List Expression := []
  outer : List (List Expression) := []

namespace Draft

def add (d : Draft) (e : Expression) : Draft :=
  { d with stage := .piece, pieces := e :: d.pieces }

def read (d : Draft) : Char → Option Draft
  | '\\' => some { d with stage := .escaped }
  | '(' => some { d with stage := .opened }
  | '[' => some { d with stage := .inClass {} }
  | '.' => some (d.add (.one ⟨true, [.lineBreak]⟩))
  | ')' =>
    match d.outer with
    | [] => none
    | pieces :: outer => some ⟨.piece, .ofPieces d.pieces :: pieces, outer⟩
  | _ => none

/-- The last piece, repeated. Whether a repetition is reluctant makes no difference to what it matches. -/
def repeatLast (d : Draft) (low : Nat) (high : Option Nat) : Option Draft :=
  match d.pieces with
  | [] => none
  | e :: pieces =>
    if high.all (low ≤ ·) then some { d with stage := .quantified, pieces := .repeated e low high :: pieces }
    else none

def step (d : Draft) (c : Char) : Option Draft :=
  match d.stage with
  | .between => d.read c
  | .piece =>
    if c = '*' then d.repeatLast 0 none
    else if c = '+' then d.repeatLast 1 none
    else if c = '{' then some { d with stage := .counting [] }
    else d.read c
  | .quantified => if c = '?' then some { d with stage := .between } else d.read c
  | .escaped => (Member.ofLetter? c).map fun m => d.add (.one ⟨false, [m]⟩)
  | .opened => if c = '?' then some { d with stage := .marked } else none
  | .marked => if c = ':' then some ⟨.between, [], d.pieces :: d.outer⟩ else none
  | .inClass k =>
    if c = '\\' then some { d with stage := .classEscaped k }
    else if c = '^' ∧ k = {} then some { d with stage := .inClass ⟨true, []⟩ }
    else if c = ']' ∧ k.members ≠ [] then some (d.add (.one k))
    else none
  | .classEscaped k =>
    (Member.ofLetter? c).map fun m => { d with stage := .inClass { k with members := k.members ++ [m] } }
  | .counting digits =>
    if c.isDigit then some { d with stage := .counting (digits ++ [c]) }
    else if c = ',' ∧ digits ≠ [] then some { d with stage := .countingTo (Decimal.value digits) [] }
    else none
  | .countingTo low digits =>
    if c.isDigit then some { d with stage := .countingTo low (digits ++ [c]) }
    else if c = '}' ∧ digits ≠ [] then d.repeatLast low (some (Decimal.value digits))
    else none

theorem step_counting (digits : List Char) (pieces : List Expression) (outer : List (List Expression))
    (c : Char) : step ⟨.counting digits, pieces, outer⟩ c =
      if c.isDigit then some ⟨.counting (digits ++ [c]), pieces, outer⟩
      else if c = ',' ∧ digits ≠ [] then some ⟨.countingTo (Decimal.value digits) [], pieces, outer⟩
      else none := rfl

theorem step_countingTo (low : Nat) (digits : List Char) (pieces : List Expression)
    (outer : List (List Expression)) (c : Char) : step ⟨.countingTo low digits, pieces, outer⟩ c =
      if c.isDigit then some ⟨.countingTo low (digits ++ [c]), pieces, outer⟩
      else if c = '}' ∧ digits ≠ [] then
        repeatLast ⟨.countingTo low digits, pieces, outer⟩ low (some (Decimal.value digits))
      else none := rfl

/-- The expression of a pattern whose groups, classes, escapes and counts are all complete. -/
def expression? (d : Draft) : Option Expression :=
  match d with
  | ⟨.between, pieces, []⟩ => some (.ofPieces pieces)
  | ⟨.piece, pieces, []⟩ => some (.ofPieces pieces)
  | ⟨.quantified, pieces, []⟩ => some (.ofPieces pieces)
  | _ => none

end Draft

def expression? (cs : List Char) : Option Expression := do
  let d ← cs.foldlM Draft.step {}
  d.expression?

example : expression? Gap.anything = some (.next (.run ⟨false, [.blank, .notBlank]⟩ 0) .nothing) := rfl

end LoreTree.Pattern
