import LoreTree.Operator
/-!
The tokens of a pattern. The lexer knows escapes, classes, the openings of groups and counts; it
does not know which group a closing belongs to. What dialects of patterns read differently is no
token: a bracket or brace that closes nothing, a class without members, a group of another kind.
-/

namespace LoreTree.Pattern

inductive Token
  /-- Something that matches one character, or the text of a group once more. -/
  | atom
  | assertion
  /-- The opening of a group, which may look around. -/
  | opening (looks : Bool)
  | closing
  | bar
  /-- A star, a plus or a count. -/
  | quantifier
  /-- A quantifier of its own, or what makes the quantifier before it reluctant. -/
  | question
  deriving DecidableEq

inductive Place
  | text
  | escaped
  /-- Right after the opening of a group, after the question mark there and after the angle. -/
  | opened
  | marked
  | angled
  /-- Right after the opening of a class, after the caret there, and among its members. -/
  | classOpened
  | classNegated
  | inClass
  | classEscaped
  | counting
  deriving DecidableEq

namespace Place

def read : Char → Option (Place × List Token)
  | '\\' => some (.escaped, [])
  | '(' => some (.opened, [])
  | '[' => some (.classOpened, [])
  | '{' => some (.counting, [])
  | ')' => some (.text, [.closing])
  | '|' => some (.text, [.bar])
  | '*' => some (.text, [.quantifier])
  | '+' => some (.text, [.quantifier])
  | '?' => some (.text, [.question])
  | '^' => some (.text, [.assertion])
  | '$' => some (.text, [.assertion])
  | ']' => none
  | '}' => none
  | _ => some (.text, [.atom])

def member : Char → Option (Place × List Token)
  | '\\' => some (.classEscaped, [])
  | ']' => some (.text, [.atom])
  | _ => some (.inClass, [])

def firstMember (c : Char) : Option (Place × List Token) :=
  if c = ']' then none else member c

/-- Reads one character, and says which tokens end with it. -/
def step (p : Place) (c : Char) : Option (Place × List Token) :=
  match p with
  | .text => read c
  | .escaped => some (.text, [if c = 'b' ∨ c = 'B' then .assertion else .atom])
  | .opened =>
    if c = '?' then some (.marked, [])
    else (read c).map fun (p, ts) => (p, .opening false :: ts)
  | .marked =>
    if c = ':' then some (.text, [.opening false])
    else if c = '=' ∨ c = '!' then some (.text, [.opening true])
    else if c = '<' then some (.angled, [])
    else none
  | .angled => if c = '=' ∨ c = '!' then some (.text, [.opening true]) else none
  | .classOpened => if c = '^' then some (.classNegated, []) else firstMember c
  | .classNegated => firstMember c
  | .inClass => member c
  | .classEscaped => some (.inClass, [])
  | .counting =>
    if c = '}' then some (.text, [.quantifier])
    else if c.isDigit ∨ c = ',' then some (.counting, [])
    else none

def lex (p : Place) : List Char → Option (Place × List Token)
  | [] => some (p, [])
  | c :: cs => do
    let (p, ts) ← p.step c
    let (p, us) ← lex p cs
    return (p, ts ++ us)

theorem lex_cons {p q r : Place} {c : Char} {cs : List Char} {ts us : List Token}
    (first : p.step c = some (q, ts)) (rest : q.lex cs = some (r, us)) :
    p.lex (c :: cs) = some (r, ts ++ us) := by
  rw [lex, first]
  change (q.lex cs).bind _ = _
  rw [rest]
  rfl

theorem lex_append {p q r : Place} {front back : List Char} {ts us : List Token}
    (first : p.lex front = some (q, ts)) (rest : q.lex back = some (r, us)) :
    p.lex (front ++ back) = some (r, ts ++ us) := by
  induction front generalizing p ts with
  | nil =>
    cases first
    exact rest
  | cons c front ih =>
    obtain ⟨⟨p', ts'⟩, stepped, first⟩ := Option.bind_eq_some_iff.1 first
    obtain ⟨⟨q', us'⟩, went, made⟩ := Option.bind_eq_some_iff.1 first
    cases made
    rw [List.append_assoc]
    exact lex_cons stepped (ih went)

end Place

/-- The tokens of a text in which every escape, class and count is complete. -/
def tokens? (cs : List Char) : Option (List Token) :=
  match Place.text.lex cs with
  | some (.text, ts) => some ts
  | _ => none

section Tokens

variable {front back cs : List Char} {ts us : List Token}

theorem tokens?_eq_some : tokens? cs = some ts ↔ Place.text.lex cs = some (.text, ts) := by
  unfold tokens?
  constructor
  · intro h
    split at h
    · cases h
      assumption
    · cases h
  · intro h
    rw [h]

theorem tokens?_append (h : tokens? front = some ts) (k : tokens? back = some us) :
    tokens? (front ++ back) = some (ts ++ us) := by
  rw [tokens?_eq_some] at h k ⊢
  exact Place.lex_append h k

theorem Place.read_plain {c : Char} (plain : c ∉ Fragment.specials) :
    read c = some (.text, [.atom]) := by
  simp only [Fragment.specials, List.mem_cons, List.not_mem_nil, or_false, not_or] at plain
  obtain ⟨h₁, h₂, h₃, h₄, h₅, h₆, h₇, h₈, h₉, h₁₀, h₁₁, h₁₂, h₁₃, h₁₄⟩ := plain
  simp only [read]

/-- An escaped character is an atom, whatever character it is. -/
theorem tokens?_escaped (c : Char) :
    tokens? (if Fragment.isSpecial c then ['\\', c] else [c]) = some [.atom] := by
  rw [tokens?_eq_some]
  by_cases special : c ∈ Fragment.specials
  · have letter : ¬(c = 'b' ∨ c = 'B') := by
      rintro (rfl | rfl)
      · exact absurd special (by decide)
      · exact absurd special (by decide)
    have marked : Fragment.isSpecial c = true := List.contains_iff_mem.2 special
    have backslash : Place.text.step '\\' = some (.escaped, []) := rfl
    rw [if_pos marked]
    refine Place.lex_cons backslash ?_
    rw [Place.lex, Place.step, if_neg letter]
    rfl
  · have unmarked : ¬Fragment.isSpecial c = true := mt List.contains_iff_mem.1 special
    rw [if_neg unmarked, Place.lex, Place.step, Place.read_plain special]
    rfl

theorem Place.lex_digits {ds : List Char} (each : ∀ c ∈ ds, c.isDigit = true) :
    Place.counting.lex ds = some (.counting, []) := by
  induction ds with
  | nil => rfl
  | cons c ds ih =>
    obtain ⟨head, tail⟩ := List.forall_mem_cons.1 each
    have other : c ≠ '}' := by
      rintro rfl
      cases head
    have stays : Place.counting.step c = some (.counting, []) := by
      rw [Place.step, if_neg other, if_pos (.inl head)]
    exact Place.lex_cons stays (ih tail)

/-- A count is one token, however many digits it has. -/
theorem tokens?_times (low high : Nat) :
    tokens? (Gap.times low high) = some [.quantifier, .question] := by
  have brace : Place.text.lex ['{'] = some (.counting, []) := rfl
  have comma : Place.counting.lex [','] = some (.counting, []) := rfl
  have close : Place.counting.lex ['}', '?'] = some (.text, [.quantifier, .question]) := rfl
  have lower := Place.lex_digits (Decimal.digits_isDigit low)
  have upper := Place.lex_digits (Decimal.digits_isDigit high)
  have count := Place.lex_append brace
    (Place.lex_append lower (Place.lex_append comma (Place.lex_append upper close)))
  rw [tokens?_eq_some, Gap.times]
  simpa using count

end Tokens

end LoreTree.Pattern
