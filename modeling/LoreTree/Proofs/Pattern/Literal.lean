import LoreTree.Proofs.Pattern.Reading
/-!
Texts that stand for themselves. A pattern is literal if a reader finds nothing in it but plain
characters and escaped ones; escaping writes exactly these patterns, so it loses nothing, and what
stands around an escaped text can be told from it.
-/

namespace LoreTree

namespace Pattern

/-- The characters that a pattern does not take as themselves. -/
def metacharacters : List Char :=
  ['\\', '.', '^', '$', '|', '?', '*', '+', '(', ')', '[', ']', '{', '}']

/-- Reads a pattern character by character. A backslash has to stand before a metacharacter, and no
metacharacter may stand alone. -/
def literal? : List Char → Option (List Char)
  | [] => some []
  | '\\' :: c :: rest => if c ∈ metacharacters then (literal? rest).map (c :: ·) else none
  | c :: rest => if c ∈ metacharacters then none else (literal? rest).map (c :: ·)

theorem isSpecial_iff (c : Char) : Fragment.isSpecial c = true ↔ c ∈ metacharacters := by
  have same : Fragment.specials.Perm metacharacters := by decide
  exact List.contains_iff_mem.trans same.mem_iff

theorem literal?_escaped {c : Char} (special : c ∈ metacharacters) (rest : List Char) :
    literal? ('\\' :: c :: rest) = (literal? rest).map (c :: ·) := by
  rw [literal?, if_pos special]

theorem literal?_plain {c : Char} (plain : c ∉ metacharacters) (rest : List Char) :
    literal? (c :: rest) = (literal? rest).map (c :: ·) := by
  rw [literal?, if_neg plain]
  -- no plain character is a backslash, so it is not read together with the next one
  rintro d more rfl -
  exact plain (by decide)

theorem literal?_escape (word : List Char) : literal? (Fragment.escape word) = some word := by
  induction word with
  | nil => rfl
  | cons c word ih =>
    rw [Fragment.escape_cons, Fragment.escaped]
    by_cases special : c ∈ metacharacters
    · rw [if_pos ((isSpecial_iff c).2 special), List.cons_append, List.singleton_append,
        literal?_escaped special, ih, Option.map_some]
    · rw [if_neg (mt (isSpecial_iff c).1 special), List.singleton_append, literal?_plain special, ih,
        Option.map_some]

theorem eq_escape_of_literal? {cs word : List Char} (read : literal? cs = some word) :
    cs = Fragment.escape word := by
  fun_induction literal? cs generalizing word with
  | case1 =>
    cases read
    rfl
  | case2 c rest special ih =>
    obtain ⟨others, readRest, rfl⟩ := Option.map_eq_some_iff.1 read
    rw [Fragment.escape_cons, Fragment.escaped, if_pos ((isSpecial_iff c).2 special), ← ih readRest]
    rfl
  | case3 => cases read
  | case4 => cases read
  | case5 c rest _ plain ih =>
    obtain ⟨others, readRest, rfl⟩ := Option.map_eq_some_iff.1 read
    rw [Fragment.escape_cons, Fragment.escaped, if_neg (mt (isSpecial_iff c).1 plain), ← ih readRest]
    rfl

end Pattern

/-- Two keywords with the same pattern have the same form and the same text. -/
theorem Form.fragment_inj {f g : Form} {v w : List Char} (same : f.fragment v = g.fragment w) :
    f = g ∧ v = w := by
  have texts : (f.fragment v).chars ++ [] = (g.fragment w).chars ++ [] := by
    rw [same]
  obtain ⟨forms, words, -⟩ := Form.fragment_append_inj .nothing .nothing texts
  exact ⟨forms, words⟩

/-- A pattern is read as a text exactly if it is the escape of that text, the parts of a text are
escaped one by one, and a keyword is known from its pattern, its form included. -/
theorem escaping_loses_nothing :
    (∀ cs word : List Char, Pattern.literal? cs = some word ↔ cs = Fragment.escape word) ∧
    (∀ v w : List Char, Fragment.escape (v ++ w) = Fragment.escape v ++ Fragment.escape w) ∧
    ∀ (f g : Form) (v w : List Char), f.fragment v = g.fragment w ↔ f = g ∧ v = w := by
  refine ⟨fun cs word => ⟨Pattern.eq_escape_of_literal?, ?_⟩, fun v w => List.flatMap_append, ?_⟩
  · rintro rfl
    exact Pattern.literal?_escape word
  · intro f g v w
    refine ⟨Form.fragment_inj, ?_⟩
    rintro ⟨rfl, rfl⟩
    rfl

/-- A text that looks escaped is escaped once more. -/
example : Fragment.escape ['\\', 'b', '*'] = ['\\', '\\', 'b', '\\', '*'] ∧
    Pattern.literal? ['\\', 'b'] = none := by decide

end LoreTree
