import LoreTree.Proofs.Distance
import LoreTree.Proofs.Pattern.Language
/-!
What may stand between two fragments. A gap of words is a text that begins and ends outside of words
and has so many words in between. On one line the places before the words hold no line break, but
the place after the last word may hold one.
-/

namespace LoreTree

namespace Pattern

namespace Alphabet

/-- The maximal runs of word characters in a text. -/
def words (a : Alphabet) (g : List Char) : List (List Char) :=
  (g.splitOnP (!a.isWord ·)).filter (!·.isEmpty)

/-- A text that begins and ends with a character that is no part of a word. -/
structure IsSpaced (a : Alphabet) (g : List Char) : Prop where
  first : ∃ c ∈ g.head?, a.isWord c = false
  last : ∃ c ∈ g.getLast?, a.isWord c = false

/-- A text in which no word comes after a line break. -/
def BreaksLast (a : Alphabet) (g : List Char) : Prop :=
  g.Pairwise fun c d => c = '\n' → a.isWord d = false

instance (a : Alphabet) (g : List Char) : Decidable (a.BreaksLast g) :=
  inferInstanceAs (Decidable (g.Pairwise _))

variable {a : Alphabet} {g s w : List Char} {c : Char}

theorem words_cons_of_not (apart : a.isWord c = false) : a.words (c :: g) = a.words g := by
  rw [words, List.splitOnP_cons_eq_if_modifyHead, if_pos (by simp [apart])]
  rfl

theorem words_append_of_not (apart : ∀ c ∈ s, a.isWord c = false) : a.words (s ++ g) = a.words g := by
  induction s with
  | nil => rfl
  | cons c s ih =>
    obtain ⟨head, tail⟩ := List.forall_mem_cons.1 apart
    rw [List.cons_append, words_cons_of_not head, ih tail]

theorem words_of_not (apart : ∀ c ∈ g, a.isWord c = false) : a.words g = [] := by
  have := words_append_of_not (g := []) apart
  rwa [List.append_nil] at this

/-- A run of word characters is one word if it is followed by something else. -/
theorem words_append_of_word (ne : w ≠ []) (inside : ∀ c ∈ w, a.isWord c = true) (spaced : a.IsSpaced g) :
    a.words (w ++ g) = w :: a.words g := by
  obtain ⟨c, first, apart⟩ := spaced.first
  obtain ⟨rest, rfl⟩ := List.head?_eq_some_iff.1 first
  rw [words_cons_of_not apart, words, List.splitOnP_append_cons_of_forall_mem (by simpa using inside)
    c (by simp [apart]), List.filter_cons_of_pos (by simpa using ne)]
  rfl

theorem words_append (apart : ∀ c ∈ s, a.isWord c = false) (ne : w ≠ [])
    (inside : ∀ c ∈ w, a.isWord c = true) (spaced : a.IsSpaced g) :
    a.words (s ++ (w ++ g)) = w :: a.words g := by
  rw [words_append_of_not apart, words_append_of_word ne inside spaced]

theorem exists_run (p : Char → Bool) (g : List Char) :
    ∃ r rest, g = r ++ rest ∧ (∀ c ∈ r, p c = true) ∧ ∀ c ∈ rest.head?, p c = false := by
  refine ⟨g.takeWhile p, g.dropWhile p, List.takeWhile_append_dropWhile.symm,
    List.all_eq_true.1 List.all_takeWhile, ?_⟩
  intro c first
  have stopped := List.head?_dropWhile_not p g
  rw [Option.mem_def.1 first] at stopped
  simpa using stopped

/-- What is left of a spaced text is spaced if it begins outside of words. -/
theorem IsSpaced.of_append (spaced : a.IsSpaced (s ++ g)) (ne : g ≠ [])
    (next : ∀ c ∈ g.head?, a.isWord c = false) : a.IsSpaced g := by
  obtain ⟨c, last, outside⟩ := spaced.last
  rw [List.getLast?_append_of_ne_nil _ ne] at last
  exact ⟨⟨g.head ne, List.head?_eq_some_head ne, next _ (List.head?_eq_some_head ne)⟩,
    c, last, outside⟩

theorem IsSpaced.not_append_word (spaced : a.IsSpaced (s ++ w)) (ne : w ≠ []) :
    ¬∀ c ∈ w, a.isWord c = true := by
  intro inside
  obtain ⟨c, last, outside⟩ := spaced.last
  rw [List.getLast?_append_of_ne_nil _ ne] at last
  rw [inside c (List.mem_of_getLast? last)] at outside
  cases outside

/-- A spaced text has no word, or it has a first one with such a text after it. -/
theorem IsSpaced.eq_append (spaced : a.IsSpaced g) : (∀ c ∈ g, a.isWord c = false) ∨
    ∃ s w rest, g = s ++ (w ++ rest) ∧ s ≠ [] ∧ (∀ c ∈ s, a.isWord c = false) ∧ w ≠ [] ∧
      (∀ c ∈ w, a.isWord c = true) ∧ a.IsSpaced rest := by
  obtain ⟨s, after, rfl, apart, stop⟩ := exists_run (!a.isWord ·) g
  cases after with
  | nil =>
    left
    simpa using apart
  | cons d after =>
    right
    have letter : a.isWord d = true := by simpa using stop
    obtain ⟨w, rest, split, inside, next⟩ := exists_run a.isWord (d :: after)
    rw [split] at spaced ⊢
    have s_ne : s ≠ [] := by
      rintro rfl
      obtain ⟨c, first, outside⟩ := spaced.first
      rw [List.nil_append, ← split] at first
      cases first
      simp [letter] at outside
    have w_ne : w ≠ [] := by
      rintro rfl
      rw [List.nil_append] at split
      subst split
      simp [letter] at next
    have rest_ne : rest ≠ [] := by
      rintro rfl
      rw [List.append_nil] at spaced
      exact spaced.not_append_word w_ne inside
    rw [← List.append_assoc] at spaced
    exact ⟨s, w, rest, rfl, s_ne, by simpa using apart, w_ne, inside, spaced.of_append rest_ne next⟩

theorem IsSpaced.append (s_ne : s ≠ []) (apart : ∀ c ∈ s, a.isWord c = false) (spaced : a.IsSpaced g) :
    a.IsSpaced (s ++ (w ++ g)) := by
  obtain ⟨c, last, outside⟩ := spaced.last
  refine ⟨⟨s.head s_ne, ?_, apart _ (List.head_mem s_ne)⟩, c, ?_, outside⟩
  · rw [List.head?_append_of_ne_nil _ s_ne]
    exact List.head?_eq_some_head s_ne
  · rw [← List.append_assoc, List.getLast?_append, Option.mem_def.1 last]
    rfl

theorem isSpaced_of_not (ne : g ≠ []) (apart : ∀ c ∈ g, a.isWord c = false) : a.IsSpaced g :=
  ⟨⟨g.head ne, List.head?_eq_some_head ne, apart _ (List.head_mem ne)⟩,
    g.getLast ne, List.getLast?_eq_some_getLast ne, apart _ (List.getLast_mem ne)⟩

theorem breaksLast_of_not (apart : ∀ c ∈ g, a.isWord c = false) : a.BreaksLast g :=
  List.pairwise_of_forall_mem_list fun _ _ d member _ => apart d member

theorem breaksLast_of_notMem (unbroken : '\n' ∉ g) : a.BreaksLast g := by
  refine List.pairwise_of_forall_mem_list ?_
  rintro c member d - rfl
  exact (unbroken member).elim

theorem lineBreak_notMem (inside : ∀ c ∈ w, a.isWord c = true) : '\n' ∉ w := by
  intro member
  have := inside _ member
  rw [a.lineBreak] at this
  cases this

/-- A text breaks its lines last if it has no line break before its first word and breaks them last
after it. -/
theorem breaksLast_append (w_ne : w ≠ []) (inside : ∀ c ∈ w, a.isWord c = true) :
    a.BreaksLast (s ++ (w ++ g)) ↔ '\n' ∉ s ∧ a.BreaksLast g := by
  have unbroken := lineBreak_notMem inside
  rw [BreaksLast, List.pairwise_append, List.pairwise_append]
  constructor
  · rintro ⟨-, ⟨-, last, -⟩, cross⟩
    refine ⟨fun member => ?_, last⟩
    have outside := cross _ member (w.head w_ne) (List.mem_append_left _ (List.head_mem w_ne)) rfl
    rw [inside _ (List.head_mem w_ne)] at outside
    cases outside
  · rintro ⟨none, last⟩
    refine ⟨breaksLast_of_notMem none, ⟨breaksLast_of_notMem unbroken, last, ?_⟩, ?_⟩
    · rintro c member d - rfl
      exact (unbroken member).elim
    · rintro c member d - rfl
      exact (none member).elim

end Alphabet

/-- The class of what separates words, on one line or across lines. -/
def separator (sameLine : Bool) : Class :=
  if sameLine then ⟨true, [.word, .lineBreak]⟩ else ⟨false, [.notWord]⟩

def Expression.nextWord (sameLine : Bool) : Expression :=
  .next (.run (separator sameLine) 1) (.next (.run ⟨false, [.word]⟩ 1) .nothing)

variable {a : Alphabet} {g : List Char} {c : Char} {sameLine : Bool}

theorem holds_word : Class.holds a ⟨false, [.word]⟩ c = a.isWord c := by
  simp [Class.holds, Member.holds]

theorem holds_notWord : Class.holds a ⟨false, [.notWord]⟩ c = !a.isWord c := by
  simp [Class.holds, Member.holds]

theorem holds_separator :
    (separator sameLine).holds a c = true ↔ a.isWord c = false ∧ (sameLine = true → c ≠ '\n') := by
  cases sameLine <;> simp [separator, Class.holds, Member.holds]

theorem mem_nextWord : g ∈ (Expression.nextWord sameLine).language a ↔
    ∃ s w, g = s ++ w ∧ s ≠ [] ∧ (∀ c ∈ s, a.isWord c = false ∧ (sameLine = true → c ≠ '\n')) ∧
      w ≠ [] ∧ ∀ c ∈ w, a.isWord c = true := by
  rw [Expression.nextWord, Expression.language, Expression.language, Expression.language, mul_one,
    Language.mem_mul]
  simp only [Expression.mem_run, Nat.one_le_iff_ne_zero, ne_eq, List.length_eq_zero_iff,
    holds_separator, holds_word]
  constructor
  · rintro ⟨s, ⟨s_ne, apart⟩, w, ⟨w_ne, inside⟩, rfl⟩
    exact ⟨s, w, rfl, s_ne, apart, w_ne, inside⟩
  · rintro ⟨s, w, rfl, s_ne, apart, w_ne, inside⟩
    exact ⟨s, ⟨s_ne, apart⟩, w, ⟨w_ne, inside⟩, rfl⟩

/-- So many words with a place before each of them and one after the last. On one line only the last
place may break it. -/
theorem mem_spaced {n : Nat} : g ∈ (Expression.nextWord sameLine).language a ^ n *
      (Expression.run ⟨false, [.notWord]⟩ 1).language a ↔
    a.IsSpaced g ∧ (a.words g).length = n ∧ (sameLine = true → a.BreaksLast g) := by
  induction n generalizing g with
  | zero =>
    rw [pow_zero, one_mul, Expression.mem_run]
    simp only [Nat.one_le_iff_ne_zero, ne_eq, List.length_eq_zero_iff, holds_notWord,
      Bool.not_eq_true']
    constructor
    · rintro ⟨ne, apart⟩
      exact ⟨Alphabet.isSpaced_of_not ne apart, Alphabet.words_of_not apart,
        fun _ => Alphabet.breaksLast_of_not apart⟩
    · rintro ⟨spaced, none, -⟩
      obtain apart | ⟨s, w, rest, rfl, -, apart, w_ne, inside, spaced_rest⟩ := spaced.eq_append
      · refine ⟨?_, apart⟩
        rintro rfl
        obtain ⟨c, first, -⟩ := spaced.first
        cases first
      · rw [Alphabet.words_append apart w_ne inside spaced_rest] at none
        cases none
  | succ n ih =>
    rw [pow_succ', mul_assoc, Language.mem_mul]
    constructor
    · rintro ⟨_, first, rest, others, rfl⟩
      obtain ⟨s, w, rfl, s_ne, apart, w_ne, inside⟩ := mem_nextWord.1 first
      obtain ⟨spaced, count, last⟩ := ih.1 others
      have outside : ∀ c ∈ s, a.isWord c = false := fun c member => (apart c member).1
      rw [List.append_assoc, Alphabet.words_append outside w_ne inside spaced, List.length_cons, count]
      refine ⟨spaced.append s_ne outside, rfl, fun same => ?_⟩
      exact (Alphabet.breaksLast_append w_ne inside).2
        ⟨fun member => (apart _ member).2 same rfl, last same⟩
    · rintro ⟨spaced, count, last⟩
      obtain apart | ⟨s, w, rest, rfl, s_ne, apart, w_ne, inside, spaced_rest⟩ := spaced.eq_append
      · rw [Alphabet.words_of_not apart] at count
        cases count
      rw [Alphabet.words_append apart w_ne inside spaced_rest] at count
      have parts (same : sameLine = true) := (Alphabet.breaksLast_append w_ne inside).1 (last same)
      refine ⟨s ++ w, mem_nextWord.2 ⟨s, w, rfl, s_ne, ?_, w_ne, inside⟩, rest, ih.2 ?_,
        List.append_assoc s w rest⟩
      · intro c member
        refine ⟨apart c member, ?_⟩
        rintro same rfl
        exact (parts same).1 member
      · exact ⟨spaced_rest, Nat.succ.inj count, fun same => (parts same).2⟩

/-- The expression that the text of a gap spells. -/
def Expression.ofGap : Gap → Expression
  | .document => .next (.run ⟨false, [.blank, .notBlank]⟩ 0) .nothing
  | .line => .next (.run ⟨true, [.lineBreak]⟩ 0) .nothing
  | .words low high sameLine =>
    .next (.repeated (.nextWord sameLine) low (some high)) (.next (.run ⟨false, [.notWord]⟩ 1) .nothing)

namespace Draft

theorem foldlM_append_of {d e : Draft} {front : List Char} (first : front.foldlM step d = some e)
    (back : List Char) : (front ++ back).foldlM step d = back.foldlM step e := by
  rw [List.foldlM_append, first]
  rfl

theorem foldlM_digits (stage : List Char → Stage) {pieces : List Expression}
    {outer : List (List Expression)}
    (reads : ∀ ds c, c.isDigit = true →
      step ⟨stage ds, pieces, outer⟩ c = some ⟨stage (ds ++ [c]), pieces, outer⟩)
    {digits : List Char} (each : ∀ c ∈ digits, c.isDigit = true) (ds : List Char) :
    digits.foldlM step ⟨stage ds, pieces, outer⟩ = some ⟨stage (ds ++ digits), pieces, outer⟩ := by
  induction digits generalizing ds with
  | nil => rw [List.append_nil]; rfl
  | cons c digits ih =>
    obtain ⟨head, tail⟩ := List.forall_mem_cons.1 each
    rw [List.foldlM_cons, reads ds c head, List.append_cons ds c digits]
    exact ih tail (ds ++ [c])

theorem foldlM_times {low high : Nat} (ordered : low ≤ high) (e : Expression)
    (pieces : List Expression) (outer : List (List Expression)) :
    (Gap.times low high).foldlM step ⟨.piece, e :: pieces, outer⟩ =
      some ⟨.between, .repeated e low (some high) :: pieces, outer⟩ := by
  have lower : ('{' :: Decimal.digits low).foldlM step ⟨.piece, e :: pieces, outer⟩ =
      some ⟨.counting (Decimal.digits low), e :: pieces, outer⟩ :=
    foldlM_digits .counting (fun ds c digit => by rw [step_counting, if_pos digit])
      (Decimal.digits_isDigit low) []
  have comma : step ⟨.counting (Decimal.digits low), e :: pieces, outer⟩ ',' =
      some ⟨.countingTo low [], e :: pieces, outer⟩ := by
    rw [step_counting, if_neg (by decide), if_pos ⟨rfl, Decimal.digits_ne_nil low⟩,
      Decimal.value_digits]
  have upper : (',' :: Decimal.digits high).foldlM step
      ⟨.counting (Decimal.digits low), e :: pieces, outer⟩ =
        some ⟨.countingTo low (Decimal.digits high), e :: pieces, outer⟩ := by
    rw [List.foldlM_cons, comma]
    exact foldlM_digits (.countingTo low) (fun ds c digit => by rw [step_countingTo, if_pos digit])
      (Decimal.digits_isDigit high) []
  have close : step ⟨.countingTo low (Decimal.digits high), e :: pieces, outer⟩ '}' =
      some ⟨.quantified, .repeated e low (some high) :: pieces, outer⟩ := by
    rw [step_countingTo, if_neg (by decide), if_pos ⟨rfl, Decimal.digits_ne_nil high⟩,
      Decimal.value_digits]
    exact if_pos (by simpa using ordered)
  rw [Gap.times, List.append_assoc, foldlM_append_of lower, foldlM_append_of upper, List.foldlM_cons,
    close]
  rfl

end Draft

theorem expression?_words {low high : Nat} (ordered : low ≤ high) (sameLine : Bool) :
    expression? (Gap.words low high sameLine).chars = some (.ofGap (.words low high sameLine)) := by
  have word : (Gap.nextWord sameLine).foldlM Draft.step {} =
      some ⟨.piece, [.nextWord sameLine], []⟩ := by
    cases sameLine <;> rfl
  rw [expression?, Gap.chars, List.append_assoc, List.append_assoc, Draft.foldlM_append_of word,
    Draft.foldlM_append_of (Draft.foldlM_times ordered _ _ _)]
  rfl

end Pattern

open Pattern

namespace Gap

def IsOrdered : Gap → Prop
  | .words low high _ => low ≤ high
  | _ => True

/-- The texts that a gap is meant to span. Across lines these are all; on one line they have no line
break; and as a number of words they are spaced and have as many. -/
def Admits (a : Alphabet) (g : List Char) : Gap → Prop
  | .document => True
  | .line => '\n' ∉ g
  | .words low high sameLine => a.IsSpaced g ∧ low ≤ (a.words g).length ∧
      (a.words g).length ≤ high ∧ (sameLine = true → a.BreaksLast g)

theorem expression?_chars {gap : Gap} (ordered : gap.IsOrdered) :
    expression? gap.chars = some (.ofGap gap) := by
  cases gap with
  | document => rfl
  | line => rfl
  | words low high sameLine => exact expression?_words ordered sameLine

theorem mem_language (a : Alphabet) (g : List Char) (gap : Gap) :
    g ∈ (Expression.ofGap gap).language a ↔ gap.Admits a g := by
  cases gap with
  | document =>
    rw [Expression.ofGap, Expression.language, Expression.language, mul_one, Expression.mem_run]
    simp [Admits, Class.holds, Member.holds]
  | line =>
    rw [Expression.ofGap, Expression.language, Expression.language, mul_one, Expression.mem_run]
    have held (c : Char) : Class.holds a ⟨true, [.lineBreak]⟩ c = true ↔ c ≠ '\n' := by
      simp [Class.holds, Member.holds]
    simp only [Nat.zero_le, true_and, held]
    exact List.forall_mem_ne'
  | words low high sameLine =>
    rw [Expression.ofGap, Expression.language, Expression.language, Expression.language, mul_one,
      Expression.mem_repeated_mul]
    simp only [mem_spaced, Option.mem_some_iff, forall_eq']
    constructor
    · rintro ⟨n, least, most, spaced, rfl, last⟩
      exact ⟨spaced, least, most, last⟩
    · rintro ⟨spaced, least, most, last⟩
      exact ⟨_, least, most, spaced, rfl, last⟩

theorem exists_language {gap : Gap} (ordered : gap.IsOrdered) : ∃ e, expression? gap.chars = some e ∧
    ∀ (a : Alphabet) (g : List Char), g ∈ e.language a ↔ gap.Admits a g :=
  ⟨.ofGap gap, expression?_chars ordered, fun a g => mem_language a g gap⟩

end Gap

/-- Letters, digits and the underscore make words. -/
def Pattern.Alphabet.latin : Alphabet where
  isWord c := c.isAlphanum || c == '_'
  isBlank := Char.isWhitespace
  lineBreak := rfl

/-- The text of a gap of words matches exactly the texts that begin and end outside of words and have
as many words as the gap allows, as long as they do not break the line of a gap on one line. -/
theorem word_gaps_count_words (low high : Nat) (ordered : low ≤ high) (sameLine : Bool) :
    ∃ e, expression? (Gap.words low high sameLine).chars = some e ∧
      ∀ (a : Alphabet) (g : List Char), (sameLine = true → '\n' ∉ g) →
        (g ∈ e.language a ↔
          (∃ c ∈ g.head?, a.isWord c = false) ∧ (∃ c ∈ g.getLast?, a.isWord c = false) ∧
            low ≤ (a.words g).length ∧ (a.words g).length ≤ high) := by
  have in_order : (Gap.words low high sameLine).IsOrdered := ordered
  obtain ⟨e, spelled, language⟩ := Gap.exists_language in_order
  refine ⟨e, spelled, fun a g unbroken => (language a g).trans ?_⟩
  constructor
  · rintro ⟨⟨first, last⟩, least, most, -⟩
    exact ⟨first, last, least, most⟩
  · rintro ⟨first, last, least, most⟩
    exact ⟨⟨first, last⟩, least, most, fun same => Alphabet.breaksLast_of_notMem (unbroken same)⟩

/-- Two words among marks, three words, and a text that begins with a word. -/
theorem word_gaps_count_words_marked :
    1 ≤ 2 ∧ ∃ e, expression? (Gap.words 1 2 true).chars = some e ∧
      ", an_ox 2!".toList ++ [' '] ∈ e.language .latin ∧ " a b c ".toList ∉ e.language .latin ∧
      "a b ".toList ∉ e.language .latin := by
  obtain ⟨e, spelled, counts⟩ := word_gaps_count_words 1 2 (by decide) true
  refine ⟨by decide, e, spelled, ?_, ?_, ?_⟩
  · exact (counts _ _ (by decide)).2 ⟨⟨',', rfl, rfl⟩, ⟨' ', rfl, rfl⟩, by decide, by decide⟩
  · intro member
    obtain ⟨-, -, -, most⟩ := (counts _ _ (by decide)).1 member
    exact absurd most (by decide)
  · intro member
    obtain ⟨⟨c, ⟨⟩, outside⟩, -⟩ := (counts _ _ (by decide)).1 member
    cases outside

/-- On one line a gap of words breaks the line nowhere before its last word, but behind it the gap may
break it, for every distance. The gap of the operators that take no distance breaks it nowhere. -/
theorem sameLine_gaps_break_last (d s : Value) (truthy : s.isTrue = true) {r : Proximity.Range}
    (accepted : Proximity.range d = .ok r) :
    Operator.near.configure ⟨d, s⟩ = .ok (.relation .present (.words r.low r.high true)) ∧
    Operator.beyond.configure ⟨d, s⟩ = .ok (.relation .absent (.words 0 r.high true)) ∧
    (∀ low ∈ [r.low, 0], ∃ e, expression? (Gap.words low r.high true).chars = some e ∧
      ∀ (a : Alphabet) (g : List Char), '\n' ∈ g →
        (g ∈ e.language a ↔ a.IsSpaced g ∧ low ≤ (a.words g).length ∧
          (a.words g).length ≤ r.high ∧ a.BreaksLast g)) ∧
    ∀ op ∈ [Operator.alongside, .without], ∃ presence gap e, op = .relation presence gap ∧
      expression? gap.chars = some e ∧
      ∀ (a : Alphabet) (g : List Char), '\n' ∈ g → g ∉ e.language a := by
  obtain ⟨near, beyond⟩ := Operator.configure_of_range accepted s
  rw [truthy] at near beyond
  refine ⟨near, beyond, ?_, ?_⟩
  · intro low member
    have ordered : low ≤ r.high := by
      obtain rfl | rfl := List.mem_pair.1 member
      · exact r.low_le_high
      · exact Nat.zero_le _
    have in_order : (Gap.words low r.high true).IsOrdered := ordered
    obtain ⟨e, spelled, language⟩ := Gap.exists_language in_order
    refine ⟨e, spelled, fun a g _ => (language a g).trans ?_⟩
    simp only [Gap.Admits, forall_const]
  · have in_order : Gap.line.IsOrdered := trivial
    obtain ⟨e, spelled, language⟩ := Gap.exists_language in_order
    have unbroken : ∀ (a : Alphabet) (g : List Char), '\n' ∈ g → g ∉ e.language a :=
      fun a g broken member => (language a g).1 member broken
    intro op member
    obtain rfl | rfl := List.mem_pair.1 member
    · exact ⟨.present, .line, e, rfl, spelled, unbroken⟩
    · exact ⟨.absent, .line, e, rfl, spelled, unbroken⟩

/-- A line break behind the last word, and one before it. -/
theorem sameLine_gaps_break_last_placed :
    (Value.bool true).isTrue = true ∧ Proximity.range (.int 3) = .ok (.upTo 3) ∧
      ∃ e, expression? (Gap.words 0 3 true).chars = some e ∧
        " an ox\n".toList ∈ e.language .latin ∧ " an\nox ".toList ∉ e.language .latin := by
  have accepted : Proximity.range (.int 3) = .ok (.upTo 3) := rfl
  obtain ⟨-, -, each, -⟩ := sameLine_gaps_break_last (.int 3) (.bool true) rfl accepted
  obtain ⟨e, spelled, language⟩ := each 0 (by decide)
  refine ⟨rfl, accepted, e, spelled, ?_, ?_⟩
  · have spaced : Alphabet.latin.IsSpaced " an ox\n".toList := ⟨⟨' ', rfl, rfl⟩, ⟨'\n', rfl, rfl⟩⟩
    exact (language _ _ (by decide)).2 ⟨spaced, by decide, by decide, by decide⟩
  · intro member
    have last := ((language _ _ (by decide)).1 member).2.2.2
    exact absurd last (by decide)

/-- Right between two keywords a line break is a gap on one line. -/
theorem not_sameLine_gaps_break_nowhere :
    ¬ ∀ (a : Alphabet) (d s : Value) (r : Proximity.Range), s.isTrue = true →
      Proximity.range d = .ok r → ∀ presence gap e,
        Operator.near.configure ⟨d, s⟩ = .ok (.relation presence gap) →
        expression? gap.chars = some e → ∀ g ∈ e.language a, '\n' ∉ g := by
  intro unbroken
  have spelled := expression?_words (Nat.zero_le 10) true
  have broken : ['\n'] ∈ (Expression.ofGap (.words 0 10 true)).language .latin :=
    (Gap.mem_language _ _ _).2 ⟨⟨⟨'\n', rfl, rfl⟩, ⟨'\n', rfl, rfl⟩⟩, by decide, by decide,
      fun _ => by decide⟩
  exact unbroken .latin (.int 10) (.bool true) (.upTo 10) rfl rfl _ _ _ rfl spelled _ broken
    List.mem_cons_self

end LoreTree
