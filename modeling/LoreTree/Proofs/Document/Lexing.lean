import LoreTree.Json.Token
import LoreTree.Json.Writer
import Mathlib.Data.List.Forall2
import Mathlib.Data.List.TakeWhile
import Mathlib.Tactic.SplitIfs
/-!
A written document is read as the tokens of its value, whatever its layout. A number or a word ends
only with the character after it, so what follows a written value has to begin with a mark or a blank.
-/

namespace LoreTree

theorem Decimal.head_digits {n : Nat} (positive : 0 < n) :
    ∃ c cs, digits n = c :: cs ∧ c ≠ '0' := by
  fun_induction digits n with
  | case1 n small =>
    have other : ∀ n < 10, 0 < n → digit n ≠ '0' := by decide
    exact ⟨_, [], rfl, other n small positive⟩
  | case2 n large ih =>
    obtain ⟨c, cs, first, other⟩ := ih (by omega)
    exact ⟨c, cs ++ [digit (n % 10)], by rw [first, List.cons_append], other⟩

namespace Json

namespace Numeral

def ofInt (n : Int) : Numeral :=
  ⟨n < 0, Decimal.digits n.natAbs, none, none⟩

theorem wholeAllowed_digits (n : Nat) : wholeAllowed (Decimal.digits n) = true := by
  rcases Nat.eq_zero_or_pos n with rfl | positive
  · simp [Decimal.digits, Decimal.digit, wholeAllowed]
  · obtain ⟨c, cs, split, other⟩ := Decimal.head_digits positive
    rw [split]
    unfold wholeAllowed
    split <;> simp_all

theorem someDigits?_digits (n : Nat) :
    someDigits? (Decimal.digits n) = some (Decimal.digits n, []) := by
  have all := Decimal.digits_isDigit n
  have nonempty : ¬(Decimal.digits n).isEmpty = true :=
    mt List.isEmpty_iff.1 (Decimal.digits_ne_nil n)
  rw [someDigits?, List.takeWhile_eq_self_iff.2 all, List.dropWhile_eq_nil_iff.2 all,
    if_neg nonempty]

theorem unsigned?_digits (negative : Bool) (n : Nat) :
    unsigned? negative (Decimal.digits n) = some ⟨negative, Decimal.digits n, none, none⟩ := by
  rw [unsigned?, someDigits?_digits]
  simp [wholeAllowed_digits, fraction?, exponent?, guard]

theorem ofChars?_ofInt (n : Int) : ofChars? (Decimal.ofInt n) = some (ofInt n) := by
  cases n with
  | ofNat n =>
    have unsigned : ∀ cs, Decimal.digits n ≠ '-' :: cs := by
      intro cs same
      have digit := Decimal.digits_isDigit n '-' (by simp [same])
      cases digit
    rw [Decimal.ofInt]
    unfold ofChars?
    split
    · exact absurd ‹_› (unsigned _)
    · rw [unsigned?_digits]
      simp [ofInt]
  | negSucc n =>
    rw [Decimal.ofInt]
    change unsigned? true (Decimal.digits (n + 1)) = _
    rw [unsigned?_digits]
    simp [ofInt]

theorem signedWhole_ofInt (n : Int) : (ofInt n).signedWhole = Decimal.ofInt n := by
  cases n with
  | ofNat n => exact if_neg (by simp [ofInt])
  | negSucc n => exact if_pos (decide_eq_true (Int.negSucc_lt_zero n))

theorem toJson_ofInt (n : Int) : (ofInt n).toJson = .int n := by
  have whole : (ofInt n).fraction.isNone = true ∧ (ofInt n).exponent.isNone = true := ⟨rfl, rfl⟩
  rw [toJson, if_pos whole]
  cases n with
  | ofNat n => exact congrArg (fun k : Nat => Json.int k) (Decimal.value_digits n)
  | negSucc n =>
    have negative : (ofInt (.negSucc n)).negative = true := decide_eq_true (Int.negSucc_lt_zero n)
    rw [negative]
    exact congrArg (fun k : Nat => Json.int (-k)) (Decimal.value_digits (n + 1))

end Numeral

mutual

def isExact : Json → Bool
  | .float _ => false
  | .array items => itemsExact items
  | .object members => membersExact members
  | _ => true

def itemsExact : List Json → Bool
  | [] => true
  | v :: vs => v.isExact && itemsExact vs

def membersExact : List (String × Json) → Bool
  | [] => true
  | (_, v) :: rest => v.isExact && membersExact rest

end

theorem itemsExact_eq (items : List Json) : itemsExact items = items.all isExact := by
  induction items with
  | nil => rfl
  | cons v items ih => simp [itemsExact, ih]

theorem membersExact_eq (members : List (String × Json)) :
    membersExact members = members.all (·.2.isExact) := by
  induction members with
  | nil => rfl
  | cons m members ih => simp [membersExact, ih]

mutual

/-- The tokens of a value; a float is none of those that documents spell with digits. -/
def tokens : Json → List Token
  | .int n => [.number (.ofInt n)]
  | .text s => [.text s]
  | .array items => .openArray :: List.intercalate [.comma] (itemTokens items) ++ [.closeArray]
  | .object members => .openObject :: List.intercalate [.comma] (memberTokens members) ++ [.closeObject]
  | v => [.word v]

def itemTokens : List Json → List (List Token)
  | [] => []
  | v :: vs => v.tokens :: itemTokens vs

def memberTokens : List (String × Json) → List (List Token)
  | [] => []
  | (name, v) :: rest => (.text name :: .colon :: v.tokens) :: memberTokens rest

end

section Layouts

/-- What is true of blanks is true of a line break if it is kept when texts are put together. -/
theorem lineBreak_of_blanks {P : List Char → Prop} (nothing : P [])
    (blank : ∀ c, Token.isBlank c = true → P [c]) (append : ∀ a b, P a → P b → P (a ++ b))
    (l : Layout) (depth : Nat) : P (l.lineBreak depth) := by
  cases l with
  | compact => exact nothing
  | indented width =>
    have spaces : ∀ n, P (List.replicate n ' ') := by
      intro n
      induction n with
      | zero => exact nothing
      | succ n ih => exact append [' '] _ (blank ' ' rfl) ih
    exact append ['\n'] _ (blank '\n' rfl) (spaces (width * depth))

/-- Items that correspond one by one correspond as a whole with separators between them, if two of
them do. -/
theorem forall₂_intercalate {α β : Type} {R : List α → List β → Prop} {sep : List α}
    {sep' : List β} (nothing : R [] [])
    (join : ∀ {a b s t}, R a s → R b t → R (a ++ sep ++ b) (s ++ sep' ++ t))
    {items : List (List α)} {images : List (List β)} (each : List.Forall₂ R items images) :
    R (List.intercalate sep items) (List.intercalate sep' images) := by
  induction each with
  | nil => exact nothing
  | cons first rest ih =>
    cases rest with
    | nil =>
      rw [List.intercalate_singleton, List.intercalate_singleton]
      exact first
    | cons second rest =>
      rw [List.intercalate_cons_cons, List.intercalate_cons_cons]
      exact join first ih

end Layouts

namespace Token

namespace Machine

def lex? (m : Machine) (cs : List Char) : Option (List Token) := do
  let m ← cs.foldlM step m
  m.settle?

theorem lex?_cons {m n : Machine} {c : Char} (stepped : m.step c = some n) (cs : List Char) :
    m.lex? (c :: cs) = n.lex? cs := by
  rw [lex?, List.foldlM_cons, stepped]
  rfl

end Machine

theorem ofChars?_eq (cs : List Char) : ofChars? cs = (Machine.start.lex? cs).map List.reverse := by
  unfold ofChars? Machine.lex?
  cases cs.foldlM Machine.step .start with
  | none => rfl
  | some m => cases h : m.settle? <;> simp [h]

/-- Characters that are in no number and no word. -/
def isDelimiter (c : Char) : Bool :=
  !c.isAlpha && !isNumeric c

theorem ne_of_not_isDelimiter {c : Char} (solid : isDelimiter c = false) :
    ∀ d ∈ [' ', '\t', '\n', '\r', '[', ']', '{', '}', ',', ':', '"'], c ≠ d := by
  have marks : [' ', '\t', '\n', '\r', '[', ']', '{', '}', ',', ':', '"'].all isDelimiter = true := rfl
  rintro d member rfl
  rw [List.all_eq_true.1 marks c member] at solid
  cases solid

/-- Where a number or a word is over, the next character is read as it is between tokens. -/
theorem step_of_isDelimiter {m : Machine} {c : Char} {ts : List Token} (settled : m.settle? = some ts)
    (delimiter : isDelimiter c = true) : m.step c = Machine.between ts c := by
  simp only [isDelimiter, Bool.and_eq_true, Bool.not_eq_true'] at delimiter
  obtain ⟨tokens, mode⟩ := m
  cases mode with
  | between =>
    cases settled
    rfl
  | word | number => simp [Machine.step, delimiter, settled]
  | _ => cases settled

/-- Characters after which a number or a word is over. -/
def Delimits (cs : List Char) : Prop :=
  ∀ c ∈ cs.head?, isDelimiter c = true

/-- The characters are read as the tokens, whatever comes after them. -/
def Marks (part : List Char) (ts : List Token) : Prop :=
  ∀ before rest, Machine.lex? ⟨before, .between⟩ (part ++ rest) =
    Machine.lex? ⟨ts.reverse ++ before, .between⟩ rest

/-- The same, as long as a delimiter or nothing comes after them. -/
def Lexes (part : List Char) (ts : List Token) : Prop :=
  ∀ before rest, Delimits rest → Machine.lex? ⟨before, .between⟩ (part ++ rest) =
    Machine.lex? ⟨ts.reverse ++ before, .between⟩ rest

section Parts

variable {a b : List Char} {c : Char} {s t : List Token} {m : Machine}

theorem Marks.lexes (h : Marks a s) : Lexes a s :=
  fun before rest _ => h before rest

theorem Marks.append (ha : Marks a s) (hb : Marks b t) : Marks (a ++ b) (s ++ t) := by
  intro before rest
  rw [List.append_assoc, ha, hb, List.reverse_append, List.append_assoc]

theorem Marks.append_lexes (ha : Marks a s) (hb : Lexes b t) : Lexes (a ++ b) (s ++ t) := by
  intro before rest delimited
  rw [List.append_assoc, ha, hb _ _ delimited, List.reverse_append, List.append_assoc]

theorem Lexes.append_marks (ha : Lexes a s) (hb : Marks b t)
    (delimiter : b.head?.any isDelimiter = true) : Marks (a ++ b) (s ++ t) := by
  intro before rest
  have delimited : Delimits (b ++ rest) := by
    cases b with
    | nil => cases delimiter
    | cons c b =>
      rintro d ⟨⟩
      exact delimiter
  rw [List.append_assoc, ha _ _ delimited, hb, List.reverse_append, List.append_assoc]

theorem marks_nil : Marks [] [] :=
  fun _ _ => rfl

theorem marks_token {t : Token}
    (h : ∀ before, Machine.step ⟨before, .between⟩ c = some ⟨t :: before, .between⟩) : Marks [c] [t] :=
  fun before _ => Machine.lex?_cons (h before) _

theorem marks_blank (blank : isBlank c = true) : Marks [c] [] := by
  intro before rest
  have skipped : Machine.step ⟨before, .between⟩ c = some ⟨before, .between⟩ := if_pos blank
  exact Machine.lex?_cons skipped rest

theorem lex?_settled {ts : List Token} (settled : m.settle? = some ts) {rest : List Char}
    (delimited : Delimits rest) : m.lex? rest = Machine.lex? ⟨ts, .between⟩ rest := by
  cases rest with
  | nil => exact settled
  | cons c rest =>
    have next : m.step c = Machine.step ⟨ts, .between⟩ c :=
      step_of_isDelimiter settled (delimited c rfl)
    rw [Machine.lex?, Machine.lex?, List.foldlM_cons, List.foldlM_cons, next]

end Parts

section Words

theorem lexes_word {part : List Char} (read : List Char) {v : Json}
    (value : wordValue? read.reverse = some v)
    (reads : ∀ before rest, Machine.lex? ⟨before, .between⟩ (part ++ rest) =
      Machine.lex? ⟨before, .word read⟩ rest) : Lexes part [.word v] := by
  intro before rest delimited
  have settled : Machine.settle? ⟨before, .word read⟩ = some (.word v :: before) := by
    simp [Machine.settle?, value]
  rw [reads, lex?_settled settled delimited]
  rfl

theorem not_isDelimiter_numeral {c : Char} (numeral : c = '-' ∨ c.isDigit = true) :
    isDelimiter c = false := by
  rcases numeral with rfl | digit
  · rfl
  · simp [isDelimiter, isNumeric, digit]

theorem step_numeral {c : Char} (numeral : c = '-' ∨ c.isDigit = true) (before : List Token) :
    Machine.step ⟨before, .between⟩ c = some ⟨before, .number [c]⟩ := by
  have other := ne_of_not_isDelimiter (not_isDelimiter_numeral numeral)
  simp only [List.mem_cons, List.not_mem_nil, or_false, forall_eq_or_imp, forall_eq] at other
  simp [Machine.step, Machine.between, isBlank, other, numeral]

theorem lex?_numeral {part : List Char} (numeral : ∀ c ∈ part, c = '-' ∨ c.isDigit = true)
    (before : List Token) (read rest : List Char) :
    Machine.lex? ⟨before, .number read⟩ (part ++ rest) =
      Machine.lex? ⟨before, .number (part.reverse ++ read)⟩ rest := by
  induction part generalizing read with
  | nil => rfl
  | cons c part ih =>
    obtain ⟨head, tail⟩ := List.forall_mem_cons.1 numeral
    have stepped : Machine.step ⟨before, .number read⟩ c = some ⟨before, .number (c :: read)⟩ := by
      rcases head with rfl | digit
      · rfl
      · simp [Machine.step, isNumeric, digit]
    rw [List.cons_append, Machine.lex?_cons stepped, ih tail, List.reverse_cons, List.append_assoc]
    rfl

theorem lexes_numeral {part : List Char} {n : Numeral}
    (numeral : ∀ c ∈ part, c = '-' ∨ c.isDigit = true) (value : Numeral.ofChars? part = some n) :
    Lexes part [.number n] := by
  cases part with
  | nil => cases value
  | cons c part =>
    obtain ⟨head, tail⟩ := List.forall_mem_cons.1 numeral
    intro before rest delimited
    have settled : Machine.settle? ⟨before, .number (part.reverse ++ [c])⟩ =
        some (.number n :: before) := by
      simp [Machine.settle?, value]
    rw [List.cons_append, Machine.lex?_cons (step_numeral head before), lex?_numeral tail,
      lex?_settled settled delimited]
    rfl

theorem mem_ofInt {n : Int} {c : Char} (member : c ∈ Decimal.ofInt n) :
    c = '-' ∨ c.isDigit = true := by
  cases n with
  | ofNat n => exact .inr (Decimal.digits_isDigit n c member)
  | negSucc n => exact (List.mem_cons.1 member).imp_right (Decimal.digits_isDigit (n + 1) c)

theorem lexes_int (n : Int) : Lexes (Decimal.ofInt n) [.number (.ofInt n)] :=
  lexes_numeral (fun _ => mem_ofInt) (Numeral.ofChars?_ofInt n)

end Words

section Texts

theorem hexValue?_hexDigit : ∀ n < 16, hexValue? (Text.hexDigit n) = some n := by decide

/-- The code unit of a control character has two digits after two zeros. -/
theorem lex?_unit {n : Nat} (control : n < 0x20) (before : List Token) (read rest : List Char) :
    Machine.lex? ⟨before, .escape read⟩ ('u' :: Text.hex 4 n ++ rest) =
      Machine.lex? ⟨before, .text (Char.ofNat n :: read)⟩ rest := by
  have digits : ∀ n < 0x20,
      Text.hex 4 n = ['0', '0', Text.hexDigit (n / 16), Text.hexDigit (n % 16)] := by decide
  have high : Machine.step ⟨before, .unit read none 2 0⟩ (Text.hexDigit (n / 16)) =
      some ⟨before, .unit read none 1 (n / 16)⟩ := by
    simp [Machine.step, hexValue?_hexDigit (n / 16) (by omega)]
  have whole : 16 * (n / 16) + n % 16 = n := Nat.div_add_mod n 16
  have no_half : isFirstHalf n = false ∧ isSecondHalf n = false := by
    simp only [isFirstHalf, isSecondHalf, Bool.and_eq_false_iff, decide_eq_false_iff_not]
    omega
  have single : unitMode? read none n = some (.text (Char.ofNat n :: read)) := by
    simp [unitMode?, no_half]
  have low : Machine.step ⟨before, .unit read none 1 (n / 16)⟩ (Text.hexDigit (n % 16)) =
      some ⟨before, .text (Char.ofNat n :: read)⟩ := by
    simp [Machine.step, hexValue?_hexDigit (n % 16) (by omega), whole, single]
  rw [digits n control]
  change Machine.lex? ⟨before, .unit read none 2 0⟩
    (Text.hexDigit (n / 16) :: Text.hexDigit (n % 16) :: rest) = _
  rw [Machine.lex?_cons high, Machine.lex?_cons low]

theorem lex?_writtenChar (c : Char) (before : List Token) (read rest : List Char) :
    Machine.lex? ⟨before, .text read⟩ (writtenChar c ++ rest) =
      Machine.lex? ⟨before, .text (c :: read)⟩ rest := by
  unfold writtenChar
  split_ifs with quote backslash back feed line ret tab control
  -- the escapes of one letter
  any_goals
    subst c
    rfl
  · have escape : Machine.step ⟨before, .text read⟩ '\\' = some ⟨before, .escape read⟩ := rfl
    rw [List.cons_append, Machine.lex?_cons escape, lex?_unit control, Char.ofNat_toNat]
  · have stepped : Machine.step ⟨before, .text read⟩ c = some ⟨before, .text (c :: read)⟩ := by
      simp [Machine.step, quote, backslash, control]
    exact Machine.lex?_cons stepped rest

theorem lex?_writtenChars (cs : List Char) (before : List Token) (read rest : List Char) :
    Machine.lex? ⟨before, .text read⟩ (cs.flatMap writtenChar ++ rest) =
      Machine.lex? ⟨before, .text (cs.reverse ++ read)⟩ rest := by
  induction cs generalizing read with
  | nil => rfl
  | cons c cs ih =>
    rw [List.flatMap_cons, List.append_assoc, lex?_writtenChar, ih, List.reverse_cons,
      List.append_assoc]
    rfl

theorem marks_text (s : String) : Marks (writtenText s) [.text s] := by
  intro before rest
  have opened : Machine.step ⟨before, .between⟩ '"' = some ⟨before, .text []⟩ := rfl
  have closed : Machine.step ⟨before, .text (s.toList.reverse ++ [])⟩ '"' =
      some ⟨.text s :: before, .between⟩ := by
    simp [Machine.step]
  rw [writtenText, List.cons_append, List.cons_append, List.append_assoc, Machine.lex?_cons opened,
    lex?_writtenChars, List.singleton_append, Machine.lex?_cons closed]
  rfl

end Texts

section Containers

theorem marks_lineBreak (l : Layout) (depth : Nat) : Marks (l.lineBreak depth) [] :=
  lineBreak_of_blanks (P := (Marks · [])) marks_nil (fun _ => marks_blank)
    (fun _ _ => Marks.append) l depth

theorem marks_colon (l : Layout) : Marks l.colon [.colon] := by
  have colon : Marks [':'] [.colon] := marks_token fun _ => rfl
  cases l with
  | compact => exact colon
  | indented width => exact colon.append (marks_blank rfl)

theorem lexes_items {parts : List (List Char)} {tokens : List (List Token)} (l : Layout) (depth : Nat)
    (each : List.Forall₂ Lexes parts tokens) :
    Lexes (List.intercalate (',' :: l.lineBreak depth) parts) (List.intercalate [.comma] tokens) := by
  have comma : Marks [','] [.comma] := marks_token fun _ => rfl
  have separator := comma.append (marks_lineBreak l depth)
  refine forall₂_intercalate marks_nil.lexes ?_ each
  intro a b s t first rest
  -- the comma ends the item before it, even a number
  exact (first.append_marks separator rfl).append_lexes rest

theorem marks_container {parts : List (List Char)} {tokens : List (List Token)}
    {opening closing : Char} {left right : Token} (l : Layout) (depth : Nat)
    (opens : Marks [opening] [left]) (closes : Marks [closing] [right])
    (delimiter : isDelimiter closing = true) (each : List.Forall₂ Lexes parts tokens) :
    Marks (l.container opening closing depth parts)
      (left :: List.intercalate [.comma] tokens ++ [right]) := by
  cases each with
  | nil => exact opens.append closes
  | @cons part ts parts tokens first rest =>
    have begins := opens.append (marks_lineBreak l (depth + 1))
    have items := lexes_items l (depth + 1) (.cons first rest)
    have ends := (marks_lineBreak l depth).append closes
    have delimited : (l.lineBreak depth ++ [closing]).head?.any isDelimiter = true := by
      cases l with
      | compact => exact delimiter
      | indented width => rfl
    have whole := (begins.append_lexes items).append_marks ends delimited
    simpa [Layout.container] using whole

end Containers

mutual

theorem lexes_write (l : Layout) (depth : Nat) (v : Json) (h : v.isExact = true) :
    Lexes (v.write l depth) v.tokens := by
  cases v with
  | null => exact lexes_word ['l', 'l', 'u', 'n'] rfl fun _ _ => rfl
  | bool b =>
    cases b with
    | false => exact lexes_word ['e', 's', 'l', 'a', 'f'] rfl fun _ _ => rfl
    | true => exact lexes_word ['e', 'u', 'r', 't'] rfl fun _ _ => rfl
  | int n => exact lexes_int n
  | float x => cases h
  | text s => exact (marks_text s).lexes
  | array items =>
    have opens : Marks ['['] [.openArray] := marks_token fun _ => rfl
    have closes : Marks [']'] [.closeArray] := marks_token fun _ => rfl
    exact (marks_container l depth opens closes rfl (lexes_writeItems l (depth + 1) items h)).lexes
  | object members =>
    have opens : Marks ['{'] [.openObject] := marks_token fun _ => rfl
    have closes : Marks ['}'] [.closeObject] := marks_token fun _ => rfl
    exact (marks_container l depth opens closes rfl
      (lexes_writeMembers l (depth + 1) members h)).lexes

theorem lexes_writeItems (l : Layout) (depth : Nat) (items : List Json)
    (h : itemsExact items = true) :
    List.Forall₂ Lexes (writeItems l depth items) (itemTokens items) := by
  cases items with
  | nil => exact .nil
  | cons v items =>
    obtain ⟨first, rest⟩ := (Bool.and_eq_true_iff ..).1 h
    exact .cons (lexes_write l depth v first) (lexes_writeItems l depth items rest)

theorem lexes_writeMembers (l : Layout) (depth : Nat) (members : List (String × Json))
    (h : membersExact members = true) :
    List.Forall₂ Lexes (writeMembers l depth members) (memberTokens members) := by
  cases members with
  | nil => exact .nil
  | cons member members =>
    obtain ⟨name, v⟩ := member
    obtain ⟨first, rest⟩ := (Bool.and_eq_true_iff ..).1 h
    have key := (marks_text name).append (marks_colon l)
    exact .cons (key.append_lexes (lexes_write l depth v first))
      (lexes_writeMembers l depth members rest)

end

/-- Every layout of a value has the same tokens. -/
theorem ofChars?_write (l : Layout) {v : Json} (h : v.isExact = true) :
    ofChars? (v.write l 0) = some v.tokens := by
  have nothing_after : Delimits [] := by simp [Delimits]
  have whole := lexes_write l 0 v h [] [] nothing_after
  rw [List.append_nil] at whole
  rw [ofChars?_eq, Machine.start, whole]
  simp [Machine.lex?, Machine.settle?]

end Token

end Json

end LoreTree
