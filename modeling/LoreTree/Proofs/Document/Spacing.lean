import LoreTree.Proofs.Document.Blanks
import LoreTree.Proofs.Document.Syntax
import Mathlib.Data.List.Chain
/-!
Texts of documents that differ only in blanks outside of their texts have the same tokens. Without
blanks two numbers or words could run together; in a document a mark stands between any two of them.
-/

namespace LoreTree.Json

namespace Token

/-- Numbers and words: they are over only with the character after them. -/
def isBare : Token → Bool
  | .number _ => true
  | .word _ => true
  | _ => false

/-- Of any two neighbours one is a mark or a text. -/
def Apart (ts : List Token) : Prop :=
  ts.IsChain fun t u => (t.isBare && u.isBare) = false

section Apart

variable {t : Token} {a b : List Token}

theorem apart_single (t : Token) : Apart [t] :=
  List.isChain_singleton t

theorem Apart.cons (mark : t.isBare = false) (h : Apart b) : Apart (t :: b) := by
  refine List.isChain_cons.2 ⟨fun u _ => ?_, h⟩
  rw [mark, Bool.false_and]

theorem Apart.append (ha : Apart a) (mark : t.isBare = false) (hb : Apart b) :
    Apart (a ++ t :: b) := by
  refine List.isChain_append.2 ⟨ha, hb.cons mark, ?_⟩
  rintro u _ _ ⟨⟩
  rw [mark, Bool.and_false]

theorem Apart.reverse (h : Apart a) : Apart a.reverse := by
  refine List.isChain_reverse.2 (h.imp fun t u other => ?_)
  rw [Bool.and_comm, other]

theorem apart_intercalate {parts : List (List Token)} (each : ∀ ts ∈ parts, Apart ts) :
    Apart (List.intercalate [.comma] parts) := by
  induction parts with
  | nil => exact .nil
  | cons a parts ih =>
    obtain ⟨first, rest⟩ := List.forall_mem_cons.1 each
    cases parts with
    | nil =>
      rw [List.intercalate_singleton]
      exact first
    | cons b parts =>
      rw [List.intercalate_cons_cons, List.append_assoc]
      exact first.append rfl (ih rest)

/-- Two bare tokens do not end up side by side. -/
theorem Apart.not_suffix {u : Token} {rest : List Token} (h : Apart a) (first : t.isBare = true)
    (second : u.isBare = true) : ¬t :: u :: rest <:+ a := by
  rintro ⟨front, rfl⟩
  have neighbours := (List.isChain_append_cons_cons.1 h).2.1
  rw [first, second] at neighbours
  cases neighbours

end Apart

end Token

theorem Document.apart_tokens (d : Document) : Token.Apart d.tokens := by
  induction d using induction with
  | word | number | text => exact Token.apart_single _
  | array items each =>
    have inner := Token.apart_intercalate (List.forall_mem_map.2 each)
    rw [tokens_array]
    exact (inner.cons rfl).append rfl .nil
  | object members each =>
    have pieces : ∀ m ∈ members, Token.Apart (.text m.1 :: .colon :: m.2.tokens) :=
      fun m member => ((each m member).cons rfl).cons rfl
    have inner := Token.apart_intercalate (List.forall_mem_map.2 pieces)
    rw [tokens_object]
    exact (inner.cons rfl).append rfl .nil

/-- Where the character after `c` stands. -/
def Place.after (c : Char) : Place → Place
  | .outside => if c = '"' then .inside else .outside
  | .inside => if c = '"' then .outside else if c = '\\' then .escaped else .inside
  | .escaped => .inside

theorem withoutBlanks_skip {c : Char} (blank : Token.isBlank c = true) (cs : List Char) :
    withoutBlanks .outside (c :: cs) = withoutBlanks .outside cs :=
  if_pos blank

theorem withoutBlanks_keep {p : Place} {c : Char}
    (kept : p = .outside → Token.isBlank c = false) (cs : List Char) :
    withoutBlanks p (c :: cs) = c :: withoutBlanks (p.after c) cs := by
  cases p with
  | outside =>
    rw [withoutBlanks, kept rfl]
    rfl
  | inside | escaped => rfl

namespace Token

def Mode.place : Mode → Place
  | .between | .word _ | .number _ => .outside
  | .text _ | .unit .. | .half .. => .inside
  | .escape _ | .halfEscape .. => .escaped

def Mode.isBare : Mode → Bool
  | .word _ => true
  | .number _ => true
  | _ => false

namespace Machine

variable {m m' n : Machine} {c : Char} {cs : List Char} {ts final : List Token}

theorem lex?_cons_eq_some (lexed : m.lex? (c :: cs) = some final) :
    ∃ m', m.step c = some m' ∧ m'.lex? cs = some final := by
  rw [lex?, List.foldlM_cons] at lexed
  cases stepped : m.step c with
  | none =>
    rw [stepped] at lexed
    cases lexed
  | some m' =>
    rw [stepped] at lexed
    exact ⟨m', rfl, lexed⟩

theorem settle?_cases (settled : m.settle? = some ts) :
    m.mode = .between ∧ ts = m.tokens ∨
      m.mode.isBare = true ∧ ∃ t, t.isBare = true ∧ ts = t :: m.tokens := by
  obtain ⟨tokens, mode⟩ := m
  cases mode with
  | between => exact .inl ⟨rfl, (Option.some.inj settled).symm⟩
  | word read =>
    obtain ⟨v, -, rfl⟩ := Option.map_eq_some_iff.1 settled
    exact .inr ⟨rfl, _, rfl, rfl⟩
  | number read =>
    obtain ⟨n, -, rfl⟩ := Option.map_eq_some_iff.1 settled
    exact .inr ⟨rfl, _, rfl, rfl⟩
  | _ => cases settled

theorem place_of_isBare {mode : Mode} (bare : mode.isBare = true) : mode.place = .outside := by
  cases mode with
  | word | number => rfl
  | _ => cases bare

theorem place_of_settle? (settled : m.settle? = some ts) : m.mode.place = .outside := by
  rcases settle?_cases settled with ⟨free, -⟩ | ⟨bare, -⟩
  · rw [free]
    rfl
  · exact place_of_isBare bare

theorem ne_quote (solid : isDelimiter c = false) : c ≠ '"' :=
  ne_of_not_isDelimiter solid '"' (by simp)

theorem not_isBlank (solid : isDelimiter c = false) : isBlank c = false := by
  have other := ne_of_not_isDelimiter solid
  simp only [List.mem_cons, List.not_mem_nil, or_false, forall_eq_or_imp, forall_eq] at other
  simp [isBlank, other]

/-- What a character does between tokens: it is skipped, it is a mark, or it begins a text, a number
or a word. -/
theorem between_cases (h : between ts c = some m) :
    isBlank c = true ∧ m = ⟨ts, .between⟩ ∨
      (isBlank c = false ∧ c ≠ '"' ∧ isDelimiter c = true) ∧ (∃ t, m = ⟨t :: ts, .between⟩) ∨
      c = '"' ∧ m = ⟨ts, .text []⟩ ∨
      isDelimiter c = false ∧ m.tokens = ts ∧ m.mode.isBare = true := by
  unfold between at h
  by_cases blank : isBlank c = true
  · rw [if_pos blank] at h
    cases h
    exact .inl ⟨blank, rfl⟩
  rw [if_neg blank] at h
  -- the marks, one after the other
  iterate 6
    split at h
    · subst c
      cases h
      exact .inr (.inl ⟨by decide, _, rfl⟩)
  by_cases quote : c = '"'
  · rw [if_pos quote] at h
    cases h
    exact .inr (.inr (.inl ⟨quote, rfl⟩))
  rw [if_neg quote] at h
  by_cases numeral : (c = '-' || c.isDigit) = true
  · rw [if_pos numeral] at h
    cases h
    have first := ((Bool.or_eq_true_iff ..).1 numeral).imp_left of_decide_eq_true
    exact .inr (.inr (.inr ⟨not_isDelimiter_numeral first, rfl, rfl⟩))
  rw [if_neg numeral] at h
  by_cases alpha : c.isAlpha = true
  · rw [if_pos alpha] at h
    cases h
    refine .inr (.inr (.inr ⟨?_, rfl, rfl⟩))
    simp only [isDelimiter, alpha, Bool.not_true, Bool.false_and]
  · rw [if_neg alpha] at h
    cases h

theorem eq_of_isBlank (h : between ts c = some m) (blank : isBlank c = true) :
    m = ⟨ts, .between⟩ :=
  Option.some.inj (h.symm.trans (if_pos blank))

theorem suffix_of_between (h : between ts c = some m) : ts <:+ m.tokens := by
  rcases between_cases h with ⟨-, rfl⟩ | ⟨-, t, rfl⟩ | ⟨-, rfl⟩ | ⟨-, rfl, -⟩
  · exact List.suffix_rfl
  · exact List.suffix_cons t ts
  · exact List.suffix_rfl
  · exact List.suffix_rfl

theorem tokens_of_isBare (h : between ts c = some m) (bare : m.mode.isBare = true) :
    m.tokens = ts := by
  rcases between_cases h with ⟨-, rfl⟩ | ⟨-, t, rfl⟩ | ⟨-, rfl⟩ | ⟨-, same, -⟩
  · cases bare
  · cases bare
  · cases bare
  · exact same

theorem place_of_between (h : between ts c = some m) :
    m.mode.place = Place.after c .outside := by
  rcases between_cases h with ⟨blank, rfl⟩ | ⟨⟨-, other, -⟩, t, rfl⟩ | ⟨rfl, rfl⟩ | ⟨solid, -, bare⟩
  · have other : c ≠ '"' := by
      rintro rfl
      cases blank
    exact (if_neg other).symm
  · exact (if_neg other).symm
  · rfl
  · rw [place_of_isBare bare]
    exact (if_neg (ne_quote solid)).symm

theorem place_unitMode? {read : List Char} {half : Option Nat} {unit : Nat} {mode : Mode}
    (h : unitMode? read half unit = some mode) : mode.place = .inside := by
  unfold unitMode? at h
  split at h
  · split_ifs at h
    cases h
    rfl
  · split_ifs at h
    · cases h
      rfl
    · cases h
      rfl

/-- What a character does: it is read as it is between tokens once a number or a word is over, it
goes on with one, or it stands in a text. -/
theorem step_cases (h : m.step c = some m') :
    (∃ ts, m.settle? = some ts ∧ between ts c = some m') ∨
      isDelimiter c = false ∧ m.mode.isBare = true ∧ m'.mode.isBare = true ∧ m'.tokens = m.tokens ∨
      m.mode.place ≠ .outside ∧ m'.mode.place = m.mode.place.after c ∧ m.tokens <:+ m'.tokens := by
  obtain ⟨tokens, mode⟩ := m
  cases mode with
  | between => exact .inl ⟨tokens, rfl, h⟩
  | word read =>
    simp only [step] at h
    split_ifs at h with alpha
    · cases h
      exact .inr (.inl ⟨by simp [isDelimiter, alpha], rfl, rfl, rfl⟩)
    · exact .inl (Option.bind_eq_some_iff.1 h)
  | number read =>
    simp only [step] at h
    split_ifs at h with numeric alpha
    · cases h
      exact .inr (.inl ⟨by simp [isDelimiter, numeric], rfl, rfl, rfl⟩)
    · cases h
      have letter : c.isAlpha = true := (Bool.and_eq_true_iff.1 alpha).1
      exact .inr (.inl ⟨by simp [isDelimiter, letter], rfl, rfl, rfl⟩)
    · exact .inl (Option.bind_eq_some_iff.1 h)
  | text read =>
    refine .inr (.inr ⟨by simp [Mode.place], ?_⟩)
    simp only [step] at h
    split_ifs at h with quote backslash
    · cases h
      exact ⟨(if_pos quote).symm, List.suffix_cons ..⟩
    · cases h
      exact ⟨by simp [Mode.place, Place.after, backslash], List.suffix_rfl⟩
    · cases h
      exact ⟨by simp [Mode.place, Place.after, quote, backslash], List.suffix_rfl⟩
  | escape read =>
    refine .inr (.inr ⟨by simp [Mode.place], ?_⟩)
    simp only [step] at h
    split_ifs at h
    · cases h
      exact ⟨rfl, List.suffix_rfl⟩
    · obtain ⟨d, -, rfl⟩ := Option.map_eq_some_iff.1 h
      exact ⟨rfl, List.suffix_rfl⟩
  | unit read half left value =>
    refine .inr (.inr ⟨by simp [Mode.place], ?_⟩)
    obtain ⟨digit, hex, rest⟩ := Option.bind_eq_some_iff.1 h
    have plain : Place.after c .inside = .inside := by
      have quote : c ≠ '"' := by
        rintro rfl
        cases hex
      have backslash : c ≠ '\\' := by
        rintro rfl
        cases hex
      simp [Place.after, quote, backslash]
    simp only [Mode.place, plain]
    split_ifs at rest
    · obtain ⟨mode, made, last⟩ := Option.bind_eq_some_iff.1 rest
      cases last
      exact ⟨place_unitMode? made, List.suffix_rfl⟩
    · cases rest
      exact ⟨rfl, List.suffix_rfl⟩
  | half read first =>
    refine .inr (.inr ⟨by simp [Mode.place], ?_⟩)
    simp only [step] at h
    split_ifs at h with backslash
    cases h
    exact ⟨by simp [Mode.place, Place.after, backslash], List.suffix_rfl⟩
  | halfEscape read first =>
    refine .inr (.inr ⟨by simp [Mode.place], ?_⟩)
    simp only [step] at h
    split_ifs at h
    cases h
    exact ⟨rfl, List.suffix_rfl⟩

theorem place_of_step (h : m.step c = some m') : m'.mode.place = m.mode.place.after c := by
  rcases step_cases h with ⟨ts, settled, next⟩ | ⟨solid, bare, bare', -⟩ | ⟨-, place, -⟩
  · rw [place_of_settle? settled, place_of_between next]
  · rw [place_of_isBare bare, place_of_isBare bare']
    exact (if_neg (ne_quote solid)).symm
  · exact place

/-- The tokens of a document go on from those read so far, with a bare one if one has begun. -/
theorem suffix_of_lex? (lexed : m.lex? cs = some final) :
    m.tokens <:+ final ∧
      (m.mode.isBare = true → ∃ t, t.isBare = true ∧ t :: m.tokens <:+ final) := by
  -- where a token is over, the tokens after it go on from the settled ones
  have settles : ∀ {m : Machine} {ts}, m.settle? = some ts → ts <:+ final → m.tokens <:+ final ∧
      (m.mode.isBare = true → ∃ t, t.isBare = true ∧ t :: m.tokens <:+ final) := by
    intro m ts settled suffix
    rcases settle?_cases settled with ⟨free, rfl⟩ | ⟨-, t, bare, rfl⟩
    · exact ⟨suffix, fun bare => by rw [free] at bare; cases bare⟩
    · exact ⟨(List.suffix_cons t _).trans suffix, fun _ => ⟨t, bare, suffix⟩⟩
  induction cs generalizing m with
  | nil => exact settles lexed List.suffix_rfl
  | cons c cs ih =>
    obtain ⟨m', stepped, rest⟩ := lex?_cons_eq_some lexed
    obtain ⟨suffix, pushed⟩ := ih rest
    rcases step_cases stepped with ⟨ts, settled, next⟩ | ⟨-, -, bare', same⟩ | ⟨inside, -, grown⟩
    · exact settles settled ((suffix_of_between next).trans suffix)
    · rw [← same]
      exact ⟨suffix, fun _ => pushed bare'⟩
    · exact ⟨grown.trans suffix, fun bare => absurd (place_of_isBare bare) inside⟩

/-- What a machine is in that has not been told of the blank after its last token. -/
def Trails (m n : Machine) : Prop :=
  n = m ∨ m.mode = .between ∧ n.settle? = some m.tokens

theorem Trails.settle? (trails : m.Trails n) (settled : m.settle? = some ts) :
    n.settle? = some ts := by
  rcases trails with rfl | ⟨free, trailing⟩
  · exact settled
  · rcases settle?_cases settled with ⟨-, rfl⟩ | ⟨bare, -⟩
    · exact trailing
    · rw [free] at bare
      cases bare

/-- After a settled token a character is read as it is between tokens, if that begins no other bare
token. -/
theorem step_of_settle? (settled : n.settle? = some ts) (next : between ts c = some m)
    (apart : n.mode.isBare = true → m.mode.isBare = false) : n.step c = some m := by
  have delimiter : n.mode.isBare = true → isDelimiter c = true := by
    intro bare
    by_contra solid
    rcases between_cases next with ⟨blank, -⟩ | ⟨⟨-, -, delimiter⟩, -⟩ | ⟨rfl, -⟩ | ⟨-, -, begun⟩
    · rw [not_isBlank (Bool.eq_false_iff.2 solid)] at blank
      cases blank
    · exact solid delimiter
    · exact solid rfl
    · rw [apart bare] at begun
      cases begun
  by_cases bare : n.mode.isBare = true
  · exact (step_of_isDelimiter settled (delimiter bare)).trans next
  · rcases settle?_cases settled with ⟨free, rfl⟩ | ⟨bare', -⟩
    · rw [step, free]
      exact next
    · exact absurd bare' bare

/-- Blanks outside of texts change nothing where bare tokens stand apart. -/
theorem lex?_withoutBlanks (apart : Apart final) (lexed : m.lex? cs = some final)
    (trails : m.Trails n) : n.lex? (withoutBlanks m.mode.place cs) = some final := by
  induction cs generalizing m n with
  | nil => exact trails.settle? lexed
  | cons c cs ih =>
    obtain ⟨m', stepped, rest⟩ := lex?_cons_eq_some lexed
    have kept (solid : m.mode.place = .outside → isBlank c = false)
        (follows : n.step c = some m') :
        n.lex? (withoutBlanks m.mode.place (c :: cs)) = some final := by
      rw [withoutBlanks_keep solid, ← place_of_step stepped, lex?_cons follows]
      exact ih rest (.inl rfl)
    rcases step_cases stepped with ⟨ts, settled, next⟩ | ⟨solid, bare, -⟩ | ⟨inside, -⟩
    · have ended := trails.settle? settled
      by_cases blank : isBlank c = true
      · cases eq_of_isBlank next blank
        rw [place_of_settle? settled, withoutBlanks_skip blank]
        exact ih rest (.inr ⟨rfl, ended⟩)
      · refine kept (fun _ => Bool.eq_false_iff.2 blank) (step_of_settle? ended next ?_)
        -- two bare tokens would stand side by side
        intro pending
        by_contra begun
        rw [Bool.not_eq_false] at begun
        rcases settle?_cases ended with ⟨free, -⟩ | ⟨-, t, first, rfl⟩
        · rw [free] at pending
          cases pending
        · obtain ⟨u, second, suffix⟩ := (suffix_of_lex? rest).2 begun
          rw [tokens_of_isBare next begun] at suffix
          exact apart.not_suffix second first suffix
    · rcases trails with rfl | ⟨free, -⟩
      · exact kept (fun _ => not_isBlank solid) stepped
      · rw [free] at bare
        cases bare
    · rcases trails with rfl | ⟨free, -⟩
      · exact kept (fun outside => absurd outside inside) stepped
      · rw [free] at inside
        exact absurd rfl inside

end Machine

/-- A text of tokens that stand apart has the same tokens without its blanks. -/
theorem ofChars?_withoutBlanks {cs : List Char} {ts : List Token} (apart : Apart ts)
    (read : ofChars? cs = some ts) : ofChars? (withoutBlanks .outside cs) = some ts := by
  rw [ofChars?_eq] at read ⊢
  obtain ⟨final, lexed, rfl⟩ := Option.map_eq_some_iff.1 read
  have reversed := apart.reverse
  rw [List.reverse_reverse] at reversed
  have squeezed := Machine.lex?_withoutBlanks reversed lexed (.inl rfl)
  rw [show Machine.start.mode.place = .outside from rfl] at squeezed
  rw [squeezed, Option.map_some]

end Token

/-- Texts that differ only in blanks have the same tokens. -/
theorem Source.tokens_eq_of_withoutBlanks {s t : Source}
    (same : withoutBlanks .outside s.text.toList = withoutBlanks .outside t.text.toList) :
    s.document.tokens = t.document.tokens := by
  have first := Token.ofChars?_withoutBlanks s.document.apart_tokens s.written
  have second := Token.ofChars?_withoutBlanks t.document.apart_tokens t.written
  rw [same, second] at first
  exact (Option.some.inj first).symm

end LoreTree.Json
