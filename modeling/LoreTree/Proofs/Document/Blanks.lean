import LoreTree.Proofs.Document.Lexing
/-!
The layouts of a document differ only in the blanks outside of its texts: without those, every one
of them is the compact one.
-/

namespace LoreTree.Json

/-- Where the next character of a document stands. -/
inductive Place
  | outside
  | inside
  | escaped

/-- The characters of a document without the blanks that are not inside of a text. -/
def withoutBlanks : Place → List Char → List Char
  | _, [] => []
  | .outside, c :: cs =>
    if Token.isBlank c then withoutBlanks .outside cs
    else c :: withoutBlanks (if c = '"' then .inside else .outside) cs
  | .inside, c :: cs =>
    c :: withoutBlanks (if c = '"' then .outside else if c = '\\' then .escaped else .inside) cs
  | .escaped, c :: cs => c :: withoutBlanks .inside cs

/-- Between texts, `part` is `short` and blanks. -/
def Squeezes (part short : List Char) : Prop :=
  ∀ rest, withoutBlanks .outside (part ++ rest) = short ++ withoutBlanks .outside rest

section Parts

variable {a b s t : List Char}

theorem squeezes_nil : Squeezes [] [] :=
  fun _ => rfl

theorem Squeezes.append (ha : Squeezes a s) (hb : Squeezes b t) : Squeezes (a ++ b) (s ++ t) := by
  intro rest
  rw [List.append_assoc, ha, hb, List.append_assoc]

theorem squeezes_blank {c : Char} (blank : Token.isBlank c = true) : Squeezes [c] [] := by
  intro rest
  simp [withoutBlanks, blank]

theorem squeezes_plain {part : List Char}
    (plain : part.all (fun c => !Token.isBlank c && c != '"') = true) : Squeezes part part := by
  induction part with
  | nil => exact squeezes_nil
  | cons c part ih =>
    simp only [List.all_cons, Bool.and_eq_true, Bool.not_eq_true', bne_iff_ne] at plain
    obtain ⟨⟨solid, other⟩, tail⟩ := plain
    intro rest
    simp [withoutBlanks, solid, other, ih (by simpa using tail) rest]

theorem squeezes_lineBreak (l : Layout) (depth : Nat) : Squeezes (l.lineBreak depth) [] :=
  lineBreak_of_blanks (P := (Squeezes · [])) squeezes_nil (fun _ => squeezes_blank)
    (fun _ _ => Squeezes.append) l depth

theorem squeezes_colon (l : Layout) : Squeezes l.colon [':'] := by
  have colon : Squeezes [':'] [':'] := squeezes_plain rfl
  cases l with
  | compact => exact colon
  | indented width => exact colon.append (squeezes_blank rfl)

end Parts

section Texts

theorem withoutBlanks_inside {part : List Char}
    (plain : part.all (fun c => c != '"' && c != '\\') = true) (rest : List Char) :
    withoutBlanks .inside (part ++ rest) = part ++ withoutBlanks .inside rest := by
  induction part with
  | nil => rfl
  | cons c part ih =>
    simp only [List.all_cons, Bool.and_eq_true, bne_iff_ne] at plain
    obtain ⟨⟨quote, backslash⟩, tail⟩ := plain
    simp [withoutBlanks, quote, backslash, ih (by simpa using tail)]

theorem writtenChar_shape (c : Char) :
    (∃ d ds, writtenChar c = '\\' :: d :: ds ∧ ds.all (fun c => c != '"' && c != '\\') = true) ∨
      writtenChar c = [c] ∧ c ≠ '"' ∧ c ≠ '\\' := by
  unfold writtenChar
  split_ifs with quote backslash back feed line ret tab control
  any_goals exact .inl ⟨_, [], rfl, rfl⟩
  · have digits : ∀ n < 0x20, (Text.hex 4 n).all (fun c => c != '"' && c != '\\') = true := by
      decide
    exact .inl ⟨'u', _, rfl, digits c.toNat control⟩
  · exact .inr ⟨rfl, quote, backslash⟩

theorem withoutBlanks_writtenChar (c : Char) (rest : List Char) :
    withoutBlanks .inside (writtenChar c ++ rest) =
      writtenChar c ++ withoutBlanks .inside rest := by
  rcases writtenChar_shape c with ⟨d, ds, escape, plain⟩ | ⟨shown, quote, backslash⟩
  · have escaped : ∀ cs, withoutBlanks .inside ('\\' :: d :: cs) =
        '\\' :: d :: withoutBlanks .inside cs := fun _ => rfl
    simp [escape, escaped, withoutBlanks_inside plain]
  · simp [shown, withoutBlanks, quote, backslash]

theorem squeezes_text (s : String) : Squeezes (writtenText s) (writtenText s) := by
  have inner : ∀ (cs rest : List Char), withoutBlanks .inside (cs.flatMap writtenChar ++ rest) =
      cs.flatMap writtenChar ++ withoutBlanks .inside rest := by
    intro cs rest
    induction cs with
    | nil => rfl
    | cons c cs ih =>
      rw [List.flatMap_cons, List.append_assoc, withoutBlanks_writtenChar, ih, List.append_assoc]
  have opening : ∀ cs, withoutBlanks .outside ('"' :: cs) = '"' :: withoutBlanks .inside cs :=
    fun _ => rfl
  have closing : ∀ cs, withoutBlanks .inside ('"' :: cs) = '"' :: withoutBlanks .outside cs :=
    fun _ => rfl
  intro rest
  simp [writtenText, opening, inner, closing]

example : withoutBlanks .outside ['[', ' ', '"', ' ', '\\', '"', ' ', '"', '\n', ']'] =
    ['[', '"', ' ', '\\', '"', ' ', '"', ']'] := rfl

end Texts

theorem squeezes_int (n : Int) : Squeezes (Decimal.ofInt n) (Decimal.ofInt n) := by
  refine squeezes_plain (List.all_eq_true.2 fun c member => ?_)
  have other := Token.ne_of_not_isDelimiter (Token.not_isDelimiter_numeral (Token.mem_ofInt member))
  simp only [List.mem_cons, List.not_mem_nil, or_false, forall_eq_or_imp, forall_eq] at other
  simp [Token.isBlank, other]

section Containers

variable {parts shorts : List (List Char)}

theorem squeezes_items (l : Layout) (depth : Nat) (each : List.Forall₂ Squeezes parts shorts) :
    Squeezes (List.intercalate (',' :: l.lineBreak depth) parts) (List.intercalate [','] shorts) := by
  have comma : Squeezes [','] [','] := squeezes_plain rfl
  have separator := comma.append (squeezes_lineBreak l depth)
  refine forall₂_intercalate squeezes_nil ?_ each
  intro a b s t first rest
  exact (first.append separator).append rest

theorem squeezes_container {opening closing : Char} (l : Layout) (depth depth' : Nat)
    (opens : Squeezes [opening] [opening]) (closes : Squeezes [closing] [closing])
    (each : List.Forall₂ Squeezes parts shorts) :
    Squeezes (l.container opening closing depth parts)
      (Layout.compact.container opening closing depth' shorts) := by
  cases each with
  | nil => exact opens.append closes
  | cons first rest =>
    have items := squeezes_items l (depth + 1) (.cons first rest)
    have begins := opens.append (squeezes_lineBreak l (depth + 1))
    have ends := (squeezes_lineBreak l depth).append closes
    have whole := (begins.append items).append ends
    simpa [Layout.container, Layout.lineBreak] using whole

end Containers

mutual

theorem squeezes_write (l : Layout) (depth depth' : Nat) (v : Json) (h : v.isExact = true) :
    Squeezes (v.write l depth) (v.write .compact depth') := by
  cases v with
  | null => exact squeezes_plain rfl
  | bool b => cases b <;> exact squeezes_plain rfl
  | int n => exact squeezes_int n
  | float x => cases h
  | text s => exact squeezes_text s
  | array items =>
    have opens : Squeezes ['['] ['['] := squeezes_plain rfl
    have closes : Squeezes [']'] [']'] := squeezes_plain rfl
    exact squeezes_container l depth depth' opens closes
      (squeezes_writeItems l (depth + 1) (depth' + 1) items h)
  | object members =>
    have opens : Squeezes ['{'] ['{'] := squeezes_plain rfl
    have closes : Squeezes ['}'] ['}'] := squeezes_plain rfl
    exact squeezes_container l depth depth' opens closes
      (squeezes_writeMembers l (depth + 1) (depth' + 1) members h)

theorem squeezes_writeItems (l : Layout) (depth depth' : Nat) (items : List Json)
    (h : itemsExact items = true) :
    List.Forall₂ Squeezes (writeItems l depth items) (writeItems .compact depth' items) := by
  cases items with
  | nil => exact .nil
  | cons v items =>
    obtain ⟨first, rest⟩ := (Bool.and_eq_true_iff ..).1 h
    exact .cons (squeezes_write l depth depth' v first)
      (squeezes_writeItems l depth depth' items rest)

theorem squeezes_writeMembers (l : Layout) (depth depth' : Nat) (members : List (String × Json))
    (h : membersExact members = true) :
    List.Forall₂ Squeezes (writeMembers l depth members) (writeMembers .compact depth' members) := by
  cases members with
  | nil => exact .nil
  | cons member members =>
    obtain ⟨name, v⟩ := member
    obtain ⟨first, rest⟩ := (Bool.and_eq_true_iff ..).1 h
    have key := (squeezes_text name).append (squeezes_colon l)
    exact .cons (key.append (squeezes_write l depth depth' v first))
      (squeezes_writeMembers l depth depth' members rest)

end

theorem withoutBlanks_write (l : Layout) (depth : Nat) {v : Json} (h : v.isExact = true) :
    withoutBlanks .outside (v.write l depth) = v.write .compact 0 := by
  have whole := squeezes_write l depth 0 v h []
  simpa [withoutBlanks] using whole

end LoreTree.Json
