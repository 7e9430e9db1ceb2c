import LoreTree.Proofs.Pattern.Wording
/-!
Patterns can be read in one way only. A sense followed by something that ends it is known from its
text: keywords are known from their escapes, gaps from their counts, and of a chain of relations the
innermost left side comes first, so two chains agree up to the end of the shorter one.
-/

namespace LoreTree

open Fragment

section Digits

variable {ds es x y : List Char} {c d : Char}

theorem Decimal.takeWhile_digits (n : Nat) (hc : c.isDigit = false) :
    (digits n ++ c :: x).takeWhile Char.isDigit = digits n := by
  rw [List.takeWhile_append_of_pos (digits_isDigit n),
    List.takeWhile_cons_of_neg (by rw [hc]; exact Bool.false_ne_true), List.append_nil]

/-- A number that is followed by no digit is known from its digits. -/
theorem Decimal.digits_append_inj {n m : Nat} (hc : c.isDigit = false) (hd : d.isDigit = false)
    (same : digits n ++ c :: x = digits m ++ d :: y) : n = m ∧ c :: x = d :: y := by
  have front := congrArg (List.takeWhile Char.isDigit) same
  rw [takeWhile_digits n hc, takeWhile_digits m hd] at front
  constructor
  · rw [← value_digits n, front, value_digits m]
  · rw [front] at same
    exact List.append_cancel_left same

end Digits

theorem Gap.chars_append_inj {g h : Gap} {x y : List Char} (same : g.chars ++ x = h.chars ++ y) :
    g = h ∧ x = y := by
  cases g with
  | document =>
    cases h with
    | document => exact ⟨rfl, List.append_cancel_left same⟩
    | line => cases same
    | words => cases same
  | line =>
    cases h with
    | document => cases same
    | line => exact ⟨rfl, List.append_cancel_left same⟩
    | words => cases same
  | words low high sameLine =>
    cases h with
    | document => cases same
    | line => cases same
    | words low' high' sameLine' =>
      have lines : sameLine = sameLine' := by
        cases sameLine <;> cases sameLine' <;> first | rfl | cases same
      subst lines
      simp only [chars, times, List.append_assoc, List.cons_append, List.append_cancel_left_eq,
        List.cons.injEq, true_and] at same
      obtain ⟨rfl, upper⟩ := Decimal.digits_append_inj (by decide) (by decide) same
      have upper := (List.cons.inj upper).2
      obtain ⟨rfl, rest⟩ := Decimal.digits_append_inj (by decide) (by decide) upper
      exact ⟨rfl, by simpa [notWord] using rest⟩

namespace Fragment

def escaped (c : Char) : List Char :=
  if isSpecial c then ['\\', c] else [c]

theorem escape_cons (c : Char) (word : List Char) : escape (c :: word) = escaped c ++ escape word :=
  List.flatMap_cons

theorem isSpecial_backslash : isSpecial '\\' = true := by decide

theorem escaped_append_inj {c d : Char} {x y : List Char} (same : escaped c ++ x = escaped d ++ y) :
    c = d ∧ x = y := by
  unfold escaped at same
  by_cases hc : isSpecial c = true
  · rw [if_pos hc] at same
    by_cases hd : isSpecial d = true
    · rw [if_pos hd] at same
      cases same
      exact ⟨rfl, rfl⟩
    · rw [if_neg hd] at same
      cases same
      exact (hd isSpecial_backslash).elim
  · rw [if_neg hc] at same
    by_cases hd : isSpecial d = true
    · rw [if_pos hd] at same
      cases same
      exact (hc isSpecial_backslash).elim
    · rw [if_neg hd] at same
      cases same
      exact ⟨rfl, rfl⟩

/-- A text that does not begin with a character of a keyword. -/
def EndsWord (x : List Char) : Prop :=
  ∀ c rest, x ≠ escaped c ++ rest

theorem endsWord_nil : EndsWord [] := by
  intro c rest same
  unfold escaped at same
  split at same
  · cases same
  · cases same

theorem endsWord_special {c : Char} (special : isSpecial c = true) (other : c ≠ '\\')
    (rest : List Char) : EndsWord (c :: rest) := by
  intro d more same
  unfold escaped at same
  split at same
  · cases same
    exact other rfl
  · next plain =>
    cases same
    exact plain special

theorem endsWord_boundary (rest : List Char) : EndsWord (boundary ++ rest) := by
  intro c more same
  unfold escaped at same
  split at same
  · next special =>
    cases same
    exact absurd special (by decide)
  · next plain =>
    cases same
    exact plain isSpecial_backslash

theorem escape_append_inj {v w x y : List Char} (hx : EndsWord x) (hy : EndsWord y)
    (same : escape v ++ x = escape w ++ y) : v = w ∧ x = y := by
  induction v generalizing w with
  | nil =>
    cases w with
    | nil => exact ⟨rfl, same⟩
    | cons d w =>
      rw [escape_cons, List.append_assoc] at same
      exact (hx d _ same).elim
  | cons c v ih =>
    rw [escape_cons, List.append_assoc] at same
    cases w with
    | nil => exact (hy c _ same.symm).elim
    | cons d w =>
      rw [escape_cons, List.append_assoc] at same
      obtain ⟨rfl, others⟩ := escaped_append_inj same
      obtain ⟨rfl, rest⟩ := ih others
      exact ⟨rfl, rest⟩

/-- What comes after a pattern inside of a larger one. -/
inductive Follows : List Char → Prop
  | nothing : Follows []
  | opening (x : List Char) : Follows ('(' :: x)
  | closing (x : List Char) : Follows (')' :: x)
  | bar (x : List Char) : Follows ('|' :: x)

theorem Follows.endsWord {x : List Char} (h : Follows x) : EndsWord x := by
  cases h with
  | nothing => exact endsWord_nil
  | opening | closing | bar => exact endsWord_special (by decide) (by decide) _

end Fragment

namespace Form

def opening : Form → List Char
  | .exact => boundary
  | .startsWith => boundary
  | .endsWith => openRun
  | .contains => openRun

def closing : Form → List Char
  | .exact => boundary
  | .startsWith => []
  | .endsWith => boundary
  | .contains => []

theorem chars_fragment (form : Form) (word : List Char) :
    (form.fragment word).chars = form.opening ++ (escape word ++ form.closing) := by
  cases form <;> simp [fragment, Fragment.exact, Fragment.startsWith, Fragment.endsWith,
    Fragment.contains, opening, closing]

theorem eq_of_opening_of_closing {f g : Form} (front : f.opening = g.opening)
    (back : f.closing = g.closing) : f = g := by
  revert front back
  cases f <;> cases g <;> decide

theorem opening_append_inj {f g : Form} {x y : List Char}
    (same : f.opening ++ x = g.opening ++ y) : f.opening = g.opening ∧ x = y := by
  have choices (f : Form) : f.opening = boundary ∨ f.opening = openRun := by
    cases f <;> decide
  rcases choices f with hf | hf <;> rcases choices g with hg | hg
  · rw [hf, hg] at same ⊢
    exact ⟨rfl, List.append_cancel_left same⟩
  · rw [hf, hg] at same
    cases same
  · rw [hf, hg] at same
    cases same
  · rw [hf, hg] at same ⊢
    exact ⟨rfl, List.append_cancel_left same⟩

theorem endsWord_closing (f : Form) {x : List Char} (hx : Follows x) : EndsWord (f.closing ++ x) := by
  cases f with
  | exact | endsWith => exact endsWord_boundary x
  | startsWith | contains => exact hx.endsWord

theorem closing_append_inj {f g : Form} {x y : List Char} (hx : Follows x) (hy : Follows y)
    (same : f.closing ++ x = g.closing ++ y) : f.closing = g.closing ∧ x = y := by
  have choices (f : Form) : f.closing = boundary ∨ f.closing = [] := by
    cases f <;> decide
  rcases choices f with hf | hf <;> rcases choices g with hg | hg
  · rw [hf, hg] at same ⊢
    exact ⟨rfl, List.append_cancel_left same⟩
  · rw [hf, hg] at same
    cases hy <;> cases same
  · rw [hf, hg] at same
    cases hx <;> cases same
  · rw [hf, hg] at same ⊢
    exact ⟨rfl, same⟩

/-- A keyword is known from its text: where it begins and ends and what is in between. -/
theorem fragment_append_inj {f g : Form} {v w x y : List Char} (hx : Follows x) (hy : Follows y)
    (same : (f.fragment v).chars ++ x = (g.fragment w).chars ++ y) : f = g ∧ v = w ∧ x = y := by
  rw [chars_fragment, chars_fragment, List.append_assoc, List.append_assoc, List.append_assoc,
    List.append_assoc] at same
  obtain ⟨front, inside⟩ := opening_append_inj same
  obtain ⟨rfl, after⟩ := escape_append_inj (f.endsWord_closing hx) (g.endsWord_closing hy) inside
  obtain ⟨back, rest⟩ := closing_append_inj hx hy after
  exact ⟨eq_of_opening_of_closing front back, rfl, rest⟩

end Form

namespace Sense

def chars (s : Sense) : List Char :=
  s.fragment.chars

/-- What a relation adds to the text of its left side. -/
def suffix (r : Relation) (left right : Sense) : List Char :=
  match r.presence with
  | .present =>
    group together (group ahead (r.gap.chars ++ right.chars) ++
      '|' :: group behind (right.chars ++ r.gap.chars ++ left.chars))
  | .absent =>
    group notAhead (r.gap.chars ++ right.chars) ++
      group notBehind (right.chars ++ r.gap.chars ++ left.chars)

theorem chars_related (r : Relation) (left right : Sense) :
    (related r left right).chars = left.chars ++ suffix r left right := by
  rw [chars, fragment, suffix]
  unfold relate
  cases r.presence with
  | present => rfl
  | absent => exact List.append_assoc _ _ _

theorem exists_suffix_eq (r : Relation) (left right : Sense) :
    ∃ rest, suffix r left right = '(' :: rest := by
  rw [suffix]
  cases r.presence <;> exact ⟨_, rfl⟩

/-- A chain of relations that starts from a sense, and what it adds to the text of that. -/
inductive Extends (s : Sense) : Sense → List Char → Prop
  | refl : Extends s s []
  | related {t : Sense} {z : List Char} (r : Relation) (right : Sense) :
      Extends s t z → Extends s (.related r t right) (z ++ suffix r t right)

namespace Extends

variable {s t : Sense} {y z : List Char}

theorem chars_eq (h : Extends s t z) : t.chars = s.chars ++ z := by
  induction h with
  | refl => exact (List.append_nil _).symm
  | related r right _ ih => rw [chars_related, ih, List.append_assoc]

/-- The first relation of a chain. -/
theorem first (h : Extends s t z) : t = s ∧ z = [] ∨
    ∃ r right more, Extends (.related r s right) t more ∧ z = suffix r s right ++ more := by
  induction h with
  | refl => exact .inl ⟨rfl, rfl⟩
  | related r right _ ih =>
    rcases ih with ⟨rfl, rfl⟩ | ⟨q, inner, more, longer, rfl⟩
    · exact .inr ⟨r, right, [], .refl, by rw [List.append_nil, List.nil_append]⟩
    · exact .inr ⟨q, inner, _, longer.related r right, List.append_assoc _ _ _⟩

theorem eq_or_opening (h : Extends s t z) : t = s ∧ z = [] ∨ ∃ rest, z = '(' :: rest := by
  rcases h.first with same | ⟨r, right, more, -, rfl⟩
  · exact .inl same
  · obtain ⟨rest, suffix⟩ := exists_suffix_eq r s right
    rw [suffix]
    exact .inr ⟨_, rfl⟩

theorem follows (h : Extends s t z) (hy : Follows y) : Follows (z ++ y) := by
  rcases h.eq_or_opening with ⟨-, rfl⟩ | ⟨rest, rfl⟩
  · exact hy
  · exact .opening _

end Extends

/-- One of two senses is the beginning of a chain that makes the other, and the texts after them
differ by that. -/
def Aligned (s : Sense) (x : List Char) (t : Sense) (y : List Char) : Prop :=
  (∃ z, Extends s t z ∧ x = z ++ y) ∨ ∃ z, Extends t s z ∧ y = z ++ x

theorem Aligned.eq {s t : Sense} {x y : List Char} (h : Aligned s x t y)
    (hx : ∀ rest, x ≠ '(' :: rest) (hy : ∀ rest, y ≠ '(' :: rest) : s = t ∧ x = y := by
  rcases h with ⟨z, longer, rfl⟩ | ⟨z, longer, rfl⟩
  · rcases longer.eq_or_opening with ⟨rfl, rfl⟩ | ⟨rest, rfl⟩
    · exact ⟨rfl, rfl⟩
    · exact (hx _ rfl).elim
  · rcases longer.eq_or_opening with ⟨rfl, rfl⟩ | ⟨rest, rfl⟩
    · exact ⟨rfl, rfl⟩
    · exact (hy _ rfl).elim

/-- A sense that is known as soon as its text is followed by something that ends it. -/
def IsReadable (s : Sense) : Prop :=
  ∀ {t : Sense} {x y : List Char}, Follows x → Follows y → s.chars ++ x = t.chars ++ y →
    Aligned s x t y

/-- Once the left side is known, a relation is known from what it adds. -/
theorem suffix_append_inj {r q : Relation} {left a b : Sense} {x y : List Char}
    (known : a.IsReadable) (same : suffix r left a ++ x = suffix q left b ++ y) :
    r = q ∧ a = b ∧ x = y := by
  have right_known {u v : List Char} (same : a.chars ++ ')' :: u = b.chars ++ ')' :: v) :
      a = b ∧ u = v := by
    have aligned := known (.closing u) (.closing v) same
    obtain ⟨rfl, rest⟩ := aligned.eq nofun nofun
    exact ⟨rfl, (List.cons.inj rest).2⟩
  rw [suffix, suffix] at same
  cases hr : r.presence with
  | present =>
    cases hq : q.presence with
    | present =>
      simp only [hr, hq, group, together, ahead, List.append_assoc, List.cons_append,
        List.nil_append, List.cons.injEq, true_and] at same
      obtain ⟨gap, inside⟩ := Gap.chars_append_inj same
      obtain ⟨rfl, rest⟩ := right_known inside
      cases Relation.eq_of_presence_of_gap (hr.trans hq.symm) gap
      exact ⟨rfl, rfl, by simpa using rest⟩
    | absent =>
      simp only [hr, hq] at same
      cases same
  | absent =>
    cases hq : q.presence with
    | present =>
      simp only [hr, hq] at same
      cases same
    | absent =>
      simp only [hr, hq, group, notAhead, List.append_assoc, List.cons_append,
        List.nil_append, List.cons.injEq, true_and] at same
      obtain ⟨gap, inside⟩ := Gap.chars_append_inj same
      obtain ⟨rfl, rest⟩ := right_known inside
      cases Relation.eq_of_presence_of_gap (hr.trans hq.symm) gap
      exact ⟨rfl, rfl, by simpa using rest⟩

/-- Every chain starts from a keyword or from a choice. -/
theorem exists_start : (t : Sense) → ∃ s z, Extends s t z ∧
    ((∃ form word, s = .keyword form word) ∨ ∃ alternates, s = .choice alternates)
  | .keyword form word => ⟨_, _, .refl, .inl ⟨form, word, rfl⟩⟩
  | .choice alternates => ⟨_, _, .refl, .inr ⟨alternates, rfl⟩⟩
  | .related r left right => by
    obtain ⟨s, z, longer, start⟩ := exists_start left
    exact ⟨s, _, longer.related r right, start⟩

/-- The alternates of a choice, each with a bar before it. -/
def barred (alternates : List Sense) : List Char :=
  alternates.flatMap fun s => '|' :: s.chars

theorem chars_choice_cons (s : Sense) (ss : List Sense) :
    (choice (s :: ss)).chars = together ++ (s.chars ++ (barred ss ++ [')'])) := by
  have inside (f : Fragment) : List.intercalate ['|'] ((f :: fragments ss).map Fragment.chars) =
      f.chars ++ barred ss := by
    induction ss generalizing f with
    | nil => simp [fragments, barred]
    | cons t ss ih =>
      rw [fragments, List.map_cons, List.map_cons, List.intercalate_cons_cons, ← List.map_cons, ih]
      simp [barred, chars]
  rw [chars, fragment, fragments]
  unfold alternation
  rw [inside, group]
  simp [chars]

theorem keyword_chars_ne_choice_chars (form : Form) (word : String) (alternates : List Sense)
    (x y : List Char) : (keyword form word).chars ++ x ≠ (choice alternates).chars ++ y := by
  intro same
  rw [chars, fragment, chars, fragment, Form.chars_fragment] at same
  cases form <;> cases same

/-- A sense begins with a word boundary, a run of letters or a group. -/
theorem chars_ne_closing (s : Sense) (x rest : List Char) : s.chars ++ x ≠ ')' :: rest := by
  intro same
  obtain ⟨t, z, longer, start⟩ := exists_start s
  rw [longer.chars_eq, List.append_assoc] at same
  rcases start with ⟨form, word, rfl⟩ | ⟨alternates, rfl⟩
  · rw [chars, fragment, Form.chars_fragment] at same
    cases form <;> cases same
  · cases same

theorem barred_of_choice {ss ts : List Sense} {x y : List Char}
    (same : (choice ss).chars ++ x = (choice ts).chars ++ y) :
    barred ss ++ ')' :: x = barred ts ++ ')' :: y := by
  cases ss with
  | nil =>
    cases ts with
    | nil => exact congrArg (')' :: ·) (List.append_cancel_left same)
    | cons t ts =>
      rw [chars_choice_cons, List.append_assoc, List.append_assoc] at same
      have opened : together ++ ')' :: x = together ++ (t.chars ++ (barred ts ++ [')'] ++ y)) := same
      exact (chars_ne_closing t _ _ (List.append_cancel_left opened).symm).elim
  | cons s ss =>
    rw [chars_choice_cons, List.append_assoc, List.append_assoc] at same
    cases ts with
    | nil =>
      have opened : together ++ (s.chars ++ (barred ss ++ [')'] ++ x)) = together ++ ')' :: y := same
      exact (chars_ne_closing s _ _ (List.append_cancel_left opened)).elim
    | cons t ts =>
      rw [chars_choice_cons, List.append_assoc, List.append_assoc] at same
      simpa [barred] using List.append_cancel_left same

theorem follows_barred (ss : List Sense) (x : List Char) : Follows (barred ss ++ ')' :: x) := by
  cases ss with
  | nil => exact .closing x
  | cons s ss => exact .bar _

theorem barred_ne_opening (ss : List Sense) (x rest : List Char) :
    barred ss ++ ')' :: x ≠ '(' :: rest := by
  cases ss <;> exact nofun

theorem isReadable_keyword (form : Form) (word : String) : (keyword form word).IsReadable := by
  intro t x y hx hy same
  obtain ⟨s, z, longer, start⟩ := exists_start t
  rw [longer.chars_eq, List.append_assoc] at same
  rcases start with ⟨form', word', rfl⟩ | ⟨alternates, rfl⟩
  · obtain ⟨rfl, words, rest⟩ := Form.fragment_append_inj hx (longer.follows hy) same
    cases String.toList_inj.1 words
    exact .inl ⟨z, longer, rest⟩
  · exact (keyword_chars_ne_choice_chars _ _ _ _ _ same).elim

theorem isReadable_choice {ss : List Sense}
    (known : ∀ {ts x y}, barred ss ++ ')' :: x = barred ts ++ ')' :: y → ss = ts ∧ x = y) :
    (choice ss).IsReadable := by
  intro t x y hx hy same
  obtain ⟨s, z, longer, start⟩ := exists_start t
  rw [longer.chars_eq, List.append_assoc] at same
  rcases start with ⟨form, word, rfl⟩ | ⟨ts, rfl⟩
  · exact (keyword_chars_ne_choice_chars _ _ _ _ _ same.symm).elim
  · obtain ⟨rfl, rest⟩ := known (barred_of_choice same)
    exact .inl ⟨z, longer, rest⟩

theorem isReadable_related (r : Relation) {left right : Sense} (left_known : left.IsReadable)
    (right_known : right.IsReadable) : (related r left right).IsReadable := by
  intro t x y hx hy same
  have more_follows : Follows (suffix r left right ++ x) := by
    obtain ⟨rest, suffix⟩ := exists_suffix_eq r left right
    rw [suffix]
    exact .opening _
  rw [chars_related, List.append_assoc] at same
  rcases left_known more_follows hy same with ⟨z, longer, rest⟩ | ⟨z, longer, rest⟩
  · -- the other sense goes on after the left side, and if at all with the same relation
    rcases longer.first with ⟨rfl, rfl⟩ | ⟨q, other, more, further, rfl⟩
    · exact .inr ⟨_, Extends.refl.related r right, by rw [List.nil_append]; exact rest.symm⟩
    · rw [List.append_assoc] at rest
      obtain ⟨rfl, rfl, after⟩ := suffix_append_inj right_known rest
      exact .inl ⟨more, further, after⟩
  · exact .inr ⟨_, longer.related r right, by rw [rest, List.append_assoc]⟩

mutual

theorem isReadable : (s : Sense) → s.IsReadable
  | .keyword form word => isReadable_keyword form word
  | .choice alternates => isReadable_choice (barred_append_inj alternates)
  | .related r left right => isReadable_related r (isReadable left) (isReadable right)

theorem barred_append_inj : (ss : List Sense) → ∀ {ts : List Sense} {x y : List Char},
    barred ss ++ ')' :: x = barred ts ++ ')' :: y → ss = ts ∧ x = y
  | [], ts, x, y, same => by
    cases ts with
    | nil =>
      cases same
      exact ⟨rfl, rfl⟩
    | cons t ts => cases same
  | s :: ss, ts, x, y, same => by
    cases ts with
    | nil => cases same
    | cons t ts =>
      have heads : s.chars ++ (barred ss ++ ')' :: x) = t.chars ++ (barred ts ++ ')' :: y) := by
        simpa [barred] using same
      have aligned := isReadable s (follows_barred ss x) (follows_barred ts y) heads
      obtain ⟨rfl, tails⟩ := aligned.eq (barred_ne_opening ss x) (barred_ne_opening ts y)
      obtain ⟨rfl, rest⟩ := barred_append_inj ss tails
      exact ⟨rfl, rest⟩

end

theorem fragment_injective {s t : Sense} (same : s.fragment = t.fragment) : s = t := by
  have texts : s.chars ++ [] = t.chars ++ [] := by
    rw [chars, chars, same]
  have aligned := isReadable s .nothing .nothing texts
  exact (aligned.eq nofun nofun).1

end Sense

/-- Two wordings compile to the same pattern exactly if they are the same with all shorthands spelled
out. Every wording compiles. -/
theorem patterns_uniquely_readable (w v : Wording) :
    ∃ f g, w.pattern = .ok f ∧ v.pattern = .ok g ∧ (f = g ↔ w.sense = v.sense) := by
  refine ⟨_, _, w.pattern_eq, v.pattern_eq, Sense.fragment_injective, ?_⟩
  intro same
  rw [same]

/-- A distance as a list of bounds in the wrong order, with the other option by name. -/
def swappedBounds : Reach where
  places := [.list [.int 10, .int (-3)]]
  names := [("same_line", .int 1)]
  options := { distance := .list [.int 10, .int (-3)], sameLine := .int 1 }
  taken := rfl
  range := .between 10 (-3)
  accepted := rfl

example : (Wording.expression true (.plain "a") .near (.plain "b")).sense =
    (Wording.related (.keyword .startsWith "a") (.near swappedBounds) (.plain "b")).sense := rfl

end LoreTree
