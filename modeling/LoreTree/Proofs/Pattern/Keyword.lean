import LoreTree.Proofs.Pattern.Surface
import LoreTree.Proofs.Success
import LoreTree.Proximity
/-!
Phrases made of keywords alone. However deep they are composed, their patterns read well and no bar
shows outside of a group. A relation adds nothing to its left side but groups that look around, and
both copies of its right side stand inside of these.
-/

namespace LoreTree

open Pattern

/-- Values that authors make of keywords alone: keywords of every form, what calls of operators make
of such values, and expressions that are not evaluated yet. -/
inductive Value.OfKeywords : Value → Prop
  | word (s : String) : OfKeywords (.text s)
  | exact (s : String) : OfKeywords (.fragment (.exact s.toList))
  | startsWith (s : String) : OfKeywords (.fragment (.startsWith s.toList))
  | endsWith (s : String) : OfKeywords (.fragment (.endsWith s.toList))
  | contains (s : String) : OfKeywords (.fragment (.contains s.toList))
  | called {op : Operator} {arguments : List Value} {f : Fragment} :
      (∀ v ∈ arguments, OfKeywords v) → op.call arguments = .ok (.fragment f) →
      OfKeywords (.fragment f)
  | tuple {l r : Value} {op : Operator} :
      OfKeywords l → op ≠ .exact → OfKeywords r → OfKeywords (.tuple [l, .operator op, r])
  | list {l r : Value} {op : Operator} :
      OfKeywords l → op ≠ .exact → OfKeywords r → OfKeywords (.list [l, .operator op, r])

theorem Gap.adds_chars (gap : Gap) : Adds gap.chars [] ⟨false, true⟩ := by
  cases gap with
  | document => exact .reluctant rfl
  | line => exact .reluctant rfl
  | words low high sameLine =>
    have word : tokens? (nextWord sameLine) =
        some [.opening false, .atom, .quantifier, .atom, .quantifier, .closing] := by
      cases sameLine <;> rfl
    have last : tokens? (notWord ++ ['+']) = some [.atom, .quantifier] := rfl
    have all := tokens?_append (tokens?_append word (tokens?_times low high)) last
    rw [← List.append_assoc] at all
    refine ⟨_, all, ?_⟩
    intro r
    refine ⟨.repeated, ?_⟩
    simp [Reader.run, Reader.step, Surface.join, Surface.within]

namespace Fragment

/-- A fragment that reads well and shows no bar. -/
def IsWhole (f : Fragment) : Prop :=
  ∃ consumes, Adds f.chars [] ⟨false, consumes⟩

theorem adds_boundary : Adds boundary [] {} :=
  .assertion rfl

theorem adds_openRun : Adds openRun [] ⟨false, true⟩ :=
  .reluctant rfl

theorem isWhole_exact (word : List Char) : (exact word).IsWhole :=
  ⟨_, (adds_boundary.beside (.escape word)).beside adds_boundary⟩

theorem isWhole_startsWith (word : List Char) : (startsWith word).IsWhole :=
  ⟨_, adds_boundary.beside (.escape word)⟩

theorem isWhole_endsWith (word : List Char) : (endsWith word).IsWhole :=
  ⟨_, (adds_openRun.beside (.escape word)).beside adds_boundary⟩

theorem isWhole_contains (word : List Char) : (contains word).IsWhole :=
  ⟨_, adds_openRun.beside (.escape word)⟩

/-- The two looks of a relation, with a copy of the right side in each of them. -/
theorem adds_relate (presence : Presence) (gap : Gap) {left right : Fragment} (hl : left.IsWhole)
    (hr : right.IsWhole) :
    ∃ front middle back, (relate presence gap left right).chars =
        left.chars ++ (front ++ right.chars ++ middle ++ right.chars ++ back) ∧
      endsInLook front = true ∧ endsInLook (front ++ right.chars ++ middle) = true ∧
      Adds (front ++ right.chars ++ middle ++ right.chars ++ back) [] {} := by
  obtain ⟨_, left_adds⟩ := hl
  obtain ⟨_, right_adds⟩ := hr
  cases presence with
  | present =>
    have opened : Adds (together ++ ahead) [true, false] {} :=
      (Adds.opening rfl).append (.opening rfl)
    have front := opened.hidden rfl gap.adds_chars
    -- the bar between the looks is inside of the group that holds them together
    have middle : Adds (_ ++ right.chars ++ [')'] ++ ['|'] ++ behind) [true, false] {} :=
      ((front.hidden rfl right_adds).close.append .bar).append (.opening rfl)
    have whole := (((middle.hidden rfl right_adds).hidden rfl gap.adds_chars).hidden rfl
      left_adds).close.close
    refine ⟨together ++ ahead ++ gap.chars, [')'] ++ ['|'] ++ behind,
      gap.chars ++ left.chars ++ [')'] ++ [')'], ?_, front.endsInLook rfl, ?_, ?_⟩
    · simp [relate, group]
    · simpa using middle.endsInLook rfl
    · simpa using whole
  | absent =>
    have opened : Adds notAhead [true] {} := .opening rfl
    have front := opened.hidden rfl gap.adds_chars
    have middle : Adds (_ ++ right.chars ++ [')'] ++ notBehind) [true] {} :=
      (front.hidden rfl right_adds).close.append (.opening rfl)
    have whole := (((middle.hidden rfl right_adds).hidden rfl gap.adds_chars).hidden rfl
      left_adds).close
    refine ⟨notAhead ++ gap.chars, [')'] ++ notBehind, gap.chars ++ left.chars ++ [')'], ?_,
      front.endsInLook rfl, ?_, ?_⟩
    · simp [relate, group]
    · simpa using middle.endsInLook rfl
    · simpa using whole

theorem isWhole_relate (presence : Presence) (gap : Gap) {left right : Fragment}
    (hl : left.IsWhole) (hr : right.IsWhole) : (relate presence gap left right).IsWhole := by
  obtain ⟨front, middle, back, chars, -, -, suffix⟩ := adds_relate presence gap hl hr
  obtain ⟨consumes, left_adds⟩ := hl
  refine ⟨consumes, ?_⟩
  rw [chars, ← Surface.join_none ⟨false, consumes⟩]
  exact left_adds.beside suffix

theorem adds_intercalate {fs : List Fragment} (each : ∀ f ∈ fs, f.IsWhole) :
    ∃ s, Adds (List.intercalate ['|'] (fs.map chars)) [] s := by
  induction fs with
  | nil => exact ⟨_, .nothing⟩
  | cons f fs ih =>
    obtain ⟨⟨_, head⟩, tail⟩ := List.forall_mem_cons.1 each
    cases fs with
    | nil =>
      rw [List.map_singleton, List.intercalate_singleton]
      exact ⟨_, head⟩
    | cons second others =>
      obtain ⟨_, rest⟩ := ih tail
      rw [List.map_cons, List.map_cons, List.intercalate_cons_cons]
      exact ⟨_, (head.beside .bar).beside rest⟩

theorem isWhole_alternation {fs : List Fragment} (each : ∀ f ∈ fs, f.IsWhole) :
    (alternation fs).IsWhole := by
  obtain ⟨s, inside⟩ := adds_intercalate each
  have opened : Adds together [false] {} := .opening rfl
  have grouped := opened.group inside
  rw [Surface.within, List.isEmpty_cons, Bool.and_false] at grouped
  exact ⟨_, grouped⟩

end Fragment

/-- A phrase that compiles, and whose pattern reads well and shows no bar. -/
def Phrase.IsWhole (p : Phrase) : Prop :=
  ∃ f, p.compile = .ok f ∧ f.IsWhole

theorem Phrase.isWhole_expression {l r : Phrase} {op : Operator} (joins : op ≠ .exact)
    (hl : l.IsWhole) (hr : r.IsWhole) : (expression l op r).IsWhole := by
  obtain ⟨left, left_ok, left_whole⟩ := hl
  obtain ⟨right, right_ok, right_whole⟩ := hr
  have both : ∀ f ∈ [left, right], f.IsWhole := by
    simp [left_whole, right_whole]
  have compiled : (expression l op r).compile = join op left right := by
    rw [compile, left_ok, right_ok]
    rfl
  rw [IsWhole, compiled]
  cases op with
  | alternation => exact ⟨_, rfl, Fragment.isWhole_alternation both⟩
  | relation | near | beyond => exact ⟨_, rfl, Fragment.isWhole_relate _ _ left_whole right_whole⟩
  | exact => exact (joins rfl).elim

theorem Phrase.isWhole_compileAll {ps : List Phrase} {fs : List Fragment}
    (whole : ∀ p ∈ ps, p.IsWhole) (compiled : compileAll ps = .ok fs) : ∀ f ∈ fs, f.IsWhole := by
  have pairs := mapM_eq_ok.1 compiled
  clear compiled
  induction pairs with
  | nil => simp
  | cons head _ ih =>
    obtain ⟨⟨g, g_ok, g_whole⟩, tail⟩ := List.forall_mem_cons.1 whole
    rw [g_ok] at head
    cases head
    exact List.forall_mem_cons.2 ⟨g_whole, ih tail⟩

theorem Operator.isWhole_call {op : Operator} {arguments : List Value} {f : Fragment}
    (whole : ∀ v ∈ arguments, (Phrase.ofValue v).IsWhole)
    (h : op.call arguments = .ok (.fragment f)) : f.IsWhole := by
  unfold call at h
  split at h
  case h_1 =>
    obtain ⟨_, alternated, made⟩ := map_eq_ok.1 h
    cases made
    obtain ⟨fs, compiled, rfl⟩ := map_eq_ok.1 alternated
    refine Fragment.isWhole_alternation (Phrase.isWhole_compileAll ?_ compiled)
    simpa using whole
  case h_2 presence gap left right =>
    obtain ⟨l, l_ok, h⟩ := bind_eq_ok.1 h
    obtain ⟨r, r_ok, h⟩ := bind_eq_ok.1 h
    cases h
    obtain ⟨_, l_ok', l_whole⟩ := whole left (by simp)
    obtain ⟨_, r_ok', r_whole⟩ := whole right (by simp)
    cases l_ok.symm.trans l_ok'
    cases r_ok.symm.trans r_ok'
    exact Fragment.isWhole_relate presence gap l_whole r_whole
  case h_3 | h_4 =>
    -- options make an operator, which is no fragment
    obtain ⟨options, -, h⟩ := bind_eq_ok.1 h
    obtain ⟨configured, -, h⟩ := bind_eq_ok.1 h
    cases h
  case h_5 word =>
    cases h
    exact Fragment.isWhole_exact _
  case h_6 => cases h

theorem Value.OfKeywords.isWhole {v : Value} (h : v.OfKeywords) : (Phrase.ofValue v).IsWhole := by
  induction h with
  | word s => exact ⟨_, rfl, Fragment.isWhole_startsWith _⟩
  | exact s => exact ⟨_, rfl, Fragment.isWhole_exact _⟩
  | startsWith s => exact ⟨_, rfl, Fragment.isWhole_startsWith _⟩
  | endsWith s => exact ⟨_, rfl, Fragment.isWhole_endsWith _⟩
  | contains s => exact ⟨_, rfl, Fragment.isWhole_contains _⟩
  | called _ call ih => exact ⟨_, rfl, Operator.isWhole_call ih call⟩
  | tuple _ joins _ left right => exact Phrase.isWhole_expression joins left right
  | list _ joins _ left right => exact Phrase.isWhole_expression joins left right

/-- Whatever is made of keywords has a pattern that reads well and shows no bar. A relation of two
such values is the pattern of the left one and a suffix that reads well and consumes nothing; both
copies of the right one begin inside of a group that looks around. -/
theorem keywords_compose_safely :
    (∀ v : Value, v.OfKeywords → ∃ f s, (Phrase.ofValue v).compile = .ok f ∧
      surface? f.chars = some s ∧ s.divided = false) ∧
    ∀ (op : Operator) (presence : Presence) (gap : Gap), op.settled = .relation presence gap →
      ∀ l r : Value, l.OfKeywords → r.OfKeywords → ∃ left right front middle back suffix,
        (Phrase.ofValue l).compile = .ok left ∧ (Phrase.ofValue r).compile = .ok right ∧
        suffix = front ++ right.chars ++ middle ++ right.chars ++ back ∧
        (Phrase.expression (.ofValue l) op (.ofValue r)).compile = .ok ⟨left.chars ++ suffix⟩ ∧
        op.settled.call [l, r] = .ok (.fragment ⟨left.chars ++ suffix⟩) ∧
        surface? suffix = some ⟨false, false⟩ ∧
        endsInLook front = true ∧ endsInLook (front ++ right.chars ++ middle) = true := by
  constructor
  · intro v keywords
    obtain ⟨f, compiled, consumes, whole⟩ := keywords.isWhole
    exact ⟨f, ⟨false, consumes⟩, compiled, whole.surface?_eq, rfl⟩
  · intro op presence gap joins l r hl hr
    obtain ⟨left, left_ok, left_whole⟩ := hl.isWhole
    obtain ⟨right, right_ok, right_whole⟩ := hr.isWhole
    obtain ⟨front, middle, back, chars, ahead, behind, suffix⟩ :=
      Fragment.adds_relate presence gap left_whole right_whole
    have related : Fragment.relate presence gap left right = ⟨left.chars ++ _⟩ :=
      congrArg Fragment.mk chars
    refine ⟨left, right, front, middle, back, _, left_ok, right_ok, rfl, ?_, ?_,
      suffix.surface?_eq, ahead, behind⟩
    · rw [← related, Phrase.compile, left_ok, right_ok]
      change Phrase.join op left right = _
      rw [Phrase.join, Operator.combine?, joins]
    · rw [← related, joins, Operator.call, left_ok, right_ok]
      rfl

/-- Keywords that look like patterns, in an alternation and in an expression with an empty word. -/
theorem keywords_compose_safely_nested :
    ∃ l r : Value, l.OfKeywords ∧ r.OfKeywords ∧
      l = .fragment (.alternation [.startsWith ['a', '|', 'b'], .contains ['c', '*']]) ∧
      r = .list [.text "[x](", .operator .and, .fragment (.exact [])] ∧
      Operator.near.settled = .relation .present (.words 0 10 true) ∧
      (∃ f s, (Phrase.ofValue (.tuple [l, .operator .near, r])).compile = .ok f ∧
        surface? f.chars = some s ∧ s.divided = false) ∧
      ∃ left right front middle back suffix,
        (Phrase.ofValue l).compile = .ok left ∧ (Phrase.ofValue r).compile = .ok right ∧
        suffix = front ++ right.chars ++ middle ++ right.chars ++ back ∧
        (Phrase.expression (.ofValue l) .near (.ofValue r)).compile =
          .ok ⟨left.chars ++ suffix⟩ ∧
        Operator.near.settled.call [l, r] = .ok (.fragment ⟨left.chars ++ suffix⟩) ∧
        surface? suffix = some ⟨false, false⟩ ∧
        endsInLook front = true ∧ endsInLook (front ++ right.chars ++ middle) = true := by
  have choices : ∀ v ∈ [Value.text "a|b", .fragment (.contains "c*".toList)], v.OfKeywords := by
    intro v member
    rcases List.mem_cons.1 member with rfl | member
    · exact .word _
    · rw [List.mem_singleton.1 member]
      exact .contains _
  have left : (Value.fragment (.alternation
      [.startsWith ['a', '|', 'b'], .contains ['c', '*']])).OfKeywords :=
    .called choices (show Operator.alternation.call _ = _ from rfl)
  have right : (Value.list [.text "[x](", .operator .and, .fragment (.exact [])]).OfKeywords :=
    .list (.word _) (by decide) (.exact "")
  have whole : (Value.tuple [_, .operator .near, _]).OfKeywords := .tuple left (by decide) right
  exact ⟨_, _, left, right, rfl, rfl, rfl, keywords_compose_safely.1 _ whole,
    keywords_compose_safely.2 .near _ _ rfl _ _ left right⟩

end LoreTree
