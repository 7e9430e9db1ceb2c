import LoreTree.Proofs.Pattern.Bars
/-!
Composed phrases. An operator places its sides without a group around them, and so does the joining
of keys where an entry inherits a single one. What is composed therefore leaks a bar whenever one of
its sides does; only an alternation holds its sides together.
-/

namespace LoreTree

open Pattern

namespace Phrase

/-- Where the bars of a phrase stand, if it makes a balanced pattern. -/
def bars? (emptyClass : Bool) (p : Phrase) : Option Bars :=
  match p.compile with
  | .ok f => f.bars? emptyClass
  | .error _ => none

/-- A phrase that makes a pattern in which all groups and classes are closed. -/
def isBalanced (emptyClass : Bool) (p : Phrase) : Bool :=
  (p.bars? emptyClass).isSome

/-- A phrase that makes a balanced pattern without a bar outside of all groups. -/
def isUnexposed (emptyClass : Bool) (p : Phrase) : Bool :=
  (p.bars? emptyClass).any (!·.exposed)

/-- A phrase that makes a balanced pattern without a bar right inside of a lookahead or lookbehind. -/
def isUntorn (emptyClass : Bool) (p : Phrase) : Bool :=
  (p.bars? emptyClass).any (!·.torn)

def isSealed (emptyClass : Bool) (p : Phrase) : Bool :=
  p.isUnexposed emptyClass && p.isUntorn emptyClass

variable {emptyClass : Bool} {l r p : Phrase} {op : Operator} {presence : Presence} {gap : Gap}
  {a b : Bars}

theorem bars?_eq_some :
    p.bars? emptyClass = some b ↔ ∃ f, p.compile = .ok f ∧ f.bars? emptyClass = some b := by
  unfold bars?
  cases p.compile with
  | ok f => simp
  | error e => simp

theorem isBalanced_iff : p.isBalanced emptyClass = true ↔ ∃ b, p.bars? emptyClass = some b :=
  Option.isSome_iff_exists

theorem isUntorn_eq (h : p.bars? emptyClass = some b) : p.isUntorn emptyClass = !b.torn := by
  rw [isUntorn, h, Option.any_some]

theorem isUnexposed_eq (h : p.bars? emptyClass = some b) :
    p.isUnexposed emptyClass = !b.exposed := by
  rw [isUnexposed, h, Option.any_some]

theorem isSealed_eq (h : p.bars? emptyClass = some b) : p.isSealed emptyClass = !b.leaks := by
  rw [isSealed, isUntorn_eq h, isUnexposed_eq h, Bars.leaks, Bool.not_or]

theorem bars?_expression (joins : op.settled = .relation presence gap)
    (hl : l.bars? emptyClass = some a) (hr : r.bars? emptyClass = some b) :
    (expression l op r).bars? emptyClass = some (a.related b) := by
  obtain ⟨left, left_ok, left_bars⟩ := bars?_eq_some.1 hl
  obtain ⟨right, right_ok, right_bars⟩ := bars?_eq_some.1 hr
  have related : op.combine? left right = some (.relate presence gap left right) :=
    Operator.combine?_eq_some.2 (.inr ⟨presence, gap, joins, rfl⟩)
  exact bars?_eq_some.2 ⟨.relate presence gap left right,
    compile_expression_eq_ok.2 ⟨left, right, left_ok, right_ok, related⟩,
    Fragment.bars?_relate presence gap left_bars right_bars⟩

end Phrase

/-- The bars of the phrase that stands for the keys of a parent; a single key stands for itself. -/
def Pattern.Bars.ofParent : List Bars → Bars
  | [b] => b
  | bs => alternated bs

theorem Phrase.bars?_compileAll {emptyClass : Bool} {ps : List Phrase} {bs : List Bars}
    (each : List.Forall₂ (fun p b => p.bars? emptyClass = some b) ps bs) :
    ∃ fs, compileAll ps = .ok fs ∧ List.Forall₂ (fun f b => f.bars? emptyClass = some b) fs bs := by
  induction each with
  | nil => exact ⟨[], rfl, .nil⟩
  | cons head _ ih =>
    obtain ⟨f, compiled, f_bars⟩ := Phrase.bars?_eq_some.1 head
    obtain ⟨fs, all, fs_bars⟩ := ih
    refine ⟨f :: fs, ?_, .cons f_bars fs_bars⟩
    exact mapM_eq_ok.2 (.cons compiled (mapM_eq_ok.1 all))

namespace Keys

variable {emptyClass : Bool} {op : Operator} {presence : Presence} {gap : Gap}
  {parents own : List Phrase} {as : List Bars}

theorem exists_bars (balanced : ∀ p ∈ parents, p.isBalanced emptyClass) :
    ∃ as, List.Forall₂ (fun p a => p.bars? emptyClass = some a) parents as := by
  induction parents with
  | nil => exact ⟨[], .nil⟩
  | cons p parents ih =>
    obtain ⟨head, tail⟩ := List.forall_mem_cons.1 balanced
    obtain ⟨a, bars⟩ := Phrase.isBalanced_iff.1 head
    obtain ⟨as, all⟩ := ih tail
    exact ⟨a :: as, .cons bars all⟩

theorem isUntorn_iff (each : List.Forall₂ (fun p a => p.bars? emptyClass = some a) parents as) :
    (∀ p ∈ parents, p.isUntorn emptyClass) ↔ as.any Bars.torn = false := by
  induction each with
  | nil => simp
  | cons head _ ih =>
    rw [List.forall_mem_cons, ih, Phrase.isUntorn_eq head, List.any_cons, Bool.or_eq_false_iff,
      Bool.not_eq_true']

/-- What stands for the keys of a parent leaks as a key of it does if that is the only one, and not
otherwise unless a key is torn. -/
theorem leaks_ofParent (each : List.Forall₂ (fun p a => p.bars? emptyClass = some a) parents as) :
    (Bars.ofParent as).leaks = false ↔
      (parents.length = 1 → ∀ p ∈ parents, p.isUnexposed emptyClass) ∧
        ∀ p ∈ parents, p.isUntorn emptyClass := by
  rw [isUntorn_iff each]
  cases each with
  | nil => simp [Bars.ofParent, Bars.alternated, Bars.leaks]
  | @cons p a _ _ head tail =>
    cases tail with
    | nil => simp [Bars.ofParent, Bars.leaks, Phrase.isUnexposed_eq head]
    | cons second others => simp [Bars.ofParent, Bars.alternated, Bars.leaks]

theorem bars?_joined (ne : parents ≠ [])
    (each : List.Forall₂ (fun p a => p.bars? emptyClass = some a) parents as) :
    ∃ base, joined parents = .ok base ∧ base.bars? emptyClass = some (Bars.ofParent as) := by
  obtain ⟨fs, compiled, fs_bars⟩ := Phrase.bars?_compileAll each
  have grouped := Fragment.bars?_alternation fs_bars
  cases each with
  | nil => exact (ne rfl).elim
  | cons head tail =>
    cases tail with
    | nil => exact ⟨_, rfl, head⟩
    | cons second others =>
      refine ⟨.fragment (.alternation fs), ?_, grouped⟩
      rw [joined, Phrase.anyOf, compiled]
      · rfl
      · intro key single
        cases single

theorem bars?_expressions {base : Phrase} {a : Bars} (joins : op.settled = .relation presence gap)
    (base_bars : base.bars? emptyClass = some a) (balanced : ∀ k ∈ own, k.isBalanced emptyClass) :
    ∃ keys, own.mapM (fun key => Phrase.fragment <$> (Phrase.expression base op key).compile) =
        .ok keys ∧
      List.Forall₂ (fun k key => ∃ b, k.bars? emptyClass = some b ∧
        key.bars? emptyClass = some (a.related b)) own keys := by
  induction own with
  | nil => exact ⟨[], rfl, .nil⟩
  | cons k own ih =>
    obtain ⟨head, tail⟩ := List.forall_mem_cons.1 balanced
    obtain ⟨b, k_bars⟩ := Phrase.isBalanced_iff.1 head
    obtain ⟨f, compiled, f_bars⟩ :=
      Phrase.bars?_eq_some.1 (Phrase.bars?_expression joins base_bars k_bars)
    obtain ⟨keys, all, keys_bars⟩ := ih tail
    refine ⟨.fragment f :: keys, ?_, .cons ⟨b, k_bars, f_bars⟩ keys_bars⟩
    exact mapM_eq_ok.2 (.cons (map_eq_ok.2 ⟨f, compiled, rfl⟩) (mapM_eq_ok.1 all))

theorem bars?_ofChild (joins : op.settled = .relation presence gap) (parents_ne : parents ≠ [])
    (own_ne : own ≠ [])
    (parents_bars : List.Forall₂ (fun p a => p.bars? emptyClass = some a) parents as)
    (balanced : ∀ k ∈ own, k.isBalanced emptyClass) :
    ∃ keys, ofChild parents op own = .ok keys ∧
      List.Forall₂ (fun k key => ∃ b, k.bars? emptyClass = some b ∧
        key.bars? emptyClass = some ((Bars.ofParent as).related b)) own keys := by
  obtain ⟨base, base_ok, base_bars⟩ := bars?_joined parents_ne parents_bars
  have some_parent : ¬parents.isEmpty = true := by simpa using parents_ne
  have some_own : ¬own.isEmpty = true := by simpa using own_ne
  rw [ofChild, if_neg some_parent, if_neg some_own, base_ok]
  exact bars?_expressions joins base_bars balanced

end Keys

/-- A relation of two balanced phrases is balanced, and it leaks no bar exactly if neither side leaks
one. So it is with the keys of a child, except that several keys of its parent are grouped and may
have bars outside of groups of their own. -/
theorem relation_isSealed_iff (emptyClass : Bool) (op : Operator) {presence : Presence} {gap : Gap}
    (joins : op.settled = .relation presence gap) :
    (∀ l r : Phrase, l.isBalanced emptyClass → r.isBalanced emptyClass →
      (Phrase.expression l op r).isBalanced emptyClass ∧
        ((Phrase.expression l op r).isSealed emptyClass ↔
          l.isSealed emptyClass ∧ r.isSealed emptyClass)) ∧
    ∀ parents own : List Phrase, parents ≠ [] → own ≠ [] →
      (∀ p ∈ parents, p.isBalanced emptyClass) → (∀ k ∈ own, k.isBalanced emptyClass) →
        ∃ keys, Keys.ofChild parents op own = .ok keys ∧
          List.Forall₂ (fun k key => key.isBalanced emptyClass ∧
            (key.isSealed emptyClass ↔
              (parents.length = 1 → ∀ p ∈ parents, p.isUnexposed emptyClass) ∧
                (∀ p ∈ parents, p.isUntorn emptyClass) ∧ k.isSealed emptyClass)) own keys := by
  constructor
  · intro l r hl hr
    obtain ⟨a, l_bars⟩ := Phrase.isBalanced_iff.1 hl
    obtain ⟨b, r_bars⟩ := Phrase.isBalanced_iff.1 hr
    have whole := Phrase.bars?_expression joins l_bars r_bars
    refine ⟨Phrase.isBalanced_iff.2 ⟨_, whole⟩, ?_⟩
    rw [Phrase.isSealed_eq whole, Phrase.isSealed_eq l_bars, Phrase.isSealed_eq r_bars,
      Bars.leaks_related, Bool.not_or, Bool.and_eq_true]
  · intro parents own parents_ne own_ne parents_balanced own_balanced
    obtain ⟨as, parents_bars⟩ := Keys.exists_bars parents_balanced
    obtain ⟨keys, made, each⟩ :=
      Keys.bars?_ofChild joins parents_ne own_ne parents_bars own_balanced
    refine ⟨keys, made, each.imp fun k key => ?_⟩
    rintro ⟨b, k_bars, key_bars⟩
    refine ⟨Phrase.isBalanced_iff.2 ⟨_, key_bars⟩, ?_⟩
    rw [Phrase.isSealed_eq key_bars, Phrase.isSealed_eq k_bars, Bars.leaks_related, Bool.not_or,
      Bool.and_eq_true, Bool.not_eq_true', Keys.leaks_ofParent parents_bars, and_assoc]

theorem relation_isSealed_iff_choice :
    (Operator.and.settled = .relation .present .document ∧
      (Phrase.native "a|b").isSealed true = false) ∧
    ((Phrase.expression (.word "c") .and (.native "a|b")).isBalanced true ∧
      ((Phrase.expression (.word "c") .and (.native "a|b")).isSealed true ↔
        (Phrase.word "c").isSealed true ∧ (Phrase.native "a|b").isSealed true)) ∧
    ∃ keys, Keys.ofChild [.native "a|b"] .and [.word "c"] = .ok keys ∧
      List.Forall₂ (fun k key : Phrase => key.isBalanced true ∧
        (key.isSealed true ↔
          ([Phrase.native "a|b"].length = 1 → ∀ p ∈ [Phrase.native "a|b"], p.isUnexposed true) ∧
            (∀ p ∈ [Phrase.native "a|b"], p.isUntorn true) ∧ k.isSealed true))
        [Phrase.word "c"] keys :=
  ⟨⟨rfl, by decide⟩,
    (relation_isSealed_iff true .and rfl).1 (.word "c") (.native "a|b") (by decide) (by decide),
    (relation_isSealed_iff true .and rfl).2 [.native "a|b"] [.word "c"] (by decide) (by decide)
      (by decide) (by decide)⟩

/-- A bare choice leaks its bar into what it is related to. -/
theorem not_relation_isSealed :
    ¬ ∀ (emptyClass : Bool) (op : Operator) (presence : Presence) (gap : Gap) (l r : Phrase),
      op.settled = .relation presence gap → l.isBalanced emptyClass → r.isBalanced emptyClass →
        (Phrase.expression l op r).isSealed emptyClass := by
  intro sealed
  have leaked : (Phrase.expression (.native "a|b") .and (.word "c")).isSealed true = false := by
    decide
  rw [sealed true .and _ _ (.native "a|b") (.word "c") rfl (by decide) (by decide)] at leaked
  cases leaked

end LoreTree
