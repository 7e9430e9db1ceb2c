import LoreTree.Proofs.SettingFlow
import Mathlib.Algebra.BigOperators.Intervals
/-!
The two settings that depth strategies shift, and what the layers of a path do to them: a layer may
set the value, and adds its delta for the layers below. A value sums up a path if it is that of the
last layer that sets one plus the deltas from there on.
-/

namespace LoreTree

inductive Shift
  | priority
  | search

namespace Shift

def read (value : {g : SettingGroup} → (f : Setting g) → f.kind.Carrier) : Shift → Int
  | .priority => value .budgetPriority
  | .search => value .searchRange

def read? (value : {g : SettingGroup} → (f : Setting g) → Option f.kind.Carrier) :
    Shift → Option Int
  | .priority => value .budgetPriority
  | .search => value .searchRange

end Shift

def Deltas.get (d : Deltas) : Shift → Option Value
  | .priority => d.priority
  | .search => d.search

def StrategyKind.delta : StrategyKind → Shift → Value
  | .fixed, _ => .int 0
  | .depthDelta p _, .priority => p
  | .depthDelta _ r, .search => r

def Value.integer? : Value → Option Int
  | .int n => some n
  | .bool b => some (if b then 1 else 0)
  | _ => none

/-- The deltas that a strategy sets and those that it brings along are integers. -/
def Strategy.hasIntegerDeltas (s : Strategy) : Bool :=
  [Shift.priority, .search].all fun q =>
    (s.config.deltas.get q).all (·.integer?.isSome) && (s.kind.delta q).integer?.isSome

/-- Every strategy that is given, for the lorebook or for an entry, has integer deltas. -/
def Config.hasIntegerDeltas (c : Config) : Bool :=
  c.strategy.all (·.hasIntegerDeltas) &&
    c.lineages.all fun l => l.entry.strategy.all (·.hasIntegerDeltas)

theorem Strategy.hasIntegerDeltas_at {s : Strategy} (h : s.hasIntegerDeltas = true) (q : Shift) :
    (s.config.deltas.get q).all (·.integer?.isSome) = true ∧
      (s.kind.delta q).integer?.isSome = true := by
  have each := List.all_eq_true.1 h q (by cases q <;> simp)
  exact (Bool.and_eq_true _ _).mp each

/-- The delta of an entry that uses a strategy: none for a fixed one; for a depth strategy the first
that is set by itself, by the depth strategies among its ancestors from the nearest on, or by
default. -/
def Strategy.delta (s : Strategy) (ancestors : List Strategy) (q : Shift) : Value :=
  if s.kind.isDepthDelta then
    ((s :: (ancestors.filter (·.kind.isDepthDelta)).reverse).findSome?
      (·.config.deltas.get q)).getD (s.kind.delta q)
  else .int 0

/-- What an entry sets a shifted setting to: by its own overrides, or else by its strategy, unless
that is a depth strategy which an ancestor used already. -/
def Layer.sets (l : Layer) (ancestors : List Strategy) (q : Shift) : Option Int :=
  (q.read? l.entry.value).or
    (if l.strategy.kind.isDepthDelta && ancestors.any (·.identity = l.strategy.identity) then none
      else q.read? l.strategy.config.value)

namespace Shift

def ancestors (ls : List Layer) (i : Nat) : List Strategy :=
  (ls.take i).map Layer.strategy

def setAt (q : Shift) (ls : List Layer) (i : Nat) : Option Int :=
  ls[i]?.bind fun l => l.sets (ancestors ls i) q

def deltaAt (q : Shift) (ls : List Layer) (i : Nat) : Int :=
  (ls[i]?.bind fun l => (l.strategy.delta (ancestors ls i) q).integer?).getD 0

/-- What the root entries inherit: the overrides for the whole lorebook, else the root strategy, else
the value of a new entry. -/
def start (q : Shift) (c : Config) : Int :=
  ((q.read? c.value).or (c.strategy.bind (q.read? ·.config.value))).getD
    (q.read fun {g} f => (Settings.fresh g).get f)

/-- A value is that of the last layer that sets one, or the start value if none does, plus the first
`n` deltas as far as they come after it. -/
def Sums (q : Shift) (c : Config) (ls : List Layer) (n : Nat) (value : Int) : Prop :=
  (∀ m < ls.length, ∀ v, q.setAt ls m = some v →
      (∀ j < ls.length, m < j → q.setAt ls j = none) →
      value = v + ∑ i ∈ Finset.Ico m n, q.deltaAt ls i) ∧
    ((∀ j < ls.length, q.setAt ls j = none) →
      value = q.start c + ∑ i ∈ Finset.range n, q.deltaAt ls i)

section Sums

variable {q : Shift} {c : Config} {ls : List Layer} {l : Layer} {n : Nat} {x : Int}

theorem ancestors_concat {i : Nat} (hi : i ≤ ls.length) :
    ancestors (ls ++ [l]) i = ancestors ls i := by
  rw [ancestors, List.take_append_of_le_length hi, ancestors]

theorem setAt_concat_of_lt {i : Nat} (hi : i < ls.length) :
    q.setAt (ls ++ [l]) i = q.setAt ls i := by
  rw [setAt, ancestors_concat (Nat.le_of_lt hi), List.getElem?_append_left hi, setAt]

theorem deltaAt_concat_of_lt {i : Nat} (hi : i < ls.length) :
    q.deltaAt (ls ++ [l]) i = q.deltaAt ls i := by
  rw [deltaAt, ancestors_concat (Nat.le_of_lt hi), List.getElem?_append_left hi, deltaAt]

theorem setAt_concat_self :
    q.setAt (ls ++ [l]) ls.length = l.sets (ls.map Layer.strategy) q := by
  rw [setAt, ancestors_concat (Nat.le_refl _), List.getElem?_concat_length, ancestors,
    List.take_length]
  rfl

theorem deltaAt_concat_self :
    q.deltaAt (ls ++ [l]) ls.length =
      (l.strategy.delta (ls.map Layer.strategy) q).integer?.getD 0 := by
  rw [deltaAt, ancestors_concat (Nat.le_refl _), List.getElem?_concat_length, ancestors,
    List.take_length]
  rfl

theorem Sums.concat (h : q.Sums c ls ls.length x) :
    q.Sums c (ls ++ [l]) ls.length ((l.sets (ls.map Layer.strategy) q).getD x) := by
  have last : ls.length < (ls ++ [l]).length := by simp
  have earlier {m : Nat} : ∑ i ∈ Finset.Ico m ls.length, q.deltaAt (ls ++ [l]) i =
      ∑ i ∈ Finset.Ico m ls.length, q.deltaAt ls i :=
    Finset.sum_congr rfl fun i hi => deltaAt_concat_of_lt (Finset.mem_Ico.1 hi).2
  rw [← setAt_concat_self]
  refine ⟨fun m hm v set later => ?_, fun unset => ?_⟩
  · rcases Nat.lt_or_ge m ls.length with lt | ge
    · rw [later _ last lt, earlier]
      rw [setAt_concat_of_lt lt] at set
      refine h.1 m lt v set fun j hj mj => ?_
      rw [← setAt_concat_of_lt (l := l) hj]
      exact later j (Nat.lt_trans hj last) mj
    · have : m = ls.length := by simp at hm; omega
      subst this
      rw [set, Finset.Ico_self, Finset.sum_empty, Int.add_zero]
      rfl
  · rw [unset _ last, Finset.range_eq_Ico, earlier, ← Finset.range_eq_Ico]
    refine h.2 fun j hj => ?_
    rw [← setAt_concat_of_lt (l := l) hj]
    exact unset j (Nat.lt_trans hj last)

theorem Sums.succ (h : q.Sums c ls n x) (all : ls.length ≤ n + 1) :
    q.Sums c ls (n + 1) (x + q.deltaAt ls n) := by
  refine ⟨fun m hm v set later => ?_, fun unset => ?_⟩
  · rw [h.1 m hm v set later, Finset.sum_Ico_succ_top (by omega), Int.add_assoc]
  · rw [h.2 unset, Finset.sum_range_succ, Int.add_assoc]

end Sums

end Shift

end LoreTree
