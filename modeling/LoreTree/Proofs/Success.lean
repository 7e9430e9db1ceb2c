import LoreTree.Run
import Mathlib.Data.List.Forall2
/-!
Successful computations, taken apart. A run succeeds exactly if each of its steps does, so what is
said of the result of a build is said of the results of its steps.
-/

namespace LoreTree

theorem bind_eq_ok {x : Except ε α} {f : α → Except ε β} {b : β} :
    x >>= f = .ok b ↔ ∃ a, x = .ok a ∧ f a = .ok b := by
  cases x with
  | error e => simp [bind, Except.bind]
  | ok a => simp [bind, Except.bind]

theorem bind_eq_error {x : Except ε α} {f : α → Except ε β} {e : ε} :
    x >>= f = .error e ↔ x = .error e ∨ ∃ a, x = .ok a ∧ f a = .error e := by
  cases x with
  | error e => simp [bind, Except.bind]
  | ok a => simp [bind, Except.bind]

theorem map_eq_ok {x : Except ε α} {f : α → β} {b : β} :
    f <$> x = .ok b ↔ ∃ a, x = .ok a ∧ f a = b := by
  cases x with
  | error e => simp [Functor.map, Except.map]
  | ok a => simp [Functor.map, Except.map]

theorem exists_of_map_toOption {x : Except ε α} {f : α → β} {b : β}
    (h : x.toOption.map f = some b) : ∃ a, x = .ok a ∧ f a = b := by
  cases x with
  | error e => cases h
  | ok a => exact ⟨a, rfl, Option.some.inj h⟩

theorem mapM_eq_ok {f : α → Except ε β} {xs : List α} {ys : List β} :
    xs.mapM f = .ok ys ↔ List.Forall₂ (fun x y => f x = .ok y) xs ys := by
  induction xs generalizing ys with
  | nil => cases ys <;> simp [pure, Except.pure]
  | cons x xs ih =>
    rw [List.mapM_cons, bind_eq_ok, List.forall₂_cons_left_iff]
    constructor
    · rintro ⟨y, hy, h⟩
      obtain ⟨rest, hrest, h⟩ := bind_eq_ok.1 h
      cases h
      exact ⟨y, rest, hy, ih.1 hrest, rfl⟩
    · rintro ⟨y, rest, hy, hrest, rfl⟩
      exact ⟨y, hy, bind_eq_ok.2 ⟨rest, ih.2 hrest, rfl⟩⟩

theorem mapM_congr_forall₂ {f : α → Except ε γ} {g : β → Except ε γ} {xs : List α} {ys : List β}
    (same : List.Forall₂ (fun x y => f x = g y) xs ys) : xs.mapM f = ys.mapM g := by
  induction same with
  | nil => rfl
  | cons head _ ih => rw [List.mapM_cons, List.mapM_cons, head, ih]

theorem exists_mapM_eq_ok {f : α → Except ε β} {xs : List α} (each : ∀ x ∈ xs, ∃ y, f x = .ok y) :
    ∃ ys, xs.mapM f = .ok ys := by
  induction xs with
  | nil => exact ⟨[], rfl⟩
  | cons x xs ih =>
    obtain ⟨first, others⟩ := List.forall_mem_cons.1 each
    obtain ⟨y, hy⟩ := first
    obtain ⟨ys, hys⟩ := ih others
    exact ⟨y :: ys, mapM_eq_ok.2 (.cons hy (mapM_eq_ok.1 hys))⟩

theorem Operator.combine?_eq_some {op : Operator} {left right f : Fragment} :
    op.combine? left right = some f ↔
      op.settled = .alternation ∧ f = .alternation [left, right] ∨
      ∃ presence gap, op.settled = .relation presence gap ∧ f = .relate presence gap left right := by
  rw [combine?]
  cases op.settled <;> simp [eq_comm]

theorem Phrase.compile_expression_eq_ok {l r : Phrase} {op : Operator} {f : Fragment} :
    (expression l op r).compile = .ok f ↔ ∃ left right, l.compile = .ok left ∧
      r.compile = .ok right ∧ op.combine? left right = some f := by
  have joined (left right : Fragment) :
      join op left right = .ok f ↔ op.combine? left right = some f := by
    rw [join]
    cases op.combine? left right <;> simp
  simp only [compile, bind_eq_ok, joined, exists_and_left]

namespace Run

@[simp] theorem result_pure (a : α) : (pure a : Run α).result = .ok a := rfl

@[simp] theorem result_bind (r : Run α) (next : α → Run β) :
    (r >>= next).result = r.result >>= fun a => (next a).result := by
  change (r.andThen next).result = _
  unfold andThen
  cases r.result <;> rfl

theorem result_bind_of_ok {r : Run α} {next : α → Run β} {a : α} (h : r.result = .ok a) :
    (r >>= next).result = (next a).result := by
  rw [result_bind, h]
  rfl

theorem result_bind_of_error {r : Run α} {next : α → Run β} {e : Failure}
    (h : r.result = .error e) : (r >>= next).result = .error e := by
  rw [result_bind, h]
  rfl

@[simp] theorem result_tell (e : Event) : (Run.tell e).result = .ok () := rfl

@[simp] theorem result_lift (x : Except Failure α) : (liftM x : Run α).result = x := rfl

end Run

end LoreTree
