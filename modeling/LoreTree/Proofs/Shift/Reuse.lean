import LoreTree.Proofs.Overrides.Dropping
import LoreTree.Proofs.Shift.Walk
/-!
A depth strategy below an entry that used it. Its shifts are in what is inherited already, so the
shifted settings are left alone, and so is everything else; a strategy that only looks the same has
shifted nothing. To extend a configuration adds the deltas and changes no other setting.
-/

namespace LoreTree

namespace Strategy

variable {strategy : Strategy} {s : State}

theorem isReused_iff (depth : strategy.kind.isDepthDelta = true) :
    strategy.isReused s = true ↔ ∃ t ∈ s.stack, t.identity = strategy.identity := by
  rw [isReused, depth, Bool.true_and, State.hasApplied, List.any_eq_true]
  simp only [decide_eq_true_eq]

theorem overrides_apply_of_reused (reused : strategy.isReused s = true) (c : StrategyConfig)
    (g : SettingGroup) :
    (strategy.apply s c).overrides g = (c.overrides g).bind (·.without [g.shifted.name.plain]) := by
  rw [overrides_apply, if_pos reused]

theorem value_apply_of_reused (reused : strategy.isReused s = true) (c : StrategyConfig)
    (f : Setting g) :
    (strategy.apply s c).value f = if f.isShifted then none else c.value f := by
  rw [value_apply, reused, Bool.true_and]

/-- Where a strategy is reused, no group is left that sets nothing. -/
theorem isSome_overrides_apply (reused : strategy.isReused s = true) (c : StrategyConfig)
    (g : SettingGroup) :
    ((strategy.apply s c).overrides g).isSome = true ↔
      ∃ f : Setting g, ((strategy.apply s c).value f).isSome = true := by
  constructor
  · intro present
    obtain ⟨r, stays⟩ := Option.isSome_iff_exists.1 present
    have dropped := stays
    rw [overrides_apply_of_reused reused, Option.bind_eq_some_iff] at dropped
    obtain ⟨o, -, left⟩ := dropped
    by_contra unset
    rw [not_exists] at unset
    refine (Overrides.without_eq_some_iff.1 left).2 ?_
    ext1 f
    have unset_here := unset f
    rw [StrategyConfig.value, stays, Option.bind_some] at unset_here
    exact Option.not_isSome_iff_eq_none.1 unset_here
  · rintro ⟨f, set⟩
    rw [StrategyConfig.value] at set
    exact Option.isSome_of_isSome_bind set

theorem read?_apply_of_reused (reused : strategy.isReused s = true) (c : StrategyConfig)
    (q : Shift) : q.read? (strategy.apply s c).value = none := by
  cases q with
  | priority => exact value_apply_of_reused reused c .budgetPriority
  | search => exact value_apply_of_reused reused c .searchRange

theorem read_settle_apply (reused : strategy.isReused s = true) (c : StrategyConfig) (q : Shift) :
    q.read (s.settle (strategy.apply s c)).value = q.read s.value := by
  rw [State.read_settle, read?_apply_of_reused reused, Option.getD_none]

/-- Settings resolved from an extended configuration: the shifted ones are those of the state plus
the deltas, the others as they would be without the extension. -/
theorem settle_extend {c next : StrategyConfig} (extended : strategy.extend s c = .ok next)
    (depth : strategy.kind.isDepthDelta = true) :
    (∀ q n, ((c.deltas.get q).getD (strategy.kind.delta q)).integer? = some n →
      q.read (s.settle next).value = q.read s.value + n) ∧
    ∀ (g : SettingGroup) (f : Setting g), f.isShifted = false →
      (s.settle next).value f = (s.settle c).value f := by
  constructor
  · intro q n integer
    rw [State.read_settle, read?_extend extended depth integer, Option.getD_some]
  · intro g f plain
    rw [State.value_settle, State.value_settle, value_extend extended plain]

end Strategy

/-- What a depth strategy makes of any configuration in any state. Below an entry that used this very
strategy it unsets the shifted settings, keeps the others and leaves no group that sets nothing;
otherwise it keeps both groups. The deltas are handed down one by one, and to extend the
configuration adds them to the settings of the state. -/
theorem reuse_touches_shifted_only (strategy : Strategy) (s : State) (c : StrategyConfig)
    (depth : strategy.kind.isDepthDelta = true) :
    ((∃ t ∈ s.stack, t.identity = strategy.identity) →
      (∀ (g : SettingGroup) (f : Setting g),
        (strategy.apply s c).value f = if f.isShifted then none else c.value f) ∧
      (∀ g : SettingGroup, ((strategy.apply s c).overrides g).isSome = true ↔
        ∃ f : Setting g, ((strategy.apply s c).value f).isSome = true) ∧
      ∀ q : Shift, q.read (s.settle (strategy.apply s c)).value = q.read s.value) ∧
    ((∀ t ∈ s.stack, t.identity ≠ strategy.identity) →
      ∀ g, (strategy.apply s c).overrides g = c.overrides g) ∧
    (∀ q, (strategy.apply s c).deltas.get q = (c.deltas.get q).or
      ((s.stack.filter (·.kind.isDepthDelta)).reverse.findSome? (·.config.deltas.get q))) ∧
    ((∀ q, ((c.deltas.get q).getD (strategy.kind.delta q)).integer?.isSome = true) →
      ∃ next, strategy.extend s c = .ok next ∧
        (∀ q n, ((c.deltas.get q).getD (strategy.kind.delta q)).integer? = some n →
          q.read (s.settle next).value = q.read s.value + n) ∧
        ∀ (g : SettingGroup) (f : Setting g), f.isShifted = false →
          (s.settle next).value f = (s.settle c).value f) := by
  refine ⟨?_, ?_, ?_, ?_⟩
  · intro used
    have reused := (Strategy.isReused_iff depth).2 used
    exact ⟨fun g f => Strategy.value_apply_of_reused reused c f,
      Strategy.isSome_overrides_apply reused c, Strategy.read_settle_apply reused c⟩
  · intro unrelated g
    have fresh : ¬strategy.isReused s = true := by
      rw [Strategy.isReused_iff depth]
      rintro ⟨t, member, same⟩
      exact unrelated t member same
    rw [Strategy.overrides_apply, if_neg fresh]
  · intro q
    rw [Strategy.get_deltas_apply depth, Deltas.get_inherited]
  · intro whole
    obtain ⟨next, extended⟩ := Strategy.exists_extend s fun _ => whole
    exact ⟨next, extended, Strategy.settle_extend extended depth⟩

/-- A strategy that sets a delta to zero, below itself and below another of the same content. -/
theorem reuse_touches_shifted_only_twin :
    let c : StrategyConfig :=
      { context := some ((Overrides.only .before "> ").overlay (.only .budgetPriority (900 : Int)))
        entry := some (.only .searchRange (5000 : Int))
        priorityDelta := some (.int 0) }
    let strategy : Strategy := ⟨.made 0, .depthDelta (.int 1) (.int 1024), c⟩
    let twin : Strategy := { strategy with identity := .made 1 }
    let reused := strategy.apply { stack := [twin, strategy] } c
    (reused.value .before = some "> " ∧ reused.value .budgetPriority = none ∧
        reused.value .searchRange = none ∧
        Shift.priority.read (({ stack := [twin, strategy] } : State).settle reused).value = 400) ∧
      ((strategy.apply { stack := [twin] } c).entry = c.entry ∧
        (strategy.apply { stack := [twin] } c).deltas.get .priority = some (.int 0)) ∧
      ∃ next, strategy.extend { stack := [twin] } c = .ok next ∧
        Shift.priority.read (({ stack := [twin] } : State).settle next).value = 400 ∧
        Shift.search.read (({ stack := [twin] } : State).settle next).value = 2048 := by
  intro c strategy twin reused
  obtain ⟨below, -, -, -⟩ :=
    reuse_touches_shifted_only strategy { stack := [twin, strategy] } c rfl
  obtain ⟨-, unrelated, deltas, extension⟩ :=
    reuse_touches_shifted_only strategy { stack := [twin] } c rfl
  obtain ⟨values, -, kept⟩ := below ⟨strategy, by simp, rfl⟩
  refine ⟨⟨values _ .before, values _ .budgetPriority, values _ .searchRange, kept .priority⟩,
    ⟨unrelated ?_ .entry, deltas .priority⟩, ?_⟩
  · intro t member
    cases List.mem_singleton.1 member
    decide
  · obtain ⟨next, extended, sums, -⟩ := extension (by rintro (_ | _) <;> rfl)
    exact ⟨next, extended, sums .priority 0 rfl, sums .search 1024 rfl⟩

end LoreTree
