import LoreTree.Proofs.SettingFlow
/-!
A strategy for the whole lorebook is the same as that strategy on every root entry. The initial state
has it applied once already, but each root entry applies it again: what it sets wins there over the
initial state, and nothing counts it as used by an ancestor.
-/

namespace LoreTree

namespace RoseTree

def root : RoseTree α → α
  | .node label _ => label

def mapRoot (f : α → α) : RoseTree α → RoseTree α
  | .node label children => .node (f label) children

end RoseTree

def Entry.withStrategy (e : Entry) (s : Strategy) : Entry :=
  { e with strategy := some s }

/-- The strategy on every root entry and none for the whole lorebook. -/
def Config.strategyOnEntries (c : Config) (s : Strategy) : Config :=
  { c with strategy := none, entries := c.entries.map (RoseTree.mapRoot (·.withStrategy s)) }

/-- States are told apart by the values of their settings and by their place in the tree. -/
theorem State.ext_value {s t : State} (value : ∀ {g} (f : Setting g), s.value f = t.value f)
    (stack : s.stack = t.stack) (depth : s.depth = t.depth) : s = t := by
  obtain ⟨context, entry, _, _⟩ := s
  obtain ⟨context', entry', _, _⟩ := t
  have same_context : context = context' := Settings.ext fun f => value f
  have same_entry : entry = entry' := Settings.ext fun f => value f
  subst same_context same_entry stack depth
  rfl

/-- What a strategy makes of a configuration depends on the strategies of the ancestors only. -/
theorem Strategy.apply_congr {s t : State} (strategy : Strategy) (stack : s.stack = t.stack)
    (k : StrategyConfig) : strategy.apply s k = strategy.apply t k := by
  unfold apply State.hasApplied
  rw [stack]

section Roots

variable {c : Config} {s : Strategy}

/-- A configuration that sets everything the strategy sets hides whether it was applied before. -/
theorem Config.settle_initialState (given : c.strategy = some s) {k : StrategyConfig}
    (covers : ∀ {g} (f : Setting g), k.value f = none → s.config.value f = none) :
    c.initialState.settle k = (c.strategyOnEntries s).initialState.settle k := by
  refine State.ext_value ?_ ?_ ?_
  · intro g f
    rw [State.value_settle, State.value_settle]
    cases set : k.value f with
    | some v => rfl
    | none =>
      have overrides : (c.strategyOnEntries s).value f = c.value f := by cases g <;> rfl
      rw [c.value_initialState, Config.value_initialState, overrides, given, Option.bind_some,
        covers f set]
      rfl
  · exact c.stack_initialState.trans (c.strategyOnEntries s).stack_initialState.symm
  · exact c.depth_initialState.trans (c.strategyOnEntries s).depth_initialState.symm

/-- At a root entry the strategy counts as not yet used, so everything it sets is set there. -/
theorem Config.covers_root (e : Entry) {g : SettingGroup} (f : Setting g)
    (unset : ((s.apply c.initialState s.config).overlay e.context e.entry).value f = none) :
    s.config.value f = none := by
  have fresh : s.isReused c.initialState = false := by
    rw [Strategy.isReused, State.hasApplied, c.stack_initialState]
    exact Bool.and_false _
  rw [StrategyConfig.value_overlay, Strategy.value_apply, fresh] at unset
  exact (Option.or_eq_none_iff.1 unset).2

theorem Entry.visit_withStrategy {e : Entry} (given : c.strategy = some s)
    (own : e.strategy = none) :
    (e.withStrategy s).visit (c.strategyOnEntries s).inherited = e.visit c.inherited := by
  have applied : s.apply (c.strategyOnEntries s).initialState s.config =
      s.apply c.initialState s.config :=
    s.apply_congr ((Config.stack_initialState _).trans c.stack_initialState.symm) s.config
  have depth : (c.strategyOnEntries s).initialState.depth = c.initialState.depth :=
    (Config.depth_initialState _).trans c.depth_initialState.symm
  have settled := Config.settle_initialState given fun f => Config.covers_root (c := c) e f
  simp only [Entry.visit, Entry.withStrategy, Config.inherited, own, given, Option.getD_some,
    Option.getD_none, applied, depth, settled]
  rfl

theorem Build.forest_strategyOnEntries (given : c.strategy = some s)
    (ts : List (RoseTree Entry)) (free : ∀ t ∈ ts, t.root.strategy = none) :
    Build.forest (c.strategyOnEntries s).inherited (ts.map (RoseTree.mapRoot (·.withStrategy s))) =
      Build.forest c.inherited ts := by
  induction ts with
  | nil => rfl
  | cons t ts ih =>
    obtain ⟨head, others⟩ := List.forall_mem_cons.1 free
    obtain ⟨e, children⟩ := t
    have own : e.strategy = none := head
    rw [List.map_cons, RoseTree.mapRoot, Build.forest, Build.forest, ih others, Build.tree,
      Build.tree, Entry.visit_withStrategy given own]

end Roots

/-- If no root entry has a strategy of its own, the one for the whole lorebook may as well stand on
each of them: the build gives the same lorebook or failure, and tells the same on the way. -/
theorem root_strategy_on_entries (c : Config) (s : Strategy) (given : c.strategy = some s)
    (free : ∀ t ∈ c.entries, t.root.strategy = none) :
    (c.strategyOnEntries s).build = c.build := by
  have walked := Build.forest_strategyOnEntries given c.entries free
  have roots : (c.strategyOnEntries s).entries.length = c.entries.length := List.length_map _
  simp only [Config.build, Config.records, roots]
  rw [show (c.strategyOnEntries s).entries =
    c.entries.map (RoseTree.mapRoot (·.withStrategy s)) from rfl, walked]
  rfl

/-- A preset that sets what the overrides for the whole lorebook and a root entry set too, and that an
entry further down uses once more. -/
def presetBook (s : Strategy) : Config where
  entries :=
    [.node
      { name := "Story", keys := [.word "story"], texts := .one "s"
        context := some (.only .reservedTokens (7 : Int)) }
      [.node { name := "Kid", keys := [.word "kid"], texts := .one "k", strategy := some s } []],
     .node { name := "Town", texts := .one "t" } []]
  strategy := some s
  context := some ((Overrides.only .budgetPriority (9 : Int)).overlay (.only .before "<"))

theorem root_strategy_on_entries_preset :
    let s := Preset.character.strategy (.made 0) {}
    (presetBook s).strategy = some s ∧ (∀ t ∈ (presetBook s).entries, t.root.strategy = none) ∧
      (presetBook s).build.result.toOption.map (fun book => book.records.map fun r =>
        (r.value .budgetPriority, r.value .reservedTokens, r.value .before)) =
          some [(400, 7, "[ "), (400, 200, "[ "), (400, 200, "[ ")] ∧
      ((presetBook s).strategyOnEntries s).build = (presetBook s).build := by
  intro s
  have free : ∀ t ∈ (presetBook s).entries, t.root.strategy = none := by
    intro t member
    simp only [presetBook, List.mem_cons, List.not_mem_nil, or_false] at member
    rcases member with rfl | rfl <;> rfl
  exact ⟨rfl, free, by decide +kernel, root_strategy_on_entries (presetBook s) s rfl free⟩

end LoreTree
