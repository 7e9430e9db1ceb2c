import LoreTree.Proofs.Walk
/-!
One setting on its way through the walk. Each operation on configurations and states is described
by what it does to the value of a single setting of either group.
-/

namespace LoreTree

def StrategyConfig.overrides (c : StrategyConfig) : (g : SettingGroup) → Option (Overrides g)
  | .context => c.context
  | .entry => c.entry

def StrategyConfig.value (c : StrategyConfig) (f : Setting g) : Option f.kind.Carrier :=
  (c.overrides g).bind (·.get f)

def Entry.overrides (e : Entry) : (g : SettingGroup) → Option (Overrides g)
  | .context => e.context
  | .entry => e.entry

def Entry.value (e : Entry) (f : Setting g) : Option f.kind.Carrier :=
  (e.overrides g).bind (·.get f)

def Config.overrides (c : Config) : (g : SettingGroup) → Option (Overrides g)
  | .context => c.context
  | .entry => c.entry

def Config.value (c : Config) (f : Setting g) : Option f.kind.Carrier :=
  (c.overrides g).bind (·.get f)

def State.settings (s : State) : (g : SettingGroup) → Settings g
  | .context => s.context
  | .entry => s.entry

def State.value (s : State) (f : Setting g) : f.kind.Carrier :=
  (s.settings g).get f

def Record.settings (r : Record) : (g : SettingGroup) → Settings g
  | .context => r.context
  | .entry => r.entry

def Record.value (r : Record) (f : Setting g) : f.kind.Carrier :=
  (r.settings g).get f

/-- The setting of each group that depth strategies shift. -/
def SettingGroup.shifted : (g : SettingGroup) → Setting g
  | .context => .budgetPriority
  | .entry => .searchRange

def Setting.isShifted : Setting g → Bool
  | .budgetPriority => true
  | .searchRange => true
  | _ => false

/-- A depth strategy leaves the shifted settings alone below an entry that used it. -/
def Strategy.isReused (strategy : Strategy) (s : State) : Bool :=
  strategy.kind.isDepthDelta && s.hasApplied strategy

namespace Overrides

theorem get_mergeAny (c : Settings g) (o : Option (Overrides g)) (f : Setting g) :
    (c.mergeAny o).get f = (o.bind (·.get f)).getD (c.get f) := by
  cases o <;> rfl

theorem get_overlayAny (a b : Option (Overrides g)) (f : Setting g) :
    (overlayAny a b).bind (·.get f) = (b.bind (·.get f)).or (a.bind (·.get f)) := by
  cases a <;> cases b <;> simp [overlayAny]

theorem get_without (a : Overrides g) (names : List String) (f : Setting g) :
    (a.without names).bind (·.get f) = if f.isNamed names then none else a.get f := by
  unfold without
  split
  · next empty =>
    have none_left : (a.drop names).get f = none := of_decide_eq_true empty f
    rw [← get_drop, none_left]
    rfl
  · exact get_drop a names f

end Overrides

theorem StrategyConfig.value_overlay (c : StrategyConfig) (context : Option (Overrides .context))
    (entry : Option (Overrides .entry)) (f : Setting g) :
    (c.overlay context entry).value f =
      (StrategyConfig.value { context, entry } f).or (c.value f) := by
  cases g
  · exact Overrides.get_overlayAny c.context context f
  · exact Overrides.get_overlayAny c.entry entry f

theorem State.value_settle (s : State) (c : StrategyConfig) (f : Setting g) :
    (s.settle c).value f = (c.value f).getD (s.value f) := by
  cases g
  · exact Overrides.get_mergeAny s.context c.context f
  · exact Overrides.get_mergeAny s.entry c.entry f

theorem Setting.isNamed_shifted (f : Setting g) :
    f.isNamed [g.shifted.name.plain] = f.isShifted := by
  cases f <;> decide

/-- For an entry itself a strategy drops the shifted setting of each group if it is reused, and leaves
the groups as they are if not. -/
theorem Strategy.overrides_apply (strategy : Strategy) (s : State) (c : StrategyConfig)
    (g : SettingGroup) :
    (strategy.apply s c).overrides g =
      if strategy.isReused s then (c.overrides g).bind (·.without [g.shifted.name.plain])
      else c.overrides g := by
  obtain ⟨identity, kind, config⟩ := strategy
  cases kind with
  | fixed => rfl
  | depthDelta p r =>
    simp only [apply, isReused, StrategyKind.isDepthDelta, Bool.true_and]
    cases s.hasApplied ⟨identity, .depthDelta p r, config⟩ <;> cases g <;> rfl

theorem Strategy.value_apply (strategy : Strategy) (s : State) (c : StrategyConfig)
    (f : Setting g) :
    (strategy.apply s c).value f = if strategy.isReused s && f.isShifted then none else c.value f := by
  rw [StrategyConfig.value, overrides_apply]
  cases strategy.isReused s with
  | false => rfl
  | true =>
    rw [if_pos rfl, Option.bind_assoc, Bool.true_and, ← f.isNamed_shifted, StrategyConfig.value]
    cases c.overrides g with
    | none => exact (ite_self none).symm
    | some o => exact o.get_without _ f

/-- What extending gives: a fixed strategy keeps the configuration, a depth strategy sets the two
shifted settings on top of it. -/
theorem Strategy.extend_eq_ok {strategy : Strategy} {s : State} {c next : StrategyConfig}
    (h : strategy.extend s c = .ok next) :
    strategy.kind = .fixed ∧ next = c ∨
    ∃ p r context entry, strategy.kind = .depthDelta p r ∧
      Overrides.shifted .budgetPriority s.context.budgetPriority (c.priorityDelta.getD p) =
        .ok context ∧
      Overrides.shifted .searchRange s.entry.searchRange (c.searchDelta.getD r) = .ok entry ∧
      next = c.overlay (some context) (some entry) := by
  obtain ⟨identity, kind, config⟩ := strategy
  cases kind with
  | fixed =>
    cases h
    exact .inl ⟨rfl, rfl⟩
  | depthDelta p r =>
    obtain ⟨context, hcontext, h⟩ := bind_eq_ok.1 h
    obtain ⟨entry, hentry, h⟩ := bind_eq_ok.1 h
    cases h
    exact .inr ⟨p, r, context, entry, rfl, hcontext, hentry, rfl⟩

theorem Overrides.shifted_eq_ok {f : Setting g} {base : Int} {delta : Value} {o : Overrides g}
    (h : Overrides.shifted f base delta = .ok o) :
    ∃ sum v, delta.addTo base = .ok sum ∧ f.kind.read .author sum = .ok v ∧ o = .only f v := by
  obtain ⟨sum, added, h⟩ := bind_eq_ok.1 h
  unfold Setting.readAt at h
  cases read : f.kind.read .author sum with
  | error rule => simp [read] at h
  | ok v =>
    rw [read] at h
    cases h
    exact ⟨sum, v, added, read, rfl⟩

theorem Strategy.value_extend {strategy : Strategy} {s : State} {c next : StrategyConfig}
    (h : strategy.extend s c = .ok next) {f : Setting g} (plain : f.isShifted = false) :
    next.value f = c.value f := by
  rcases extend_eq_ok h with ⟨-, rfl⟩ | ⟨p, r, context, entry, -, hcontext, hentry, rfl⟩
  · rfl
  · obtain ⟨-, v, -, -, rfl⟩ := Overrides.shifted_eq_ok hcontext
    obtain ⟨-, w, -, -, rfl⟩ := Overrides.shifted_eq_ok hentry
    rw [StrategyConfig.value_overlay]
    cases g with
    | context =>
      have ne : Setting.budgetPriority ≠ f := by
        rintro rfl
        cases plain
      change ((Overrides.only .budgetPriority v).get f).or _ = _
      rw [Overrides.get_only_of_ne v ne, Option.none_or]
    | entry =>
      have ne : Setting.searchRange ≠ f := by
        rintro rfl
        cases plain
      change ((Overrides.only .searchRange w).get f).or _ = _
      rw [Overrides.get_only_of_ne w ne, Option.none_or]

def Setting.isForced : Setting g → Bool
  | .forceActivation => true
  | _ => false

theorem Entry.get_forced (keys : List Phrase) (c : Settings .entry) {f : Setting .entry}
    (free : f.isForced = false) : (Entry.forced keys c).get f = c.get f := by
  unfold Entry.forced
  split
  · have ne : Setting.forceActivation ≠ f := by
      rintro rfl
      cases free
    rw [Settings.get_merge, Overrides.get_only_of_ne _ ne]
    rfl
  · rfl

theorem Entry.get_forced_forceActivation (keys : List Phrase) (c : Settings .entry) :
    (Entry.forced keys c).get .forceActivation = (keys.isEmpty || c.get .forceActivation) := by
  unfold Entry.forced
  cases keys <;> simp

namespace Visited

variable {e : Entry} {above : Inherited} {site : Site}

theorem value_config (visited : Visited e above site) (f : Setting g) :
    site.config.value f = (e.value f).or
      (if site.strategy.isReused above.state && f.isShifted then none
        else site.strategy.config.value f) := by
  have own : StrategyConfig.value { context := e.context, entry := e.entry } f = e.value f := by
    cases g <;> rfl
  rw [visited.config, StrategyConfig.value_overlay, Strategy.value_apply, own]

theorem value_state (visited : Visited e above site) {f : Setting g} (free : f.isForced = false) :
    site.state.value f = (site.config.value f).getD (above.state.value f) := by
  rw [← State.value_settle, visited.state]
  cases g with
  | context => rfl
  | entry => exact Entry.get_forced _ _ free

theorem value_forceActivation (visited : Visited e above site) :
    site.state.value .forceActivation = (site.keys.isEmpty ||
      (site.config.value .forceActivation).getD (above.state.value .forceActivation)) := by
  rw [← State.value_settle, visited.state]
  exact Entry.get_forced_forceActivation _ _

end Visited

/-- Children inherit the settings of the entry, with the extended configuration once more on top. -/
theorem Site.value_handDown {s : Site} {below : Inherited} (h : s.handDown = .ok below)
    {f : Setting g} (plain : f.isShifted = false) :
    below.state.value f = (s.config.value f).getD (s.state.value f) := by
  obtain ⟨next, extended, rfl⟩ := Site.handDown_eq_ok h
  rw [← Strategy.value_extend extended plain]
  exact State.value_settle s.state next f

theorem Site.Shows.value_eq {s : Site} {r : Record} (shows : s.Shows r) (f : Setting g) :
    r.value f = s.state.value f := by
  cases g with
  | context => exact congrArg (·.get f) shows.context
  | entry => exact congrArg (·.get f) shows.entry

/-- The root entries inherit the settings of a new entry, under the root strategy and the overrides
for the whole lorebook. -/
theorem Config.value_initialState (c : Config) (f : Setting g) :
    c.initialState.value f = ((c.value f).or (c.strategy.bind (·.config.value f))).getD
      ((Settings.fresh g).get f) := by
  have base : ({} : State).value f = (Settings.fresh g).get f := by cases g <;> rfl
  have last : (StrategyConfig.value { context := c.context, entry := c.entry } f) = c.value f := by
    cases g <;> rfl
  unfold Config.initialState
  rw [State.value_settle, last]
  cases c.strategy with
  | none =>
    rw [base]
    cases c.value f <;> rfl
  | some strategy =>
    have fresh : strategy.isReused {} = false := Bool.and_false _
    rw [State.value_settle, base, Strategy.value_apply, fresh]
    cases c.value f <;> rfl

end LoreTree
