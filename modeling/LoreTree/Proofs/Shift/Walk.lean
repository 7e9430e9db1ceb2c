import LoreTree.Proofs.Shift.Sum
/-!
The shifted settings along the walk. As long as every delta is an integer, the value that a record
shows is that of the last entry on its path that sets one, plus the deltas of the entries from there
down to the parent.
-/

namespace LoreTree

theorem Deltas.get_overlay (a b : Deltas) (q : Shift) :
    (a.overlay b).get q = (b.get q).or (a.get q) := by
  cases q <;> rfl

/-- The deltas that count are those of the nearest ancestors. -/
theorem Deltas.get_inherited (stack : List Strategy) (q : Shift) :
    (Deltas.inherited stack).get q =
      (stack.filter (·.kind.isDepthDelta)).reverse.findSome? (·.config.deltas.get q) := by
  suffices ∀ d : Deltas,
      (stack.foldl (fun d s => if s.kind.isDepthDelta then d.overlay s.config.deltas else d) d).get q =
        ((stack.filter (·.kind.isDepthDelta)).reverse.findSome? (·.config.deltas.get q)).or
          (d.get q) by
    rw [Deltas.inherited, this {}]
    cases q <;> exact Option.or_none
  induction stack with
  | nil => exact fun d => rfl
  | cons s stack ih =>
    intro d
    rw [List.foldl_cons, ih]
    by_cases depth : s.kind.isDepthDelta = true
    · rw [if_pos depth, List.filter_cons, if_pos depth, List.reverse_cons, List.findSome?_append,
        Deltas.get_overlay, Option.or_assoc]
      cases h : s.config.deltas.get q <;> simp [h]
    · rw [if_neg depth, List.filter_cons, if_neg depth]

theorem Strategy.get_deltas_apply {strategy : Strategy} (depth : strategy.kind.isDepthDelta = true)
    (s : State) (c : StrategyConfig) (q : Shift) :
    (strategy.apply s c).deltas.get q = (c.deltas.get q).or ((Deltas.inherited s.stack).get q) := by
  obtain ⟨identity, kind, config⟩ := strategy
  cases kind with
  | fixed => cases depth
  | depthDelta p r =>
    unfold Strategy.apply
    cases s.hasApplied ⟨identity, .depthDelta p r, config⟩ <;> cases q <;> rfl

theorem Strategy.delta_fixed {s : Strategy} (fixed : s.kind = .fixed) (ancestors : List Strategy)
    (q : Shift) : s.delta ancestors q = .int 0 := by
  rw [Strategy.delta, fixed]
  rfl

/-- Integer deltas lead to an integer, whatever ancestors take part. -/
theorem Strategy.isSome_integer_delta {s : Strategy} {ancestors : List Strategy}
    (own : s.hasIntegerDeltas) (others : ∀ a ∈ ancestors, a.hasIntegerDeltas) (q : Shift) :
    (s.delta ancestors q).integer?.isSome := by
  unfold Strategy.delta
  split
  · cases found : (s :: (ancestors.filter (·.kind.isDepthDelta)).reverse).findSome?
        (·.config.deltas.get q) with
    | none => exact (Strategy.hasIntegerDeltas_at own q).2
    | some v =>
      obtain ⟨a, ha, hv⟩ := List.exists_of_findSome?_eq_some found
      have integers : a.hasIntegerDeltas := by
        rcases List.mem_cons.1 ha with rfl | ha
        · exact own
        · exact others a (List.mem_filter.1 (List.mem_reverse.1 ha)).1
      have set := (Strategy.hasIntegerDeltas_at integers q).1
      rw [hv] at set
      exact set
  · rfl

theorem Value.addTo_integer {v : Value} {n : Int} (h : v.integer? = some n) (base : Int) :
    v.addTo base = .ok (.int (base + n)) := by
  cases v <;> cases h <;> rfl

theorem State.read_settle (s : State) (c : StrategyConfig) (q : Shift) :
    q.read (s.settle c).value = (q.read? c.value).getD (q.read s.value) := by
  cases q with
  | priority => exact s.value_settle c .budgetPriority
  | search => exact s.value_settle c .searchRange

/-- A depth strategy sets a shifted setting to its value plus the delta, read as an integer. -/
theorem Strategy.exists_sum_extend {strategy : Strategy} {s : State} {c next : StrategyConfig}
    (h : strategy.extend s c = .ok next) (depth : strategy.kind.isDepthDelta = true) (q : Shift) :
    ∃ sum n, ((c.deltas.get q).getD (strategy.kind.delta q)).addTo (q.read s.value) = .ok sum ∧
      Kind.readInteger sum = .ok n ∧ q.read? next.value = some n := by
  rcases extend_eq_ok h with ⟨fixed, -⟩ | ⟨p, r, context, entry, kind, hcontext, hentry, rfl⟩
  · rw [fixed] at depth
    cases depth
  · rw [kind]
    cases q with
    | priority =>
      obtain ⟨sum, n, added, read, rfl⟩ := Overrides.shifted_eq_ok hcontext
      refine ⟨sum, n, added, read, (StrategyConfig.value_overlay ..).trans ?_⟩
      change ((Overrides.only .budgetPriority n).get .budgetPriority).or _ = _
      rw [Overrides.get_only_self]
      rfl
    | search =>
      obtain ⟨sum, n, added, read, rfl⟩ := Overrides.shifted_eq_ok hentry
      refine ⟨sum, n, added, read, (StrategyConfig.value_overlay ..).trans ?_⟩
      change ((Overrides.only .searchRange n).get .searchRange).or _ = _
      rw [Overrides.get_only_self]
      rfl

theorem Strategy.read?_extend {strategy : Strategy} {s : State} {c next : StrategyConfig}
    (h : strategy.extend s c = .ok next) (depth : strategy.kind.isDepthDelta = true) {q : Shift}
    {n : Int} (integer : ((c.deltas.get q).getD (strategy.kind.delta q)).integer? = some n) :
    q.read? next.value = some (q.read s.value + n) := by
  obtain ⟨sum, m, added, read, set⟩ := exists_sum_extend h depth q
  rw [Value.addTo_integer integer] at added
  cases added
  cases read
  exact set

theorem Overrides.exists_shifted {f : Setting g} (integer : f.kind = .integer) (base : Int)
    {delta : Value} (whole : delta.integer?.isSome = true) :
    ∃ o, Overrides.shifted f base delta = .ok o := by
  obtain ⟨n, hn⟩ := Option.isSome_iff_exists.1 whole
  unfold shifted
  rw [Value.addTo_integer hn]
  cases f <;> cases integer <;> exact ⟨_, rfl⟩

/-- A depth strategy extends every configuration if the deltas that count are integers, and a fixed
one extends every configuration. -/
theorem Strategy.exists_extend {strategy : Strategy} {c : StrategyConfig} (s : State)
    (whole : strategy.kind.isDepthDelta = true →
      ∀ q, ((c.deltas.get q).getD (strategy.kind.delta q)).integer?.isSome = true) :
    ∃ next, strategy.extend s c = .ok next := by
  obtain ⟨identity, kind, config⟩ := strategy
  cases kind with
  | fixed => exact ⟨c, rfl⟩
  | depthDelta p r =>
    obtain ⟨context, hcontext⟩ := Overrides.exists_shifted (f := .budgetPriority) rfl
      s.context.budgetPriority (whole rfl .priority)
    obtain ⟨entry, hentry⟩ := Overrides.exists_shifted (f := .searchRange) rfl
      s.entry.searchRange (whole rfl .search)
    exact ⟨_, bind_eq_ok.2 ⟨context, hcontext, bind_eq_ok.2 ⟨entry, hentry, rfl⟩⟩⟩

namespace Visited

variable {e : Entry} {above : Inherited} {site : Site}

theorem read_state (visited : Visited e above site) (q : Shift) :
    q.read site.state.value =
      (q.read? site.config.value).getD (q.read above.state.value) := by
  cases q with
  | priority => exact visited.value_state rfl
  | search => exact visited.value_state rfl

theorem read?_config (visited : Visited e above site) (q : Shift) :
    q.read? site.config.value = (Layer.mk e site.strategy).sets above.state.stack q := by
  have reused : site.strategy.isReused above.state =
      (site.strategy.kind.isDepthDelta &&
        above.state.stack.any (·.identity = site.strategy.identity)) := rfl
  rw [Layer.sets, ← reused]
  cases q with
  | priority =>
    refine (visited.value_config _).trans ?_
    rw [show Setting.budgetPriority.isShifted = true from rfl, Bool.and_true]
    rfl
  | search =>
    refine (visited.value_config _).trans ?_
    rw [show Setting.searchRange.isShifted = true from rfl, Bool.and_true]
    rfl

theorem get_deltas (visited : Visited e above site)
    (depth : site.strategy.kind.isDepthDelta = true) (q : Shift) :
    (site.config.deltas.get q).getD (site.strategy.kind.delta q) =
      site.strategy.delta above.state.stack q := by
  have kept : site.config.deltas.get q =
      (site.strategy.apply above.state site.strategy.config).deltas.get q := by
    rw [visited.config]
    cases q <;> rfl
  rw [kept, Strategy.get_deltas_apply depth, Deltas.get_inherited, Strategy.delta, if_pos depth,
    List.findSome?_cons]
  cases site.strategy.config.deltas.get q <;> rfl

theorem read_handDown {below : Inherited} (visited : Visited e above site)
    (handed : site.handDown = .ok below) {q : Shift} {n : Int}
    (integer : (site.strategy.delta above.state.stack q).integer? = some n) :
    q.read below.state.value = q.read site.state.value + n := by
  obtain ⟨next, extended, rfl⟩ := Site.handDown_eq_ok handed
  have settled : q.read (site.state.settle next).value = q.read site.state.value + n := by
    rw [State.read_settle]
    by_cases depth : site.strategy.kind.isDepthDelta = true
    · rw [← visited.get_deltas depth] at integer
      rw [Strategy.read?_extend extended depth integer]
      rfl
    · have fixed : site.strategy.kind = .fixed := by
        cases kind : site.strategy.kind with
        | fixed => rfl
        | depthDelta => exact (depth (by rw [kind]; rfl)).elim
      -- the configuration is merged again over settings in which it has already won
      have same : next = site.config := by
        rcases Strategy.extend_eq_ok extended with ⟨-, eq⟩ | ⟨_, _, _, _, other, -⟩
        · exact eq
        · rw [fixed] at other
          cases other
      rw [Strategy.delta_fixed fixed] at integer
      cases integer
      rw [same, visited.read_state, Int.add_zero]
      cases q.read? site.config.value <;> rfl
  cases q with
  | priority => exact settled
  | search => exact settled

end Visited

theorem Layer.mem_stack_strategy {inherited : Strategy} {path : List Entry} {l : Layer}
    (h : l ∈ Layer.stack inherited path) :
    l.strategy = inherited ∨ ∃ e ∈ path, e.strategy = some l.strategy := by
  induction path generalizing inherited with
  | nil => cases h
  | cons e path ih =>
    have own : e.strategy.getD inherited = inherited ∨
        e.strategy = some (e.strategy.getD inherited) := by
      cases e.strategy with
      | none => exact .inl rfl
      | some s => exact .inr rfl
    rcases List.mem_cons.1 h with rfl | h
    · exact own.imp_right fun h => ⟨e, List.mem_cons_self, h⟩
    · rcases ih h with eq | ⟨a, ha, h⟩
      · rw [eq]
        exact own.imp_right fun h => ⟨e, List.mem_cons_self, h⟩
      · exact .inr ⟨a, List.mem_cons_of_mem e ha, h⟩

theorem Config.hasIntegerDeltas.layers {c : Config} (integers : c.hasIntegerDeltas = true)
    {l : Lineage} (hl : l ∈ c.lineages) :
    ∀ layer ∈ c.layers l.entries, layer.strategy.hasIntegerDeltas := by
  intro layer h
  obtain ⟨root, entries⟩ := (Bool.and_eq_true _ _).mp integers
  rcases Layer.mem_stack_strategy h with eq | ⟨e, he, eq⟩
  · rw [eq]
    change (c.strategy.getD .standard).hasIntegerDeltas = true
    cases given : c.strategy with
    | none => rfl
    | some s =>
      rw [given] at root
      exact root
  · obtain ⟨m, hm, rfl⟩ := Config.mem_lineages_entries hl he
    have own := List.all_eq_true.1 entries m hm
    rw [eq] at own
    exact own

section Walk

variable {c : Config} {path : List Entry} {above : Inherited} {e : Entry} {site : Site}

theorem Config.length_layers (c : Config) (path : List Entry) :
    (c.layers path).length = path.length :=
  Layer.length_stack _ path

theorem Shift.read_initialState (q : Shift) (c : Config) :
    q.read c.initialState.value = q.start c := by
  cases q
  · exact c.value_initialState .budgetPriority
  · exact c.value_initialState .searchRange

theorem sums_visited {q : Shift} (reached : Reaches c.inherited path above)
    (visited : Visited e above site)
    (sums : q.Sums c (c.layers path) path.length (q.read above.state.value)) :
    q.Sums c (c.layers (path ++ [e])) path.length (q.read site.state.value) := by
  rw [visited.read_state, visited.read?_config, reached.stack_eq, reached.layers_concat visited]
  rw [← c.length_layers path] at sums ⊢
  exact sums.concat

/-- Wherever the walk is, what is inherited sums up the path. -/
theorem Reaches.sums (reached : Reaches c.inherited path above)
    (integers : ∀ l ∈ c.layers path, l.strategy.hasIntegerDeltas) (q : Shift) :
    q.Sums c (c.layers path) path.length (q.read above.state.value) := by
  induction reached with
  | root =>
    rw [show c.inherited.state = c.initialState from rfl, q.read_initialState]
    exact ⟨fun m hm => (Nat.not_lt_zero m hm).elim, fun _ => (Int.add_zero _).symm⟩
  | @child path above e site below reached visited handed ih =>
    have made := Entry.visited visited
    rw [reached.layers_concat made] at integers
    have earlier : ∀ l ∈ c.layers path, l.strategy.hasIntegerDeltas :=
      fun l hl => integers l (List.mem_append_left _ hl)
    have own : site.strategy.hasIntegerDeltas :=
      integers ⟨e, site.strategy⟩ (List.mem_append_right _ List.mem_cons_self)
    have others : ∀ a ∈ (c.layers path).map Layer.strategy, a.hasIntegerDeltas := by
      intro a ha
      obtain ⟨l, hl, rfl⟩ := List.mem_map.1 ha
      exact earlier l hl
    obtain ⟨n, hn⟩ := Option.isSome_iff_exists.1 (Strategy.isSome_integer_delta own others q)
    have delta : q.deltaAt (c.layers (path ++ [e])) path.length = n := by
      rw [reached.layers_concat made, ← c.length_layers path, Shift.deltaAt_concat_self, hn]
      rfl
    rw [← reached.stack_eq] at hn
    rw [made.read_handDown handed hn, ← delta, List.length_append]
    have shown := sums_visited reached made (ih earlier)
    refine shown.succ ?_
    rw [c.length_layers, List.length_append]
    exact Nat.le_refl _

end Walk

/-- Every record shows, for both shifted settings, the value of the last setter on the path of its
entry, plus the deltas from there down to the parent. -/
theorem records_show_shift_sums (c : Config) (integers : c.hasIntegerDeltas = true) {book : Lorebook}
    (built : c.build.result = .ok book) :
    c.EachRecord book fun l r => ∀ q : Shift,
      q.Sums c (c.layers l.entries) l.ancestors.length (q.read r.value) := by
  refine Config.eachRecord built ?_
  intro l hl above site reached visited r shows q
  have all := Config.hasIntegerDeltas.layers integers hl
  have earlier : ∀ layer ∈ c.layers l.ancestors, layer.strategy.hasIntegerDeltas := by
    intro layer h
    refine all layer ?_
    rw [Lineage.entries, reached.layers_concat visited]
    exact List.mem_append_left _ h
  have same : q.read r.value = q.read site.state.value := by
    cases q <;> exact shows.value_eq _
  rw [same]
  exact sums_visited reached visited (reached.sums earlier q)

def deepStrategy : Strategy :=
  ⟨.made 1, .depthDelta (.int 1) (.int 1024),
    { context := some (.only .budgetPriority (500 : Int)) }⟩

/-- The depth strategy on every level but one, which overrides the priority and sets a delta. -/
def shiftedBook : Config where
  entries :=
    [.node { name := "Story", keys := [.word "story"], texts := .one "s", strategy := some deepStrategy }
      [.node { name := "Kid", keys := [.word "kid"], texts := .one "k" }
        [.node
          { name := "Toy", keys := [.word "toy"], texts := .one "t"
            strategy :=
              some ⟨.made 2, .depthDelta (.int 1) (.int 1024), { priorityDelta := some (.int 5) }⟩
            context := some (.only .budgetPriority (10 : Int)) }
          [.node
            { name := "Box", keys := [.word "box"], texts := .one "b", strategy := some deepStrategy }
            []]]]]

theorem records_show_shift_sums_reused :
    shiftedBook.hasIntegerDeltas = true ∧ ∃ book, shiftedBook.build.result = .ok book ∧
      book.records.map (fun r => Shift.priority.read r.value) = [500, 501, 10, 15] ∧
      shiftedBook.EachRecord book fun l r => ∀ q : Shift,
        q.Sums shiftedBook (shiftedBook.layers l.entries) l.ancestors.length (q.read r.value) := by
  have integers : shiftedBook.hasIntegerDeltas = true := rfl
  have shown : shiftedBook.build.result.toOption.map (fun book =>
      book.records.map fun r => Shift.priority.read r.value) = some [500, 501, 10, 15] := by
    decide +kernel
  refine ⟨integers, ?_⟩
  cases built : shiftedBook.build.result with
  | error e =>
    rw [built] at shown
    cases shown
  | ok book =>
    rw [built] at shown
    exact ⟨book, rfl, Option.some.inj shown, records_show_shift_sums shiftedBook integers built⟩

end LoreTree
