import LoreTree.Proofs.SettingFlow
/-!
Plain settings: those that no strategy shifts and that no entry is forced to. The value that a
record shows is the last one that is set on the way from the defaults down to the entry; what is set
elsewhere in the trees does not matter.
-/

namespace LoreTree

/-- The last value of a sequence of writes, some of which leave the value as it is. -/
def lastSet (writes : List (Option α)) : Option α :=
  (writes.filterMap id).getLast?

theorem lastSet_append (first second : List (Option α)) :
    lastSet (first ++ second) = (lastSet second).or (lastSet first) := by
  rw [lastSet, List.filterMap_append, List.getLast?_append]
  rfl

theorem lastSet_pair (a b : Option α) : lastSet [a, b] = b.or a := by
  cases a <;> cases b <;> rfl

/-- What an entry writes: first the configuration of its strategy, then its own overrides. -/
def Layer.writes (l : Layer) (f : Setting g) : List (Option f.kind.Carrier) :=
  [l.strategy.config.value f, l.entry.value f]

/-- Everything that is written to a setting on the way down a path, from the defaults on. -/
def Config.writes (c : Config) (path : List Entry) (f : Setting g) :
    List (Option f.kind.Carrier) :=
  [some ((Settings.fresh g).get f), c.strategy.bind (·.config.value f), c.value f] ++
    (c.layers path).flatMap (·.writes f)

theorem Config.lastSet_writes_nil (c : Config) (f : Setting g) :
    lastSet (c.writes [] f) = some (c.initialState.value f) := by
  rw [c.value_initialState f]
  change lastSet ([some _] ++ [c.strategy.bind (·.config.value f), c.value f] ++ []) = _
  rw [List.append_nil, lastSet_append, lastSet_pair]
  cases (c.value f).or (c.strategy.bind (·.config.value f)) <;> rfl

section Walk

variable {c : Config} {path : List Entry} {above : Inherited} {e : Entry} {site : Site}
  {f : Setting g}

/-- One more entry on the path: its configuration is the last to write, as long as nothing but that
comes between what it inherits and what it shows. -/
theorem lastSet_writes_shown (reached : Reaches c.inherited path above)
    (visited : Visited e above site) (plain : f.isShifted = false)
    (shown : site.state.value f = (site.config.value f).getD (above.state.value f))
    (inherited : lastSet (c.writes path f) = some (above.state.value f)) :
    lastSet (c.writes (path ++ [e]) f) = some (site.state.value f) := by
  have written : site.config.value f = (e.value f).or (site.strategy.config.value f) := by
    rw [visited.value_config, plain, Bool.and_false]
    rfl
  rw [shown, written, Config.writes, reached.layers_concat visited,
    List.flatMap_append, ← List.append_assoc, ← Config.writes, lastSet_append, inherited]
  change (lastSet ([site.strategy.config.value f, e.value f] ++ [])).or _ = _
  rw [List.append_nil, lastSet_pair]
  cases (e.value f).or (site.strategy.config.value f) <;> rfl

/-- Handing down leaves such a setting as the entry shows it: the configuration that is merged a
second time has already won. -/
theorem value_handDown_shown {below : Inherited} (handed : site.handDown = .ok below)
    (plain : f.isShifted = false)
    (shown : site.state.value f = (site.config.value f).getD (above.state.value f)) :
    below.state.value f = site.state.value f := by
  rw [Site.value_handDown handed plain, shown]
  cases site.config.value f <;> rfl

theorem lastSet_writes_visited (reached : Reaches c.inherited path above)
    (visited : Visited e above site) (plain : f.isShifted = false) (free : f.isForced = false)
    (inherited : lastSet (c.writes path f) = some (above.state.value f)) :
    lastSet (c.writes (path ++ [e]) f) = some (site.state.value f) :=
  lastSet_writes_shown reached visited plain (visited.value_state free) inherited

theorem value_handDown_plain {below : Inherited} (visited : Visited e above site)
    (handed : site.handDown = .ok below) (plain : f.isShifted = false)
    (free : f.isForced = false) : below.state.value f = site.state.value f :=
  value_handDown_shown handed plain (visited.value_state free)

/-- Wherever the walk is, the last write on the path is what is inherited. -/
theorem Reaches.lastSet_writes (reached : Reaches c.inherited path above)
    (plain : f.isShifted = false) (free : f.isForced = false) :
    lastSet (c.writes path f) = some (above.state.value f) := by
  induction reached with
  | root => exact c.lastSet_writes_nil f
  | child reached visited handed ih =>
    have made := Entry.visited visited
    rw [lastSet_writes_visited reached made plain free ih,
      value_handDown_plain made handed plain free]

end Walk

/-- Every record shows, for every plain setting, the last value that is set on the way to its
entry. -/
theorem records_show_last_write (c : Config) {book : Lorebook}
    (built : c.build.result = .ok book) :
    c.EachRecord book fun l r => ∀ (g : SettingGroup) (f : Setting g),
      f.isShifted = false → f.isForced = false →
        lastSet (c.writes l.entries f) = some (r.value f) := by
  refine Config.eachRecord built ?_
  intro l _ above site reached visited r shows g f plain free
  rw [shows.value_eq]
  exact lastSet_writes_visited reached visited plain free (reached.lastSet_writes plain free)

/-- Three levels: a fixed strategy for the lorebook, a depth strategy in the middle, overrides on
the way. -/
def layeredBook : Config where
  entries :=
    [.node { name := "Story", keys := [.word "story"], context := some (.only .before "<") }
      [.node
        { name := "Kid", keys := [.word "kid"], texts := .one "k"
          strategy := some ⟨.made 1, .depthDelta (.int 1) (.int 1024),
            { context := some (.only .after ">"), entry := some (.only .enabled true) }⟩
          entry := some (.only .enabled false) }
        [.node { name := "Toy", keys := [.word "toy"], texts := .one "t" } []]]]
  strategy := some ⟨.made 0, .fixed, { context := some (.only .before "[ ") }⟩
  context := some (.only .after "]")

theorem records_show_last_write_layered :
    ∃ book, layeredBook.build.result = .ok book ∧
      book.records.map (fun r => (r.value .before, r.value .after, r.value .enabled)) =
        [("<", ">", false), ("<", ">", true)] ∧
      layeredBook.EachRecord book fun l r => ∀ (g : SettingGroup) (f : Setting g),
        f.isShifted = false → f.isForced = false →
          lastSet (layeredBook.writes l.entries f) = some (r.value f) :=
  ⟨_, rfl, rfl, records_show_last_write layeredBook rfl⟩

end LoreTree
