import LoreTree.Proofs.Shift.Walk
import LoreTree.Strategy.Preset
/-!
Entries below one with a ready-made strategy. Such a strategy brings a delta of zero along, but that
counts only if no depth strategy above it sets one: the deltas of the ancestors go through it.
-/

namespace LoreTree

/-- A ready-made strategy of any name that was made without deltas. -/
def Strategy.IsPlainPreset (s : Strategy) : Prop :=
  ∃ (p : Preset) (identity : Identity) (config : StrategyConfig),
    config.priorityDelta = none ∧ config.searchDelta = none ∧ s = p.strategy identity config

/-- What the children of the last entry of a path inherit. -/
def Config.inheritedAt (c : Config) (path : List Entry) : Except Failure Inherited :=
  path.foldlM (fun above e => do
    let site ← (e.visit above).result
    site.handDown) c.inherited

/-- An entry of a tree with everything filled in, its resolved settings among that. -/
def Config.siteAt (c : Config) (l : Lineage) : Except Failure Site := do
  let above ← c.inheritedAt l.ancestors
  (l.entry.visit above).result

/-- The delta that the depth strategies above an entry hand down through it, none being zero. -/
def Deltas.passing (ancestors : List Strategy) (q : Shift) : Value :=
  ((Deltas.inherited ancestors).get q).getD (.int 0)

namespace Reaches

variable {start above : Inherited} {path : List Entry} {e : Entry}

/-- Below an entry the walk comes from its visit. -/
theorem of_concat (reached : Reaches start (path ++ [e]) above) :
    ∃ before site, Reaches start path before ∧ (e.visit before).result = .ok site ∧
      site.handDown = .ok above := by
  generalize whole : path ++ [e] = full at reached
  cases reached with
  | root => exact absurd whole (by simp)
  | @child front before a site _ reached visited handed =>
    obtain ⟨rfl, last⟩ := List.append_inj' whole rfl
    cases last
    exact ⟨before, site, reached, visited, handed⟩

theorem inheritedAt {c : Config} (reached : Reaches c.inherited path above) :
    c.inheritedAt path = .ok above := by
  induction reached with
  | root => rfl
  | @child path before e site below _ visited handed ih =>
    rw [Config.inheritedAt] at ih ⊢
    rw [List.foldlM_append, ih]
    refine bind_eq_ok.2 ⟨before, rfl, ?_⟩
    exact bind_eq_ok.2 ⟨below, bind_eq_ok.2 ⟨site, visited, handed⟩, rfl⟩

theorem siteAt {c : Config} {site : Site} (reached : Reaches c.inherited path above)
    (visited : (e.visit above).result = .ok site) : c.siteAt ⟨path, e⟩ = .ok site :=
  bind_eq_ok.2 ⟨above, reached.inheritedAt, visited⟩

end Reaches

section Preset

variable {e : Entry} {above below : Inherited} {site : Site}

theorem Strategy.IsPlainPreset.isDepthDelta {s : Strategy} (preset : s.IsPlainPreset) :
    s.kind.isDepthDelta = true := by
  obtain ⟨p, identity, config, -, -, rfl⟩ := preset
  rfl

theorem Strategy.IsPlainPreset.delta_eq {s : Strategy} (preset : s.IsPlainPreset)
    (ancestors : List Strategy) (q : Shift) : s.delta ancestors q = Deltas.passing ancestors q := by
  have depth := preset.isDepthDelta
  obtain ⟨p, identity, config, priority, search, rfl⟩ := preset
  have own : (p.strategy identity config).config.deltas.get q = none := by
    cases q
    · exact priority
    · exact search
  have zero : (p.strategy identity config).kind.delta q = .int 0 := by cases q <;> rfl
  rw [Strategy.delta, if_pos depth, List.findSome?_cons, own, zero, Deltas.passing,
    Deltas.get_inherited]

/-- A depth strategy hands down the value of the entry plus its delta, read as an integer. -/
theorem Visited.exists_sum_handDown (visited : Visited e above site)
    (handed : site.handDown = .ok below) (depth : site.strategy.kind.isDepthDelta = true)
    (q : Shift) :
    ∃ sum, (site.strategy.delta above.state.stack q).addTo (q.read site.state.value) = .ok sum ∧
      Kind.readInteger sum = .ok (q.read below.state.value) := by
  obtain ⟨next, extended, rfl⟩ := Site.handDown_eq_ok handed
  obtain ⟨sum, n, added, read, set⟩ := Strategy.exists_sum_extend extended depth q
  have settled : q.read (site.state.settle next).value = n := by
    rw [State.read_settle, set]
    rfl
  rw [visited.get_deltas depth] at added
  refine ⟨sum, added, read.trans (congrArg _ ?_)⟩
  cases q with
  | priority => exact settled.symm
  | search => exact settled.symm

/-- Right below an entry with a depth strategy, an entry that goes on with that strategy and does not
override a shifted setting shows what it inherits. -/
theorem Visited.read_state_inherited (visited : Visited e above site) (own : e.strategy = none)
    (depth : above.strategy.kind.isDepthDelta = true) (used : above.strategy ∈ above.state.stack)
    {q : Shift} (unset : q.read? e.value = none) :
    q.read site.state.value = q.read above.state.value := by
  have same : site.strategy = above.strategy := by
    rw [visited.strategy, own]
    rfl
  have reused : above.state.stack.any (·.identity = above.strategy.identity) = true :=
    List.any_eq_true.2 ⟨above.strategy, used, decide_eq_true rfl⟩
  rw [visited.read_state, visited.read?_config, Layer.sets, same, unset, depth, reused]
  rfl

end Preset

/-- Right below an entry with a plain preset the records of an entry that goes on with it show the
value of that entry plus the delta that passes through it: they keep the value exactly if the depth
strategies further up hand down no delta but zero. -/
theorem records_below_presets (c : Config) {book : Lorebook} (built : c.build.result = .ok book) :
    c.EachRecord book fun l r => ∀ front p, l.ancestors = front ++ [p] →
      (c.inherited.strategy.passed l.ancestors).IsPlainPreset → l.entry.strategy = none →
      ∃ site, c.siteAt ⟨front, p⟩ = .ok site ∧
        ∀ q : Shift, q.read? l.entry.value = none →
          (∃ sum, (Deltas.passing ((c.layers front).map Layer.strategy) q).addTo
              (q.read site.state.value) = .ok sum ∧
            Kind.readInteger sum = .ok (q.read r.value)) ∧
          ∀ n, (Deltas.passing ((c.layers front).map Layer.strategy) q).integer? = some n →
            (q.read r.value = q.read site.state.value ↔ n = 0) := by
  refine Config.eachRecord built ?_
  intro l _ above site reached visited r shows front p parent preset own
  rw [parent] at reached preset
  obtain ⟨before, up, reachedUp, visitedUp, handed⟩ := reached.of_concat
  have made := Entry.visited visitedUp
  refine ⟨up, reachedUp.siteAt visitedUp, fun q unset => ?_⟩
  rw [← reached.strategy_eq] at preset
  obtain ⟨next, -, eq⟩ := Site.handDown_eq_ok handed
  have strategy : above.strategy = up.strategy := by rw [eq]
  have used : above.strategy ∈ above.state.stack := by
    rw [eq]
    exact List.mem_append_right _ List.mem_cons_self
  have shown : q.read r.value = q.read above.state.value := by
    rw [← visited.read_state_inherited own preset.isDepthDelta used unset]
    cases q <;> exact shows.value_eq _
  rw [strategy] at preset
  have sum := made.exists_sum_handDown handed preset.isDepthDelta q
  rw [preset.delta_eq, reachedUp.stack_eq, ← shown] at sum
  refine ⟨sum, fun n integer => ?_⟩
  obtain ⟨total, added, read⟩ := sum
  rw [Value.addTo_integer integer] at added
  cases added
  have grown : q.read up.state.value + n = q.read r.value := Except.ok.inj read
  omega

/-- A depth strategy with a delta for the priority. -/
def lorePage : Entry where
  name := "Lore"
  keys := [.word "lore"]
  strategy := some ⟨.made 0, .depthDelta (.int 1) (.int 1024), { priorityDelta := some (.int 10) }⟩

def rookPage : Entry where
  name := "Rook"
  keys := [.word "rook"]
  strategy := some (Preset.character.strategy (.made 1) {})

def passingBook : Config where
  entries :=
    [.node lorePage
      [.node rookPage [.node { name := "Gear", keys := [.word "pack"], texts := .one "gear" } []]]]

theorem exists_passingBook :
    ∃ book, passingBook.build.result = .ok book ∧
      book.records.map (fun r => (r.value .budgetPriority, r.value .searchRange)) =
        [((410 : Int), (2000 : Int))] := by
  refine exists_of_map_toOption ?_
  decide +kernel

theorem exists_rookSite :
    ∃ site, passingBook.siteAt ⟨[lorePage], rookPage⟩ = .ok site ∧
      site.state.value .budgetPriority = 400 := by
  refine exists_of_map_toOption ?_
  decide +kernel

theorem records_below_presets_passing :
    ∃ book, passingBook.build.result = .ok book ∧
      book.records.map (fun r => (r.value .budgetPriority, r.value .searchRange)) =
        [((410 : Int), (2000 : Int))] ∧
      passingBook.EachRecord book fun l r => ∀ front p, l.ancestors = front ++ [p] →
        (passingBook.inherited.strategy.passed l.ancestors).IsPlainPreset →
        l.entry.strategy = none →
        ∃ site, passingBook.siteAt ⟨front, p⟩ = .ok site ∧
          ∀ q : Shift, q.read? l.entry.value = none →
            (∃ sum, (Deltas.passing ((passingBook.layers front).map Layer.strategy) q).addTo
                (q.read site.state.value) = .ok sum ∧
              Kind.readInteger sum = .ok (q.read r.value)) ∧
            ∀ n, (Deltas.passing ((passingBook.layers front).map Layer.strategy) q).integer? =
                some n →
              (q.read r.value = q.read site.state.value ↔ n = 0) := by
  obtain ⟨book, built, shown⟩ := exists_passingBook
  exact ⟨book, built, shown, records_below_presets passingBook built⟩

/-- Right below a preset without deltas records do not always keep its value. -/
theorem not_records_keep_preset :
    ¬ ∀ (c : Config) (book : Lorebook), c.build.result = .ok book →
      c.EachRecord book fun l r => ∀ front p, l.ancestors = front ++ [p] →
        (c.inherited.strategy.passed l.ancestors).IsPlainPreset → l.entry.strategy = none →
        (∀ q : Shift, q.read? l.entry.value = none) → ∀ site, c.siteAt ⟨front, p⟩ = .ok site →
          ∀ q : Shift, q.read r.value = q.read site.state.value := by
  intro kept
  obtain ⟨book, built, shown⟩ := exists_passingBook
  obtain ⟨site, found, resolved⟩ := exists_rookSite
  have preset : (passingBook.inherited.strategy.passed [lorePage, rookPage]).IsPlainPreset :=
    ⟨.character, .made 1, {}, rfl, rfl, rfl⟩
  obtain ⟨r, member, same⟩ := (kept passingBook book built).exists_record
    (List.mem_cons_of_mem _ (List.mem_cons_of_mem _ List.mem_cons_self)) (by decide)
  have keeps : r.value .budgetPriority = site.state.value .budgetPriority :=
    same [lorePage] rookPage rfl preset rfl (fun q => by cases q <;> rfl) site found .priority
  have listed : (r.value .budgetPriority, r.value .searchRange) ∈ [((410 : Int), (2000 : Int))] :=
    shown ▸ List.mem_map_of_mem member
  rw [keeps, resolved] at listed
  simp at listed

end LoreTree
