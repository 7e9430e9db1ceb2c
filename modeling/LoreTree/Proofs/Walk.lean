import LoreTree.Proofs.Lineage
import LoreTree.Proofs.Success
/-!
The walk over the entry trees as a transition system. A state of it is what the children of some
entry inherit; one step visits an entry and hands down to its children. The records of a build are
those that the visited entries write, one block for each lineage.
-/

namespace LoreTree

/-- What visiting an entry makes of it, below what is inherited. -/
structure Visited (e : Entry) (above : Inherited) (site : Site) : Prop where
  name : site.name = above.path ++ e.name
  texts : site.texts = e.texts
  keys : (e.resolveKeys above.keys (e.ownOp.getD above.op)).result = .ok site.keys
  compiled : Phrase.compileAll site.keys = .ok site.compiled
  childOp : site.childOp = e.childOp.getD (e.ownOp.getD above.op)
  strategy : site.strategy = e.strategy.getD above.strategy
  config : site.config =
    (site.strategy.apply above.state site.strategy.config).overlay e.context e.entry
  state : site.state =
    { above.state.settle site.config with
      entry := Entry.forced site.keys (above.state.settle site.config).entry }

theorem Entry.visited {e : Entry} {above : Inherited} {site : Site}
    (h : (e.visit above).result = .ok site) : Visited e above site := by
  simp only [Entry.visit, Run.result_bind, Run.result_lift, Run.result_tell, Run.result_pure] at h
  obtain ⟨keys, hkeys, h⟩ := bind_eq_ok.1 h
  obtain ⟨compiled, hcompiled, h⟩ := bind_eq_ok.1 h
  cases h
  exact ⟨rfl, rfl, hkeys, hcompiled, rfl, rfl, rfl, rfl⟩

theorem Site.handDown_eq_ok {s : Site} {below : Inherited} (h : s.handDown = .ok below) :
    ∃ next, s.strategy.extend s.state s.config = .ok next ∧
      below = ⟨(s.state.settle next).descend s.strategy, s.keys, s.childOp, s.strategy,
        s.name ++ " - "⟩ := by
  obtain ⟨next, hnext, h⟩ := bind_eq_ok.1 h
  cases h
  exact ⟨next, hnext, rfl⟩

def Texts.count (t : Texts) : Nat :=
  (t.items.toOption.getD []).length

/-- A record shows the settings and the compiled keys of the entry that writes it. -/
structure Site.Shows (s : Site) (r : Record) : Prop where
  keys : r.keys = s.compiled.map Fragment.key
  context : r.context = s.state.context
  entry : r.entry = s.state.entry

theorem Site.record_shows {s : Site} {count index : Nat} {text : Option String} {r : Record}
    (h : s.record count index text = .ok r) : s.Shows r := by
  cases text with
  | none => cases h
  | some text =>
    cases h
    exact ⟨rfl, rfl, rfl⟩

theorem Site.records_show {s : Site} {rs : List Record} (h : s.records = .ok rs) :
    rs.length = s.texts.count ∧ ∀ r ∈ rs, s.Shows r := by
  obtain ⟨texts, htexts, h⟩ := bind_eq_ok.1 h
  have each := mapM_eq_ok.1 h
  refine ⟨?_, fun r hr => ?_⟩
  · rw [← each.length_eq, List.length_zipIdx, Texts.count, htexts]
    rfl
  · obtain ⟨i, hi, rfl⟩ := List.mem_iff_getElem.1 hr
    exact Site.record_shows (each.get (by rw [each.length_eq]; exact hi) hi)

theorem Config.stack_initialState (c : Config) : c.initialState.stack = [] := by
  unfold initialState
  cases c.strategy <;> rfl

theorem Config.depth_initialState (c : Config) : c.initialState.depth = 0 := by
  unfold initialState
  cases c.strategy <;> rfl

/-- What the children of the last entry of a path inherit, if the walk comes that far. -/
inductive Reaches (start : Inherited) : List Entry → Inherited → Prop
  | root : Reaches start [] start
  | child {path above e site below} : Reaches start path above →
      (e.visit above).result = .ok site → site.handDown = .ok below →
      Reaches start (path ++ [e]) below

namespace Reaches

variable {c : Config} {path : List Entry} {above : Inherited}

theorem strategy_eq (reached : Reaches c.inherited path above) :
    above.strategy = c.inherited.strategy.passed path := by
  induction reached with
  | root => rfl
  | child _ visited handed ih =>
    obtain ⟨next, -, rfl⟩ := Site.handDown_eq_ok handed
    rw [Strategy.passed_concat, ← ih]
    exact (Entry.visited visited).strategy

theorem layers_concat {e : Entry} {site : Site} (reached : Reaches c.inherited path above)
    (visited : Visited e above site) :
    c.layers (path ++ [e]) = c.layers path ++ [⟨e, site.strategy⟩] := by
  rw [Config.layers, Layer.stack_concat, ← reached.strategy_eq, visited.strategy]
  rfl

theorem layers_eq_concat {e : Entry} {site : Site} {front : List Layer} {x : Layer}
    (reached : Reaches c.inherited path above) (visited : Visited e above site)
    (split : c.layers (path ++ [e]) = front ++ [x]) :
    c.layers path = front ∧ x = ⟨e, site.strategy⟩ := by
  rw [reached.layers_concat visited] at split
  have last := List.append_inj_right' split rfl
  exact ⟨List.append_inj_left' split rfl, (List.cons.inj last).1.symm⟩

theorem stack_eq (reached : Reaches c.inherited path above) :
    above.state.stack = (c.layers path).map Layer.strategy := by
  induction reached with
  | root => exact c.stack_initialState
  | child reached visited handed ih =>
    have made := Entry.visited visited
    obtain ⟨next, -, rfl⟩ := Site.handDown_eq_ok handed
    rw [reached.layers_concat made, List.map_append, ← ih]
    change _ ++ [_] = _
    rw [made.state]
    rfl

end Reaches

/-- The walk comes to an entry and the entry writes a block of records. -/
def Writes (start : Inherited) (l : Lineage) (block : List Record) : Prop :=
  ∃ above site, Reaches start l.ancestors above ∧ (l.entry.visit above).result = .ok site ∧
    site.records = .ok block

namespace Build

mutual

theorem tree_writes {start : Inherited} {path : List Entry} {above : Inherited}
    (reached : Reaches start path above) :
    (t : RoseTree Entry) → {rs : List Record} → (tree above t).result = .ok rs →
      ∃ blocks, rs = blocks.flatten ∧ List.Forall₂ (Writes start) (t.lineages path) blocks
  | .node e children, rs, h => by
    simp only [tree, Run.result_bind, Run.result_lift] at h
    obtain ⟨site, visited, h⟩ := bind_eq_ok.1 h
    obtain ⟨own, written, h⟩ := bind_eq_ok.1 h
    have wrote : Writes start ⟨path, e⟩ own := ⟨above, site, reached, visited, written⟩
    cases children with
    | nil =>
      cases h
      exact ⟨[rs], List.flatten_singleton.symm, .cons wrote .nil⟩
    | cons child children =>
      simp only [List.isEmpty_cons, Bool.false_eq_true, if_false, Run.result_bind,
        Run.result_lift, Run.result_pure] at h
      obtain ⟨below, handed, h⟩ := bind_eq_ok.1 h
      obtain ⟨rest, hrest, h⟩ := bind_eq_ok.1 h
      cases h
      obtain ⟨blocks, rfl, each⟩ :=
        forest_writes (.child reached visited handed) (child :: children) hrest
      exact ⟨own :: blocks, rfl, .cons wrote each⟩

theorem forest_writes {start : Inherited} {path : List Entry} {above : Inherited}
    (reached : Reaches start path above) :
    (ts : List (RoseTree Entry)) → {rs : List Record} → (forest above ts).result = .ok rs →
      ∃ blocks, rs = blocks.flatten ∧
        List.Forall₂ (Writes start) (RoseTree.forestLineages path ts) blocks
  | [], rs, h => by
    cases h
    exact ⟨[], rfl, .nil⟩
  | t :: ts, rs, h => by
    simp only [forest, Run.result_bind, Run.result_pure] at h
    obtain ⟨first, hfirst, h⟩ := bind_eq_ok.1 h
    obtain ⟨others, hothers, h⟩ := bind_eq_ok.1 h
    cases h
    obtain ⟨blocks, rfl, each⟩ := tree_writes reached t hfirst
    obtain ⟨more, rfl, eachMore⟩ := forest_writes reached ts hothers
    exact ⟨blocks ++ more, List.flatten_append.symm, List.rel_append each eachMore⟩

end

end Build

/-- The records of a lorebook come in blocks, one for each lineage in pre-order, with one record for
each text of its entry; `P` holds of every lineage and record of its block. -/
def Config.EachRecord (c : Config) (book : Lorebook) (P : Lineage → Record → Prop) : Prop :=
  ∃ blocks : List (List Record),
    (if c.reversed then book.records.reverse else book.records) = blocks.flatten ∧
      List.Forall₂ (fun l block => block.length = l.entry.texts.count ∧ ∀ r ∈ block, P l r)
        c.lineages blocks

theorem Config.build_eq_ok {c : Config} {book : Lorebook} :
    c.build.result = .ok book ↔ ∃ all, (Build.forest c.inherited c.entries).result = .ok all ∧
      book = { orderByKeyLocations := c.orderByKeyLocations,
               records := if c.reversed then all.reverse else all } := by
  simp only [Config.build, Config.records, Run.result_bind, Run.result_tell, Run.result_pure]
  constructor
  · intro built
    obtain ⟨rs, hrs, built⟩ := bind_eq_ok.1 built
    obtain ⟨all, hall, hrs⟩ := bind_eq_ok.1 hrs
    cases hrs
    cases built
    exact ⟨all, hall, rfl⟩
  · rintro ⟨all, hall, rfl⟩
    rw [hall]
    rfl

theorem Config.build_eq_error {c : Config} {e : Failure} :
    c.build.result = .error e ↔ (Build.forest c.inherited c.entries).result = .error e := by
  simp only [Config.build, Config.records, Run.result_bind]
  cases (Build.forest c.inherited c.entries).result with
  | error f =>
    constructor
    · intro failed
      cases failed
      rfl
    · intro failed
      cases failed
      rfl
  | ok all =>
    constructor
    · intro failed
      cases failed
    · intro failed
      cases failed

/-- The records of a build are the blocks that the entries write, in the order of the lineages. -/
theorem Config.writes_of_built {c : Config} {book : Lorebook} (built : c.build.result = .ok book) :
    ∃ blocks, (if c.reversed then book.records.reverse else book.records) = blocks.flatten ∧
      List.Forall₂ (Writes c.inherited) c.lineages blocks := by
  obtain ⟨all, hall, rfl⟩ := Config.build_eq_ok.1 built
  obtain ⟨blocks, rfl, each⟩ := Build.forest_writes .root c.entries hall
  exact ⟨blocks, by cases c.reversed <;> simp, each⟩

theorem Config.exists_writes {c : Config} {book : Lorebook} {l : Lineage}
    (built : c.build.result = .ok book) (member : l ∈ c.lineages) :
    ∃ block, Writes c.inherited l block := by
  obtain ⟨blocks, -, each⟩ := Config.writes_of_built built
  obtain ⟨i, hi, rfl⟩ := List.mem_iff_getElem.1 member
  exact ⟨_, each.get hi (each.length_eq ▸ hi)⟩

/-- What holds of every entry that the walk can come to holds of every record of the build. -/
theorem Config.eachRecord {c : Config} {book : Lorebook} {P : Lineage → Record → Prop}
    (built : c.build.result = .ok book)
    (holds : ∀ l ∈ c.lineages, ∀ above site, Reaches c.inherited l.ancestors above →
      Visited l.entry above site → ∀ r, site.Shows r → P l r) : c.EachRecord book P := by
  obtain ⟨blocks, all, each⟩ := Config.writes_of_built built
  refine ⟨blocks, all, ?_⟩
  rw [List.forall₂_iff_zip] at each ⊢
  refine ⟨each.1, fun {l block} pair => ?_⟩
  obtain ⟨above, site, reached, visited, written⟩ := each.2 pair
  have made := Entry.visited visited
  obtain ⟨count, shows⟩ := Site.records_show written
  exact ⟨made.texts ▸ count,
    fun r hr => holds l (List.of_mem_zip pair).1 above site reached made r (shows r hr)⟩

theorem Config.EachRecord.exists_record {c : Config} {book : Lorebook}
    {P : Lineage → Record → Prop} (each : c.EachRecord book P) {l : Lineage} (hl : l ∈ c.lineages)
    (texts : l.entry.texts.count ≠ 0) : ∃ r ∈ book.records, P l r := by
  obtain ⟨blocks, all, each⟩ := each
  obtain ⟨i, hi, rfl⟩ := List.mem_iff_getElem.1 hl
  have inside : i < blocks.length := each.length_eq ▸ hi
  obtain ⟨count, holds⟩ := each.get hi inside
  have written : 0 < blocks[i].length := Nat.pos_of_ne_zero fun h => texts (count.symm.trans h)
  have member : blocks[i][0] ∈ blocks.flatten :=
    List.mem_flatten.2 ⟨_, List.getElem_mem inside, List.getElem_mem written⟩
  refine ⟨blocks[i][0], ?_, holds _ (List.getElem_mem written)⟩
  rw [← all] at member
  split at member
  · exact List.mem_reverse.1 member
  · exact member

theorem Config.EachRecord.exists_lineage {c : Config} {book : Lorebook}
    {P : Lineage → Record → Prop} (each : c.EachRecord book P) {r : Record}
    (member : r ∈ book.records) : ∃ l ∈ c.lineages, P l r := by
  obtain ⟨blocks, all, each⟩ := each
  have written : r ∈ blocks.flatten := by
    rw [← all]
    split
    · exact List.mem_reverse.2 member
    · exact member
  obtain ⟨block, hblock, hr⟩ := List.mem_flatten.1 written
  obtain ⟨i, hi, rfl⟩ := List.mem_iff_getElem.1 hblock
  have inside : i < c.lineages.length := each.length_eq ▸ hi
  exact ⟨c.lineages[i], List.getElem_mem inside, (each.get inside hi).2 r hr⟩

end LoreTree
