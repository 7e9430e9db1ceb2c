import LoreTree.Proofs.Emission
import LoreTree.Proofs.KeyFlow
/-!
The log of a build. Every entry is announced as soon as its keys are compiled, in pre-order, and a
build that succeeds ends with one line about all of them. A build that fails has announced the
entries before the one that fails, and that one too if its keys were compiled.
-/

namespace LoreTree

namespace Run

variable {r : Run α} {next : α → Run β}

theorem log_bind_of_ok {a : α} (h : r.result = .ok a) :
    (r >>= next).log = r.log ++ (next a).log := by
  change (r.andThen next).log = _
  rw [andThen, h]
  exact List.filterMap_append

theorem log_bind_of_error {e : Failure} (h : r.result = .error e) : (r >>= next).log = r.log := by
  change (r.andThen next).log = _
  rw [andThen, h]
  rfl

theorem log_lift (x : Except Failure α) : (liftM x : Run α).log = [] := rfl

theorem log_bind_lift (r : Run α) (next : α → Except Failure β) :
    (r >>= fun a => liftM (next a)).log = r.log := by
  cases h : r.result with
  | error e => exact log_bind_of_error h
  | ok a => rw [log_bind_of_ok h, log_lift, List.append_nil]

end Run

def Lineage.announcement (l : Lineage) (keys : Nat) (kind : StrategyKind) : LogLine :=
  ⟨.debug, "Building '" ++ l.title ++ "' at depth " ++ Decimal.natText l.ancestors.length ++ ": " ++
    Decimal.natText keys ++ " keys, strategy " ++ kind.name⟩

namespace Config

def compiledKeys (c : Config) (path : List Entry) : Except Failure (List Fragment) := do
  Phrase.compileAll (← c.effectiveKeys path)

/-- A line that announces an entry with its effective keys and its strategy. The walk comes to the
entry with as many strategies behind it as the entry has ancestors. -/
structure Announces (c : Config) (l : Lineage) (line : LogLine) : Prop where
  shown : ∃ keys, c.effectiveKeys l.entries = .ok keys ∧
    line = l.announcement keys.length (c.inherited.strategy.passed l.entries).kind
  reached : ∃ above, Reaches c.inherited l.ancestors above ∧
    above.state.depth = l.ancestors.length ∧ above.state.stack.length = l.ancestors.length

/-- The walk comes to an entry and fails there, before it goes on to the lineages after it. What is
announced of the entry depends on whether its keys are compiled before the failure. -/
inductive StopsAt (c : Config) (l : Lineage) (after : List Lineage) (e : Failure) :
    (announced : List Lineage) → Prop
  | keys {above} : Reaches c.inherited l.ancestors above → c.compiledKeys l.entries = .error e →
      StopsAt c l after e []
  | records {above site} : Reaches c.inherited l.ancestors above →
      (l.entry.visit above).result = .ok site → c.compiledKeys l.entries = .ok site.compiled →
      site.records = .error e → StopsAt c l after e [l]
  /-- Only an entry that has children hands down to them. -/
  | handDown {above site block child others} : Reaches c.inherited l.ancestors above →
      (l.entry.visit above).result = .ok site → c.compiledKeys l.entries = .ok site.compiled →
      site.records = .ok block → after = child :: others → child.ancestors = l.entries →
      site.handDown = .error e → StopsAt c l after e [l]

/-- How a walk over some lineages ends, and its log. The lineages before the one at which it stops
write their records. -/
inductive Logs (c : Config) : List Lineage → Except Failure α → List LogLine → Prop
  | finished (a : α) : Logs c [] (.ok a) []
  | stopped {l after e announced lines} : c.StopsAt l after e announced →
      List.Forall₂ c.Announces announced lines → Logs c (l :: after) (.error e) lines
  | passed {l after result line lines} : (∃ block, Writes c.inherited l block) →
      c.Announces l line → Logs c after result lines → Logs c (l :: after) result (line :: lines)

end Config

section Walk

variable {c : Config} {path : List Entry} {above : Inherited} {e : Entry}

theorem Reaches.depth_eq (reached : Reaches c.inherited path above) :
    above.state.depth = path.length := by
  induction reached with
  | root => exact c.depth_initialState
  | child _ visited handed ih =>
    obtain ⟨next, -, rfl⟩ := Site.handDown_eq_ok handed
    rw [List.length_append, List.length_singleton, ← ih]
    change _ + 1 = _
    rw [(Entry.visited visited).state]
    rfl

theorem Reaches.length_stack (reached : Reaches c.inherited path above) :
    above.state.stack.length = path.length := by
  rw [reached.stack_eq, List.length_map]
  exact Layer.length_stack _ _

/-- Whether or not they compile, the keys of an entry that is reached are those of its path. -/
theorem Reaches.compiledKeys_eq (reached : Reaches c.inherited path above) (e : Entry) :
    c.compiledKeys (path ++ [e]) =
      (e.resolveKeys above.keys (e.ownOp.getD above.op)).result >>= Phrase.compileAll := by
  have flow := reached.keyFlow
  rw [Config.keyFlow] at flow
  rw [Config.compiledKeys, Config.effectiveKeys, Config.keyFlow, List.foldlM_append, flow]
  change (Prod.fst <$> (e.handKeys (above.keys, above.op) >>= pure)) >>= _ = _
  rw [Entry.handKeys]
  cases (e.resolveKeys above.keys (e.ownOp.getD above.op)).result <;> rfl

end Walk

/-- Lists of keys that a transformation shows are no lines of the log. -/
theorem Keys.Base.log_resolve (base : Keys.Base) (inherited : List Phrase) :
    (base.resolve inherited).log = [] := by
  cases base with
  | replace keys => rfl
  | derive transform =>
    change ((transform inherited).shown.map Event.observed).filterMap Event.logLine? = []
    rw [List.filterMap_map]
    exact List.filterMap_none _

theorem Entry.log_resolveKeys (e : Entry) (inherited : List Phrase) (op : Operator) :
    (e.resolveKeys inherited op).log = [] := by
  unfold resolveKeys
  cases e.base with
  | none => rfl
  | some base => exact (Run.log_bind_lift _ _).trans (base.log_resolve inherited)

theorem Entry.log_visit (e : Entry) (above : Inherited) :
    (e.visit above).log =
      match (e.resolveKeys above.keys (e.ownOp.getD above.op)).result >>= Phrase.compileAll with
      | .ok compiled => (Event.entered (above.path ++ e.name) above.state.depth compiled.length
          (e.strategy.getD above.strategy).kind.name).logLine?.toList
      | .error _ => [] := by
  unfold visit
  cases resolved : (e.resolveKeys above.keys (e.ownOp.getD above.op)).result with
  | error f => rw [Run.log_bind_of_error resolved, e.log_resolveKeys]; rfl
  | ok keys =>
    rw [Run.log_bind_of_ok resolved, e.log_resolveKeys, List.nil_append]
    change _ = match Phrase.compileAll keys with | .ok _ => _ | .error _ => _
    cases Phrase.compileAll keys with
    | error f => rfl
    | ok compiled => rfl

section Visits

variable {c : Config} {path : List Entry} {above : Inherited} {e : Entry}

/-- An entry whose keys cannot be had or compiled is not announced. -/
theorem Reaches.visit_of_error (reached : Reaches c.inherited path above) {f : Failure}
    (failed : (e.visit above).result = .error f) :
    c.compiledKeys (path ++ [e]) = .error f ∧ (e.visit above).log = [] := by
  have keys : c.compiledKeys (path ++ [e]) = .error f := by
    rw [reached.compiledKeys_eq]
    simp only [Entry.visit, Run.result_bind, Run.result_lift, Run.result_tell,
      Run.result_pure] at failed
    rcases bind_eq_error.1 failed with unresolved | ⟨keys, resolved, failed⟩
    · exact bind_eq_error.2 (.inl unresolved)
    · refine bind_eq_error.2 (.inr ⟨keys, resolved, ?_⟩)
      rcases bind_eq_error.1 failed with uncompiled | ⟨_, _, made⟩
      · exact uncompiled
      · cases made
  refine ⟨keys, ?_⟩
  rw [Entry.log_visit, ← reached.compiledKeys_eq, keys]

theorem Reaches.visit_of_ok (reached : Reaches c.inherited path above) {site : Site}
    (visited : (e.visit above).result = .ok site) :
    c.compiledKeys (path ++ [e]) = .ok site.compiled ∧
      ∃ line, (e.visit above).log = [line] ∧ c.Announces ⟨path, e⟩ line := by
  have made := Entry.visited visited
  have keys : c.compiledKeys (path ++ [e]) = .ok site.compiled := by
    rw [reached.compiledKeys_eq]
    exact bind_eq_ok.2 ⟨site.keys, made.keys, made.compiled⟩
  refine ⟨keys, (⟨path, e⟩ : Lineage).announcement site.keys.length site.strategy.kind, ?_, ?_⟩
  · have count : site.keys.length = site.compiled.length := (mapM_eq_ok.1 made.compiled).length_eq
    rw [Entry.log_visit, ← reached.compiledKeys_eq, keys, Lineage.announcement, reached.title_eq,
      reached.depth_eq, count, made.strategy]
    rfl
  · refine ⟨⟨site.keys, reached.effectiveKeys made, ?_⟩, above, reached, reached.depth_eq,
      reached.length_stack⟩
    rw [Lineage.entries, Strategy.passed_concat, ← reached.strategy_eq, made.strategy]

end Visits

/-- More lineages to come do not change where a walk stops. -/
theorem Config.StopsAt.append {c : Config} {l : Lineage} {after announced : List Lineage}
    {e : Failure} (stops : c.StopsAt l after e announced) (more : List Lineage) :
    c.StopsAt l (after ++ more) e announced := by
  cases stops with
  | keys reached failed => exact .keys reached failed
  | records reached visited compiled failed => exact .records reached visited compiled failed
  | handDown reached visited compiled written next child failed =>
    subst next
    exact .handDown reached visited compiled written rfl child failed

namespace Config.Logs

variable {c : Config} {ls ms : List Lineage} {lines : List LogLine}

/-- A walk that cannot go on leaves out the lineages that would come. -/
theorem of_error {e : Failure} (walk : c.Logs ls (.error e : Except Failure α) lines)
    (ms : List Lineage) : c.Logs (ls ++ ms) (.error e : Except Failure β) lines := by
  generalize failed : (.error e : Except Failure α) = result at walk
  induction walk with
  | finished a => cases failed
  | stopped stops each =>
    cases failed
    exact .stopped (stops.append ms) each
  | passed written announces _ ih => exact .passed written announces (ih failed)

/-- A walk that goes on after another one goes on in its log. -/
theorem append {a : α} {result : Except Failure β} {more : List LogLine}
    (first : c.Logs ls (.ok a) lines) (rest : c.Logs ms result more) :
    c.Logs (ls ++ ms) result (lines ++ more) := by
  generalize done : (.ok a : Except Failure α) = result' at first
  induction first with
  | finished => exact rest
  | stopped => cases done
  | passed written announces _ ih => exact .passed written announces (ih done)

theorem bind {r : Run α} {next : α → Run β} (first : c.Logs ls r.result r.log)
    (rest : ∀ a, c.Logs ms (next a).result (next a).log) :
    c.Logs (ls ++ ms) (r >>= next).result (r >>= next).log := by
  cases h : r.result with
  | error e =>
    rw [h] at first
    rw [Run.result_bind_of_error h, Run.log_bind_of_error h]
    exact first.of_error ms
  | ok a =>
    rw [h] at first
    rw [Run.result_bind_of_ok h, Run.log_bind_of_ok h]
    exact first.append (rest a)

theorem of_ok {a : α} (walk : c.Logs ls (.ok a) lines) : List.Forall₂ c.Announces ls lines := by
  generalize done : (.ok a : Except Failure α) = result at walk
  induction walk with
  | finished => exact .nil
  | stopped => cases done
  | passed _ announces _ ih => exact .cons announces (ih done)

theorem exists_stop {e : Failure} (walk : c.Logs ls (.error e : Except Failure α) lines) :
    ∃ front l after announced, ls = front ++ l :: after ∧
      (∀ m ∈ front, ∃ block, Writes c.inherited m block) ∧ c.StopsAt l after e announced ∧
      List.Forall₂ c.Announces (front ++ announced) lines := by
  generalize failed : (.error e : Except Failure α) = result at walk
  induction walk with
  | finished => cases failed
  | stopped stops each =>
    cases failed
    exact ⟨[], _, _, _, rfl, List.forall_mem_nil _, stops, each⟩
  | @passed m _ _ _ _ written announces _ ih =>
    obtain ⟨front, l, after, announced, rfl, before, stops, each⟩ := ih failed
    exact ⟨m :: front, l, after, announced, rfl, List.forall_mem_cons.2 ⟨written, before⟩, stops,
      .cons announces each⟩

theorem map {r : Run α} (f : α → β) (walk : c.Logs ls r.result r.log) :
    c.Logs ls (r >>= fun a => pure (f a)).result (r >>= fun a => pure (f a)).log := by
  rw [← List.append_nil ls]
  exact walk.bind fun a => .finished (f a)

end Config.Logs

namespace Build

mutual

theorem tree_logs {c : Config} {path : List Entry} {above : Inherited}
    (reached : Reaches c.inherited path above) : (t : RoseTree Entry) →
    c.Logs (t.lineages path) (tree above t).result (tree above t).log
  | .node e children => by
    rw [tree, RoseTree.lineages]
    cases visited : (e.visit above).result with
    | error f =>
      obtain ⟨keys, silent⟩ := reached.visit_of_error visited
      rw [Run.result_bind_of_error visited, Run.log_bind_of_error visited, silent]
      exact .stopped (.keys reached keys) .nil
    | ok site =>
      -- from here on the entry is announced, and nothing but its children says more
      obtain ⟨keys, line, announced, announces⟩ := reached.visit_of_ok visited
      rw [Run.result_bind_of_ok visited, Run.log_bind_of_ok visited, announced]
      cases written : site.records with
      | error f => exact .stopped (.records reached visited keys written) (.cons announces .nil)
      | ok own =>
        have wrote : ∃ block, Writes c.inherited ⟨path, e⟩ block :=
          ⟨own, above, site, reached, visited, written⟩
        cases children with
        | nil => exact .passed wrote announces (.finished own)
        | cons child children =>
          cases handed : site.handDown with
          | error f =>
            obtain ⟨a, grandchildren⟩ := child
            exact .stopped (.handDown reached visited keys written rfl rfl handed)
              (.cons announces .nil)
          | ok below =>
            have rest := forest_logs (.child reached visited handed) (child :: children)
            exact .passed wrote announces (rest.map (own ++ ·))

theorem forest_logs {c : Config} {path : List Entry} {above : Inherited}
    (reached : Reaches c.inherited path above) : (ts : List (RoseTree Entry)) →
    c.Logs (RoseTree.forestLineages path ts) (forest above ts).result (forest above ts).log
  | [] => .finished []
  | t :: ts => by
    rw [forest, RoseTree.forestLineages]
    exact (tree_logs reached t).bind fun first => (forest_logs reached ts).map (first ++ ·)

end

end Build

namespace Config

def closing (c : Config) (records : Nat) : LogLine :=
  ⟨.info, "Built " ++ Decimal.natText records ++ " lore entries from " ++
    Decimal.natText c.entries.length ++ " root entries"⟩

theorem length_ordered (c : Config) (all : List Record) :
    (if c.reversed then all.reverse else all).length = all.length := by
  split
  · exact List.length_reverse
  · rfl

theorem log_build (c : Config) :
    c.build.log = (Build.forest c.inherited c.entries).log ++
      match (Build.forest c.inherited c.entries).result with
      | .ok all => [c.closing all.length]
      | .error _ => [] := by
  have recorded : c.records.log = (Build.forest c.inherited c.entries).log :=
    Run.log_bind_lift _ fun all : List Record => .ok (if c.reversed then all.reverse else all)
  cases walked : (Build.forest c.inherited c.entries).result with
  | error e =>
    have failed : c.records.result = .error e := Run.result_bind_of_error walked
    rw [← recorded, List.append_nil]
    exact Run.log_bind_of_error failed
  | ok all =>
    have ordered : c.records.result = .ok (if c.reversed then all.reverse else all) :=
      Run.result_bind_of_ok walked
    have closed : c.build.log = c.records.log ++ [c.closing _] := Run.log_bind_of_ok ordered
    rw [closed, recorded, c.length_ordered]

end Config

/-- The log has a line for each lineage, in order, and at the end one with the number of records and
of root entries. If the build fails, the lines end with the entry that fails, or before it if its
keys are not compiled. Reversing the lorebook changes nothing. -/
theorem log_follows_lineages (c : Config) :
    (∀ reversed, { c with reversed : Config }.build.log = c.build.log) ∧
    match c.build.result with
    | .ok book => ∃ lines, List.Forall₂ c.Announces c.lineages lines ∧
        c.build.log = lines ++ [c.closing book.records.length]
    | .error e => ∃ front l after announced, c.lineages = front ++ l :: after ∧
        (∀ m ∈ front, ∃ block, Writes c.inherited m block) ∧ c.StopsAt l after e announced ∧
        List.Forall₂ c.Announces (front ++ announced) c.build.log := by
  have walk : c.Logs c.lineages _ _ := Build.forest_logs .root c.entries
  have log := c.log_build
  refine ⟨fun reversed => (Config.log_build _).trans log.symm, ?_⟩
  cases built : c.build.result with
  | error e =>
    have walked := Config.build_eq_error.1 built
    rw [walked] at log walk
    rw [log, List.append_nil]
    exact walk.exists_stop
  | ok book =>
    obtain ⟨all, walked, rfl⟩ := Config.build_eq_ok.1 built
    rw [walked] at log walk
    exact ⟨_, walk.of_ok, log.trans (by rw [c.length_ordered])⟩

/-- The second text of an entry below the first root entry is none, so the entries after it are not
built. -/
def haltedBook : Config where
  entries :=
    [.node { name := "Story", keys := [.word "story", .word "tale"], texts := .one "s" }
      [.node { name := "Kid", keys := [.word "kid"], texts := .many [some "k", none] } [],
       .node { name := "Cat", texts := .one "c" } []],
     .node { name := "Town", texts := .one "t" } []]
  strategy := some ⟨.made 0, .depthDelta (.int 1) (.int 1024), {}⟩

theorem log_follows_lineages_halted :
    haltedBook.build.log =
      [⟨.debug, "Building 'Story' at depth 0: 2 keys, strategy DepthDelta"⟩,
       ⟨.debug, "Building 'Story - Kid' at depth 1: 1 keys, strategy DepthDelta"⟩] ∧
    { haltedBook with reversed := true : Config }.build.log = haltedBook.build.log ∧
    ∃ front l after announced, haltedBook.lineages = front ++ l :: after ∧
      (∀ m ∈ front, ∃ block, Writes haltedBook.inherited m block) ∧
      haltedBook.StopsAt l after (.refused [⟨.textExpected, [.name "text"]⟩]) announced ∧
      List.Forall₂ haltedBook.Announces (front ++ announced) haltedBook.build.log := by
  have failed : haltedBook.build.result = .error (.refused [⟨.textExpected, [.name "text"]⟩]) := rfl
  obtain ⟨same, stops⟩ := log_follows_lineages haltedBook
  rw [failed] at stops
  refine ⟨?_, same true, stops⟩
  cbv

end LoreTree
