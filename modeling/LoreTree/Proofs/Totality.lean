import LoreTree.Proofs.Revalidation
import LoreTree.Proofs.Shift.Walk
/-!
Configurations that always build. Keys that can be compiled, operators that join, texts that are
texts and integer deltas are all that a build needs, and the walk keeps what it needs: whatever is
handed down can be compiled, joined and shifted again.
-/

namespace LoreTree

namespace Phrase

/-- A keyword, a pattern, a fragment, or an expression of such phrases whose operator joins two. -/
inductive IsWellFormed : Phrase → Prop
  | word (text : String) : IsWellFormed (.word text)
  | native (source : String) : IsWellFormed (.native source)
  | fragment (f : Fragment) : IsWellFormed (.fragment f)
  | expression {left right : Phrase} {op : Operator} : IsWellFormed left → op ≠ .exact →
      IsWellFormed right → IsWellFormed (.expression left op right)

end Phrase

theorem Operator.exists_combine? {op : Operator} (joins : op ≠ .exact) (left right : Fragment) :
    ∃ f, op.combine? left right = some f := by
  cases op with
  | alternation | relation | near | beyond => exact ⟨_, rfl⟩
  | exact => exact (joins rfl).elim

namespace Phrase

theorem IsWellFormed.exists_compile {p : Phrase} (fit : p.IsWellFormed) :
    ∃ f, p.compile = .ok f := by
  induction fit with
  | word | native | fragment => exact ⟨_, rfl⟩
  | expression _ joins _ ihl ihr =>
    obtain ⟨l, hl⟩ := ihl
    obtain ⟨r, hr⟩ := ihr
    obtain ⟨f, made⟩ := Operator.exists_combine? joins l r
    exact ⟨f, compile_expression_eq_ok.2 ⟨l, r, hl, hr, made⟩⟩

theorem exists_compileAll {keys : List Phrase} (fit : ∀ k ∈ keys, k.IsWellFormed) :
    ∃ fs, compileAll keys = .ok fs :=
  exists_mapM_eq_ok fun k member => (fit k member).exists_compile

end Phrase

namespace Keys

/-- What an entry makes of inherited keys: well-formed ones are replaced by well-formed ones, and a
transformation does not fail on them. -/
inductive Base.IsWellFormed : Base → Prop
  | replace {keys : List Phrase} : (∀ k ∈ keys, k.IsWellFormed) → IsWellFormed (.replace keys)
  | derive {transform : List Phrase → Derived} :
      (∀ keys, (∀ k ∈ keys, k.IsWellFormed) →
        ∃ result, (transform keys).result = .ok result ∧ ∀ k ∈ result, k.IsWellFormed) →
      IsWellFormed (.derive transform)

theorem exists_joined {keys : List Phrase} (fit : ∀ k ∈ keys, k.IsWellFormed) :
    ∃ all, joined keys = .ok all ∧ all.IsWellFormed := by
  unfold joined
  split
  · next key => exact ⟨key, rfl, fit key List.mem_cons_self⟩
  · obtain ⟨fs, compiled⟩ := Phrase.exists_compileAll fit
    refine ⟨.fragment (.alternation fs), ?_, .fragment _⟩
    rw [Phrase.anyOf, compiled]
    rfl

theorem exists_ofChild {base own : List Phrase} {op : Operator}
    (fitBase : ∀ k ∈ base, k.IsWellFormed) (joins : op ≠ .exact)
    (fitOwn : ∀ k ∈ own, k.IsWellFormed) :
    ∃ keys, ofChild base op own = .ok keys ∧ ∀ k ∈ keys, k.IsWellFormed := by
  unfold ofChild
  split
  · exact ⟨own, rfl, fitOwn⟩
  split
  · exact ⟨base, rfl, fitBase⟩
  obtain ⟨all, stands, fitAll⟩ := exists_joined fitBase
  have each : ∀ key ∈ own,
      ∃ p, Phrase.fragment <$> (Phrase.expression all op key).compile = .ok p := by
    intro key member
    have fit : (Phrase.expression all op key).IsWellFormed :=
      .expression fitAll joins (fitOwn key member)
    obtain ⟨f, compiled⟩ := fit.exists_compile
    exact ⟨.fragment f, map_eq_ok.2 ⟨f, compiled, rfl⟩⟩
  obtain ⟨keys, made⟩ := exists_mapM_eq_ok each
  refine ⟨keys, bind_eq_ok.2 ⟨all, stands, made⟩, fun k member => ?_⟩
  -- joined keys are fragments, whatever was joined
  obtain ⟨i, hi, rfl⟩ := List.mem_iff_getElem.1 member
  have fragments := mapM_eq_ok.1 made
  obtain ⟨f, -, same⟩ := map_eq_ok.1 (fragments.get (fragments.length_eq ▸ hi) hi)
  change Phrase.fragment f = keys[i] at same
  rw [← same]
  exact .fragment f

end Keys

inductive Texts.AreStrings : Texts → Prop
  | absent : AreStrings .absent
  | one (text : String) : AreStrings (.one text)
  | many (texts : List String) : AreStrings (.many (texts.map some))

theorem Texts.AreStrings.exists_items {t : Texts} (strings : t.AreStrings) :
    ∃ texts : List String, t.items = .ok (texts.map some) := by
  cases strings with
  | absent => exact ⟨[], rfl⟩
  | one text => exact ⟨[text], rfl⟩
  | many texts => exact ⟨texts, rfl⟩

structure Entry.IsWellFormed (e : Entry) : Prop where
  keys : ∀ k ∈ e.keys, k.IsWellFormed
  base : ∀ b ∈ e.base, b.IsWellFormed
  ownOp : ∀ op ∈ e.ownOp, op ≠ .exact
  childOp : ∀ op ∈ e.childOp, op ≠ .exact
  texts : e.texts.AreStrings
  strategy : ∀ s ∈ e.strategy, s.hasIntegerDeltas = true

structure Config.IsWellFormed (c : Config) : Prop where
  entries : ∀ l ∈ c.lineages, l.entry.IsWellFormed
  childOp : c.childOp ≠ .exact
  strategy : ∀ s ∈ c.strategy, s.hasIntegerDeltas = true

/-- What well-formed entries can work with when it is handed down to them. -/
structure Inherited.IsWellFormed (above : Inherited) : Prop where
  keys : ∀ k ∈ above.keys, k.IsWellFormed
  op : above.op ≠ .exact
  strategy : above.strategy.hasIntegerDeltas = true
  stack : ∀ s ∈ above.state.stack, s.hasIntegerDeltas = true

theorem Option.getD_of_forall {P : α → Prop} {o : Option α} {a : α} (given : ∀ x ∈ o, P x)
    (default : P a) : P (o.getD a) := by
  cases o with
  | none => exact default
  | some x => exact given x rfl

section Step

variable {above : Inherited} {e : Entry} {site : Site}

theorem Entry.exists_resolveKeys (fit : e.IsWellFormed) (ready : above.IsWellFormed) :
    ∃ keys, (e.resolveKeys above.keys (e.ownOp.getD above.op)).result = .ok keys ∧
      ∀ k ∈ keys, k.IsWellFormed := by
  have joins : e.ownOp.getD above.op ≠ .exact := Option.getD_of_forall fit.ownOp ready.op
  unfold resolveKeys
  cases asked : e.base with
  | none => exact Keys.exists_ofChild ready.keys joins fit.keys
  | some b =>
    simp only [Run.result_bind, Run.result_lift]
    have resolved : ∃ base, (b.resolve above.keys).result = .ok base ∧
        ∀ k ∈ base, k.IsWellFormed := by
      cases fit.base b asked with
      | replace fitKeys => exact ⟨_, rfl, fitKeys⟩
      | derive total => exact total above.keys ready.keys
    obtain ⟨base, given, fitBase⟩ := resolved
    obtain ⟨keys, made, fitKeys⟩ := Keys.exists_ofChild fitBase joins fit.keys
    exact ⟨keys, bind_eq_ok.2 ⟨base, given, made⟩, fitKeys⟩

theorem Entry.exists_visit (fit : e.IsWellFormed) (ready : above.IsWellFormed) :
    ∃ site, (e.visit above).result = .ok site ∧ ∀ k ∈ site.keys, k.IsWellFormed := by
  obtain ⟨keys, resolved, fitKeys⟩ := Entry.exists_resolveKeys fit ready
  obtain ⟨compiled, made⟩ := Phrase.exists_compileAll fitKeys
  simp only [visit, Run.result_bind, Run.result_lift, Run.result_tell, Run.result_pure, resolved]
  exact ⟨_, bind_eq_ok.2 ⟨keys, rfl, bind_eq_ok.2 ⟨compiled, made, rfl⟩⟩, fitKeys⟩

theorem Site.exists_records (strings : site.texts.AreStrings) :
    ∃ block, site.records = .ok block := by
  obtain ⟨texts, given⟩ := strings.exists_items
  have each : ∀ item ∈ (texts.map some).zipIdx,
      ∃ r, site.record (texts.map some).length item.2 item.1 = .ok r := by
    rintro ⟨item, index⟩ member
    obtain ⟨text, -, rfl⟩ := List.mem_map.1 (List.fst_mem_of_mem_zipIdx member)
    exact ⟨_, rfl⟩
  obtain ⟨block, made⟩ := exists_mapM_eq_ok each
  exact ⟨block, bind_eq_ok.2 ⟨_, given, made⟩⟩

theorem Visited.exists_extend (visited : Visited e above site) (ready : above.IsWellFormed)
    (whole : site.strategy.hasIntegerDeltas = true) :
    ∃ next, site.strategy.extend site.state site.config = .ok next := by
  refine Strategy.exists_extend site.state fun depth q => ?_
  rw [visited.get_deltas depth]
  exact Strategy.isSome_integer_delta whole ready.stack q

theorem Entry.exists_handDown (fit : e.IsWellFormed) (ready : above.IsWellFormed)
    (visited : (e.visit above).result = .ok site) :
    ∃ below, site.handDown = .ok below ∧ below.IsWellFormed := by
  have made := Entry.visited visited
  have fitKeys : ∀ k ∈ site.keys, k.IsWellFormed := by
    obtain ⟨same, visited', fitKeys⟩ := Entry.exists_visit fit ready
    cases visited.symm.trans visited'
    exact fitKeys
  have joins : site.childOp ≠ .exact := by
    rw [made.childOp]
    exact Option.getD_of_forall fit.childOp (Option.getD_of_forall fit.ownOp ready.op)
  have whole : site.strategy.hasIntegerDeltas = true := by
    rw [made.strategy]
    exact Option.getD_of_forall (P := fun s : Strategy => s.hasIntegerDeltas = true) fit.strategy
      ready.strategy
  obtain ⟨next, extended⟩ := made.exists_extend ready whole
  refine ⟨_, bind_eq_ok.2 ⟨next, extended, rfl⟩, fitKeys, joins, whole, ?_⟩
  have stack : site.state.stack = above.state.stack := by
    rw [made.state]
    rfl
  change ∀ s ∈ site.state.stack ++ [site.strategy], _
  rw [stack, List.forall_mem_append, List.forall_mem_singleton]
  exact ⟨ready.stack, whole⟩

end Step

namespace Build

mutual

theorem exists_tree {above : Inherited} (ready : above.IsWellFormed) {path : List Entry} :
    (t : RoseTree Entry) → (∀ l ∈ t.lineages path, l.entry.IsWellFormed) →
      ∃ rs, (tree above t).result = .ok rs
  | .node e children, fit => by
    rw [RoseTree.lineages, List.forall_mem_cons] at fit
    obtain ⟨fitEntry, fitChildren⟩ := fit
    obtain ⟨site, visited, -⟩ := Entry.exists_visit fitEntry ready
    have strings : site.texts.AreStrings := (Entry.visited visited).texts ▸ fitEntry.texts
    obtain ⟨own, written⟩ := Site.exists_records strings
    obtain ⟨below, handed, readyBelow⟩ := Entry.exists_handDown fitEntry ready visited
    obtain ⟨rest, walked⟩ := exists_forest readyBelow children fitChildren
    simp only [tree, Run.result_bind, Run.result_lift, visited]
    cases children with
    | nil => exact ⟨own, bind_eq_ok.2 ⟨site, rfl, bind_eq_ok.2 ⟨own, written, rfl⟩⟩⟩
    | cons child children =>
      refine ⟨own ++ rest, bind_eq_ok.2 ⟨site, rfl, bind_eq_ok.2 ⟨own, written, ?_⟩⟩⟩
      simp only [List.isEmpty_cons, Bool.false_eq_true, if_false, Run.result_bind,
        Run.result_lift, Run.result_pure]
      exact bind_eq_ok.2 ⟨below, handed, bind_eq_ok.2 ⟨rest, walked, rfl⟩⟩

theorem exists_forest {above : Inherited} (ready : above.IsWellFormed) {path : List Entry} :
    (ts : List (RoseTree Entry)) → (∀ l ∈ RoseTree.forestLineages path ts, l.entry.IsWellFormed) →
      ∃ rs, (forest above ts).result = .ok rs
  | [], _ => ⟨[], rfl⟩
  | t :: ts, fit => by
    rw [RoseTree.forestLineages, List.forall_mem_append] at fit
    obtain ⟨first, hfirst⟩ := exists_tree ready t fit.1
    obtain ⟨others, hothers⟩ := exists_forest ready ts fit.2
    refine ⟨first ++ others, ?_⟩
    simp only [forest, Run.result_bind, Run.result_pure, hfirst, hothers]
    rfl

end

end Build

section Walk

variable {c : Config} {path : List Entry} {above : Inherited}

theorem Config.IsWellFormed.inherited (fit : c.IsWellFormed) : c.inherited.IsWellFormed where
  keys := fun _ none => nomatch none
  op := fit.childOp
  strategy := Option.getD_of_forall (P := fun s : Strategy => s.hasIntegerDeltas = true)
    fit.strategy rfl
  stack := by
    have here : Reaches c.inherited [] c.inherited := .root
    rw [here.stack_eq]
    exact fun _ none => nomatch none

/-- Wherever the walk is, well-formed entries can go on. -/
theorem Reaches.isWellFormed (reached : Reaches c.inherited path above) (fit : c.IsWellFormed)
    (entries : ∀ e ∈ path, e.IsWellFormed) : above.IsWellFormed := by
  induction reached with
  | root => exact fit.inherited
  | @child path above e site below _ visited handed ih =>
    obtain ⟨before, last⟩ := List.forall_mem_append.1 entries
    obtain ⟨below', handed', ready⟩ :=
      Entry.exists_handDown (last e List.mem_cons_self) (ih before) visited
    cases handed.symm.trans handed'
    exact ready

theorem Config.IsWellFormed.of_mem_entries (fit : c.IsWellFormed) {l : Lineage}
    (member : l ∈ c.lineages) : ∀ e ∈ l.entries, e.IsWellFormed := by
  intro e he
  obtain ⟨m, hm, rfl⟩ := Config.mem_lineages_entries member he
  exact fit.entries m hm

end Walk

/-- A well-formed configuration builds: every entry is visited and could hand down to children, and
whatever is validated again on the way is accepted as it is. -/
theorem well_formed_config_builds (c : Config) (fit : c.IsWellFormed) :
    (∃ book, c.build.result = .ok book ∧ ∀ r ∈ book.records, Record.read r.arguments = .ok r ∧
      ∀ origin, Settings.read origin r.arguments = .ok r.entry) ∧
    (∀ l ∈ c.lineages, ∃ above site below, Reaches c.inherited l.ancestors above ∧
      (l.entry.visit above).result = .ok site ∧ site.handDown = .ok below) ∧
    (∀ g (a b : Overrides g), Overrides.read (a.dump ++ b.dump) = .ok (a.overlay b)) ∧
    ∀ g (a : Overrides g) names, Overrides.read (a.drop names).dump = .ok (a.drop names) := by
  obtain ⟨all, walked⟩ := Build.exists_forest fit.inherited c.entries fit.entries
  have built := Config.build_eq_ok.2 ⟨all, walked, rfl⟩
  refine ⟨⟨_, built, fun r _ => ⟨r.read_arguments, r.read_entry⟩⟩, ?_,
    fun _ => Overrides.read_dump_append, fun _ a names => (a.drop names).read_dump⟩
  intro l member
  obtain ⟨block, above, site, reached, visited, -⟩ := Config.exists_writes built member
  obtain ⟨before, last⟩ := List.forall_mem_append.1 (fit.of_mem_entries member)
  have ready := reached.isWellFormed fit before
  obtain ⟨below, handed, -⟩ := Entry.exists_handDown (last _ List.mem_cons_self) ready visited
  exact ⟨above, site, below, reached, visited, handed⟩

def shiftingStrategy : Strategy :=
  ⟨.made 1, .depthDelta (.int 1) (.int 1024),
    { context := some (.only .budgetPriority (500 : Int)), searchDelta := some (.int (-3)) }⟩

/-- Expressions, a distance, keys that are transformed and replaced, and a depth strategy that comes
back below a fixed one. -/
def mixedBook : Config where
  entries :=
    [.node
      { name := "Story", keys := [.word "(a", .expression (.word "b") .near (.native "c+")]
        texts := .many ["s", "t"], strategy := some shiftingStrategy
        childOp := some (.within 2 5 true) }
      [.node
        { name := "Kid", keys := [.word "d"], texts := .one "k", strategy := some .standard
          base := some (.derive fun keys => ⟨[], .ok (.word "e" :: keys)⟩) }
        [.node
          { name := "Toy", keys := [.word "f"], texts := .one "t", strategy := some shiftingStrategy
            ownOp := some .beyond, entry := some (.only .enabled false) } []],
       .node { name := "Town", base := some (.replace []) } []]]
  strategy := some shiftingStrategy
  reversed := true

theorem mixedBook_isWellFormed : mixedBook.IsWellFormed where
  entries := by
    simp only [mixedBook, Config.lineages, RoseTree.lineages, RoseTree.forestLineages,
      List.forall_mem_cons, List.append_nil, List.cons_append, List.nil_append]
    refine ⟨?_, ?_, ?_, ?_, List.forall_mem_nil _⟩
    · refine ⟨?_, nofun, nofun, ?_, .many ["s", "t"], ?_⟩
      · simp only [List.forall_mem_cons]
        exact ⟨.word _, .expression (.word _) nofun (.native _), nofun⟩
      · rintro _ ⟨⟩
        exact nofun
      · rintro _ ⟨⟩
        rfl
    · refine ⟨?_, ?_, nofun, nofun, .one "k", ?_⟩
      · simp only [List.forall_mem_cons]
        exact ⟨.word _, nofun⟩
      · rintro _ ⟨⟩
        refine .derive fun keys fit => ⟨_, rfl, ?_⟩
        exact List.forall_mem_cons.2 ⟨.word _, fit⟩
      · rintro _ ⟨⟩
        rfl
    · refine ⟨?_, nofun, ?_, nofun, .one "t", ?_⟩
      · simp only [List.forall_mem_cons]
        exact ⟨.word _, nofun⟩
      · rintro _ ⟨⟩
        exact nofun
      · rintro _ ⟨⟩
        rfl
    · refine ⟨nofun, ?_, nofun, nofun, .absent, nofun⟩
      rintro _ ⟨⟩
      exact .replace nofun
  childOp := nofun
  strategy := by
    rintro _ ⟨⟩
    rfl

theorem well_formed_config_builds_mixed :
    mixedBook.IsWellFormed ∧
    (∃ book, mixedBook.build.result = .ok book ∧
      ∀ r ∈ book.records, Record.read r.arguments = .ok r ∧
        ∀ origin, Settings.read origin r.arguments = .ok r.entry) ∧
    ∀ l ∈ mixedBook.lineages, ∃ above site below, Reaches mixedBook.inherited l.ancestors above ∧
      (l.entry.visit above).result = .ok site ∧ site.handDown = .ok below := by
  obtain ⟨built, walked, -⟩ := well_formed_config_builds mixedBook mixedBook_isWellFormed
  exact ⟨mixedBook_isWellFormed, built, walked⟩

end LoreTree
