import LoreTree.Proofs.KeyFlow
/-!
How the keys of an entry are composed. They come from its base keys, which are the inherited ones
unless the entry replaces or transforms them, and from its own, by the operator that is set nearest
to it. There are never more of them than there are base keys or own keys.
-/

namespace LoreTree

def Entry.baseKeys (e : Entry) (inherited : List Phrase) : Except Failure (List Phrase) :=
  match e.base with
  | none => .ok inherited
  | some (.replace keys) => .ok keys
  | some (.derive transform) => (transform inherited).result

/-- The operator that the entries of a path set last, from the innermost outwards; the one for
children counts before the own one. -/
def Operator.nearest? (path : List Entry) : Option Operator :=
  path.reverse.findSome? fun a => a.childOp.or a.ownOp

def Config.joiningOp (c : Config) (l : Lineage) : Operator :=
  (l.entry.ownOp.or (Operator.nearest? l.ancestors)).getD c.childOp

namespace Keys

/-- The phrase that stands for some keys: the only one, or the alternation of several in order. -/
inductive Stands : List Phrase → Phrase → Prop
  | only (key : Phrase) : Stands [key] key
  | several {keys : List Phrase} {f : Fragment} :
      1 < keys.length → Phrase.anyOf keys = .ok f → Stands keys (.fragment f)

inductive Composed (op : Operator) : (base own keys : List Phrase) → Prop
  | inherited (base : List Phrase) : Composed op base [] base
  | own (own : List Phrase) : Composed op [] own own
  | joined {base own keys : List Phrase} {all : Phrase} :
      base ≠ [] → own ≠ [] → Stands base all →
      List.Forall₂ (fun k key => ∃ f, (Phrase.expression all op k).compile = .ok f ∧
        key = .fragment f) own keys →
      Composed op base own keys

theorem joined_stands {base : List Phrase} {all : Phrase} (ne : base ≠ [])
    (h : joined base = .ok all) : Stands base all := by
  match base, ne, h with
  | [key], _, h =>
    cases h
    exact .only _
  | first :: second :: others, _, h =>
    obtain ⟨f, compiled, rfl⟩ := map_eq_ok.1 h
    exact .several (by simp) compiled

theorem ofChild_composed {base own keys : List Phrase} {op : Operator}
    (h : ofChild base op own = .ok keys) : Composed op base own keys := by
  unfold ofChild at h
  by_cases noBase : base.isEmpty
  · rw [if_pos noBase] at h
    cases List.isEmpty_iff.1 noBase
    cases h
    exact .own own
  rw [if_neg noBase] at h
  by_cases noOwn : own.isEmpty
  · rw [if_pos noOwn] at h
    cases List.isEmpty_iff.1 noOwn
    cases h
    exact .inherited base
  rw [if_neg noOwn] at h
  obtain ⟨all, stands, h⟩ := bind_eq_ok.1 h
  have base_ne : base ≠ [] := by simpa using noBase
  have own_ne : own ≠ [] := by simpa using noOwn
  refine .joined base_ne own_ne (joined_stands base_ne stands) ((mapM_eq_ok.1 h).imp ?_)
  intro k key made
  obtain ⟨f, compiled, rfl⟩ := map_eq_ok.1 made
  exact ⟨f, compiled, rfl⟩

namespace Composed

variable {op : Operator} {base own keys : List Phrase}

theorem length_eq (h : Composed op base own keys) :
    keys.length = if own = [] then base.length else own.length := by
  cases h with
  | inherited => rw [if_pos rfl]
  | own =>
    split
    · next none_own => rw [none_own]
    · rfl
  | joined _ own_ne _ each => rw [if_neg own_ne, each.length_eq]

theorem eq_nil_iff (h : Composed op base own keys) : keys = [] ↔ base = [] ∧ own = [] := by
  rw [← List.length_eq_zero_iff, h.length_eq]
  by_cases none_own : own = []
  · rw [if_pos none_own, List.length_eq_zero_iff]
    exact ⟨fun none_base => ⟨none_base, none_own⟩, And.left⟩
  · rw [if_neg none_own, List.length_eq_zero_iff]
    exact ⟨fun empty => (none_own empty).elim, And.right⟩

end Composed

end Keys

theorem Entry.composed_resolveKeys {e : Entry} {inherited keys : List Phrase} {op : Operator}
    (h : (e.resolveKeys inherited op).result = .ok keys) :
    ∃ base, e.baseKeys inherited = .ok base ∧ Keys.Composed op base e.keys keys := by
  unfold resolveKeys at h
  unfold baseKeys
  cases asked : e.base with
  | none =>
    rw [asked] at h
    exact ⟨inherited, rfl, Keys.ofChild_composed h⟩
  | some base =>
    rw [asked] at h
    simp only [Run.result_bind, Run.result_lift] at h
    obtain ⟨keys, resolved, h⟩ := bind_eq_ok.1 h
    refine ⟨keys, ?_, Keys.ofChild_composed h⟩
    cases base <;> exact resolved

section Walk

variable {c : Config} {path : List Entry} {above : Inherited} {e : Entry} {site : Site}

theorem Operator.nearest?_concat (path : List Entry) (e : Entry) :
    Operator.nearest? (path ++ [e]) = e.childOp.or (e.ownOp.or (Operator.nearest? path)) := by
  rw [Operator.nearest?, List.reverse_append, List.reverse_singleton, List.singleton_append,
    List.findSome?_cons]
  cases e.childOp <;> cases e.ownOp <;> rfl

/-- Wherever the walk is, the operator that is inherited is the one that is set nearest. -/
theorem Reaches.op_eq (reached : Reaches c.inherited path above) :
    above.op = (Operator.nearest? path).getD c.childOp := by
  induction reached with
  | root => rfl
  | @child path above e site _ _ visited handed ih =>
    obtain ⟨next, -, rfl⟩ := Site.handDown_eq_ok handed
    rw [Operator.nearest?_concat]
    change site.childOp = _
    rw [(Entry.visited visited).childOp, ih, Option.getD_or, Option.getD_or]

theorem Reaches.joiningOp_eq (reached : Reaches c.inherited path above) (e : Entry) :
    e.ownOp.getD above.op = c.joiningOp ⟨path, e⟩ := by
  rw [Config.joiningOp, Option.getD_or, reached.op_eq]

theorem Reaches.composed (reached : Reaches c.inherited path above)
    (visited : Visited e above site) :
    ∃ base, e.baseKeys above.keys = .ok base ∧
      Keys.Composed (c.joiningOp ⟨path, e⟩) base e.keys site.keys := by
  rw [← reached.joiningOp_eq e]
  exact Entry.composed_resolveKeys visited.keys

/-- Along a path without base keys of their own there are keys as soon as an entry has some. -/
theorem visited_keys_eq_nil_iff (reached : Reaches c.inherited path above)
    (visited : Visited e above site) (plain : e.base = none) :
    site.keys = [] ↔ above.keys = [] ∧ e.keys = [] := by
  obtain ⟨base, based, composed⟩ := reached.composed visited
  rw [Entry.baseKeys, plain] at based
  cases based
  exact composed.eq_nil_iff

theorem Reaches.keys_eq_nil_iff (reached : Reaches c.inherited path above)
    (plain : ∀ e ∈ path, e.base = none) : above.keys = [] ↔ ∀ e ∈ path, e.keys = [] := by
  induction reached with
  | root => simp [Config.inherited]
  | @child path above e site _ reached visited handed ih =>
    obtain ⟨next, -, rfl⟩ := Site.handDown_eq_ok handed
    obtain ⟨before, last⟩ := List.forall_mem_append.1 plain
    change site.keys = [] ↔ _
    rw [visited_keys_eq_nil_iff reached (Entry.visited visited) (last e List.mem_cons_self),
      ih before, List.forall_mem_append, List.forall_mem_singleton]

end Walk

/-- The keys that an entry inherits, those that it starts from and those that it ends up with. -/
structure Config.KeysAt (c : Config) (l : Lineage) (inherited base keys : List Phrase) : Prop where
  root : l.ancestors = [] → inherited = []
  handed : c.effectiveKeys l.ancestors = .ok inherited
  based : l.entry.baseKeys inherited = .ok base
  composed : Keys.Composed (c.joiningOp l) base l.entry.keys keys
  effective : c.effectiveKeys l.entries = .ok keys

theorem Reaches.keysAt {c : Config} {l : Lineage} {above : Inherited} {site : Site}
    (reached : Reaches c.inherited l.ancestors above) (visited : Visited l.entry above site) :
    ∃ base, c.KeysAt l above.keys base site.keys := by
  obtain ⟨base, based, composed⟩ := reached.composed visited
  have flow := reached.keyFlow
  refine ⟨base, ?_, reached.effectiveKeys_above, based, composed, reached.effectiveKeys visited⟩
  intro root
  rw [root] at flow
  exact (Prod.mk.inj (Except.ok.inj flow)).1.symm

/-- The keys of every entry are composed of its base keys and its own, as many as there are of one
or the other, and every record shows them compiled. Where nothing on the way replaces or transforms
keys, there are none exactly if no entry on the way has any. -/
theorem records_show_composed_keys (c : Config) {book : Lorebook}
    (built : c.build.result = .ok book) :
    (∀ l ∈ c.lineages, ∃ inherited base keys, c.KeysAt l inherited base keys ∧
      keys.length = (if l.entry.keys = [] then base.length else l.entry.keys.length) ∧
      ((∀ e ∈ l.entries, e.base = none) → (keys = [] ↔ ∀ e ∈ l.entries, e.keys = []))) ∧
    c.EachRecord book fun l r => ∃ keys fragments, c.effectiveKeys l.entries = .ok keys ∧
      Phrase.compileAll keys = .ok fragments ∧ r.keys = fragments.map Fragment.key := by
  constructor
  · intro l member
    obtain ⟨block, above, site, reached, visited, -⟩ := Config.exists_writes built member
    have made := Entry.visited visited
    obtain ⟨base, at_entry⟩ := reached.keysAt made
    refine ⟨above.keys, base, site.keys, at_entry, at_entry.composed.length_eq, ?_⟩
    intro plain
    obtain ⟨before, last⟩ := List.forall_mem_append.1 plain
    rw [visited_keys_eq_nil_iff reached made (last _ List.mem_cons_self),
      reached.keys_eq_nil_iff before, Lineage.entries, List.forall_mem_append,
      List.forall_mem_singleton]
  · refine Config.eachRecord built ?_
    intro l _ above site reached visited r shows
    exact ⟨site.keys, site.compiled, reached.effectiveKeys visited, visited.compiled, shows.keys⟩

/-- Several parent keys, an entry without keys of its own, one that keeps only the first of the
inherited keys, and one that starts anew. -/
def crossedBook : Config where
  entries :=
    [.node { name := "Story", keys := [.word "a", .word "b"], childOp := some .alongside }
      [.node { name := "Kid", keys := [.word "c", .word "d"], ownOp := some .excluding }
        [.node { name := "Toy", texts := .one "t" } []],
       .node
        { name := "Cat", keys := [.word "e"], texts := .one "c"
          base := some (.derive fun keys => ⟨[], .ok (keys.take 1)⟩) } [],
       .node { name := "Town", keys := [.word "f"], texts := .one "w", base := some (.replace []) }
        []]]

theorem records_show_composed_keys_crossed :
    ∃ book, crossedBook.build.result = .ok book ∧
      book.records.map (·.keys.length) = [2, 1, 1] ∧
      (∀ l ∈ crossedBook.lineages, ∃ inherited base keys,
        crossedBook.KeysAt l inherited base keys ∧
        keys.length = (if l.entry.keys = [] then base.length else l.entry.keys.length) ∧
        ((∀ e ∈ l.entries, e.base = none) → (keys = [] ↔ ∀ e ∈ l.entries, e.keys = []))) ∧
      crossedBook.EachRecord book fun l r => ∃ keys fragments,
        crossedBook.effectiveKeys l.entries = .ok keys ∧
        Phrase.compileAll keys = .ok fragments ∧ r.keys = fragments.map Fragment.key :=
  ⟨_, rfl, rfl, records_show_composed_keys crossedBook rfl⟩

end LoreTree
