import LoreTree.Proofs.KeyFlow
import LoreTree.Proofs.LastWrite
/-!
No record is dead: one without keys is always active. Forcing is all that a build does to the
activation by itself, so where every entry on the way has keys the last value that is set counts.
-/

namespace LoreTree

def Config.KeyedAlong (c : Config) (path : List Entry) : Prop :=
  ∀ front, front ≠ [] → front <+: path → c.effectiveKeys front ≠ .ok []

theorem Config.KeyedAlong.front {c : Config} {path : List Entry} {e : Entry}
    (keyed : c.KeyedAlong (path ++ [e])) : c.KeyedAlong path :=
  fun front ne le => keyed front ne (le.trans (List.prefix_append _ _))

section Walk

variable {c : Config} {path : List Entry} {above : Inherited} {e : Entry} {site : Site}

theorem Reaches.keys_ne_nil (reached : Reaches c.inherited path above)
    (visited : Visited e above site) (keyed : c.KeyedAlong (path ++ [e])) : site.keys ≠ [] := by
  intro empty
  have effective := reached.effectiveKeys visited
  rw [empty] at effective
  exact keyed _ (by simp) List.prefix_rfl effective

/-- An entry with keys shows what its configuration says, or else what it inherits. -/
theorem Visited.forceActivation_of_keys (visited : Visited e above site) (keys : site.keys ≠ []) :
    site.state.value .forceActivation =
      (site.config.value .forceActivation).getD (above.state.value .forceActivation) := by
  rw [visited.value_forceActivation, List.isEmpty_eq_false_iff.2 keys, Bool.false_or]

/-- Wherever the walk is below entries with keys, the last write on the path is what is inherited. -/
theorem Reaches.lastSet_activation (reached : Reaches c.inherited path above)
    (keyed : c.KeyedAlong path) :
    lastSet (c.writes path .forceActivation) = some (above.state.value .forceActivation) := by
  induction reached with
  | root => exact c.lastSet_writes_nil .forceActivation
  | child reached visited handed ih =>
    have made := Entry.visited visited
    have shown := made.forceActivation_of_keys (reached.keys_ne_nil made keyed)
    rw [lastSet_writes_shown reached made rfl shown (ih keyed.front),
      value_handDown_shown handed rfl shown]

theorem Visited.keys_eq_nil_iff (visited : Visited e above site) {r : Record}
    (shows : site.Shows r) : r.keys = [] ↔ site.keys = [] := by
  have each := mapM_eq_ok.1 visited.compiled
  rw [shows.keys, List.map_eq_nil_iff, ← List.length_eq_zero_iff, ← each.length_eq,
    List.length_eq_zero_iff]

end Walk

/-- Every record has a key or is active. Where every entry on the way has keys, it shows the last
activation that is set on that way. -/
theorem records_are_live (c : Config) {book : Lorebook} (built : c.build.result = .ok book) :
    (∀ r ∈ book.records, r.keys ≠ [] ∨ r.value .forceActivation = true) ∧
    c.EachRecord book fun l r => c.KeyedAlong l.entries →
      lastSet (c.writes l.entries .forceActivation) = some (r.value .forceActivation) := by
  constructor
  · intro r member
    have live : c.EachRecord book fun _ r => r.keys ≠ [] ∨ r.value .forceActivation = true := by
      refine Config.eachRecord built ?_
      intro l _ above site _ visited r shows
      by_cases empty : r.keys = []
      · right
        rw [shows.value_eq, visited.value_forceActivation, (visited.keys_eq_nil_iff shows).1 empty]
        rfl
      · exact .inl empty
    obtain ⟨-, -, holds⟩ := live.exists_lineage member
    exact holds
  · refine Config.eachRecord built ?_
    intro l _ above site reached visited r shows keyed
    have shown := visited.forceActivation_of_keys (reached.keys_ne_nil visited keyed)
    rw [shows.value_eq]
    exact lastSet_writes_shown reached visited rfl shown (reached.lastSet_activation keyed.front)

/-- An active story, an entry with keys that is not active, and one that drops its keys. -/
def sleepyBook : Config where
  entries :=
    [.node { name := "Story", keys := [.word "story"], texts := .one "s" }
      [.node
        { name := "Kid", keys := [.word "kid"], texts := .one "k"
          entry := some (.only .forceActivation false) } [],
       .node
        { name := "Cat", texts := .one "c", base := some (.replace [])
          entry := some (.only .forceActivation false) } []]]
  entry := some (.only .forceActivation true)

theorem records_are_live_sleepy :
    ∃ book, sleepyBook.build.result = .ok book ∧
      book.records.map (fun r => (r.keys.length, r.value .forceActivation)) =
        [(1, true), (1, false), (0, true)] ∧
      (∀ r ∈ book.records, r.keys ≠ [] ∨ r.value .forceActivation = true) ∧
      sleepyBook.EachRecord book fun l r => sleepyBook.KeyedAlong l.entries →
        lastSet (sleepyBook.writes l.entries .forceActivation) = some (r.value .forceActivation) :=
  ⟨_, rfl, rfl, records_are_live sleepyBook rfl⟩

end LoreTree
