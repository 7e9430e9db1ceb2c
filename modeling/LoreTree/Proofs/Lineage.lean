import LoreTree.Build
/-!
Where an entry stands in its tree. The lineage of an entry is the entry with all its ancestors; a
configuration lists its lineages in pre-order. Along a lineage every entry uses some strategy.
-/

namespace LoreTree

/-- An entry with its ancestors, the root entry first. -/
structure Lineage where
  ancestors : List Entry
  entry : Entry

def Lineage.entries (l : Lineage) : List Entry :=
  l.ancestors ++ [l.entry]

namespace RoseTree

mutual

def lineages (above : List Entry) : RoseTree Entry → List Lineage
  | .node e children => ⟨above, e⟩ :: forestLineages (above ++ [e]) children

def forestLineages (above : List Entry) : List (RoseTree Entry) → List Lineage
  | [] => []
  | t :: ts => t.lineages above ++ forestLineages above ts

end

mutual

theorem mem_lineages_entries {above : List Entry} {l : Lineage} {e : Entry} :
    (t : RoseTree Entry) → l ∈ t.lineages above → e ∈ l.entries →
      e ∈ above ∨ ∃ m ∈ t.lineages above, m.entry = e
  | .node a children, hl, he => by
    rw [lineages] at hl ⊢
    rcases List.mem_cons.1 hl with rfl | hl
    · rcases List.mem_append.1 he with he | he
      · exact .inl he
      · exact .inr ⟨_, List.mem_cons_self, (List.mem_singleton.1 he).symm⟩
    · rcases mem_forestLineages_entries children hl he with he | ⟨m, hm, rfl⟩
      · rcases List.mem_append.1 he with he | he
        · exact .inl he
        · exact .inr ⟨_, List.mem_cons_self, (List.mem_singleton.1 he).symm⟩
      · exact .inr ⟨m, List.mem_cons_of_mem _ hm, rfl⟩

theorem mem_forestLineages_entries {above : List Entry} {l : Lineage} {e : Entry} :
    (ts : List (RoseTree Entry)) → l ∈ forestLineages above ts → e ∈ l.entries →
      e ∈ above ∨ ∃ m ∈ forestLineages above ts, m.entry = e
  | [], hl, _ => by simp [forestLineages] at hl
  | t :: ts, hl, he => by
    rw [forestLineages] at hl ⊢
    rcases List.mem_append.1 hl with hl | hl
    · exact (mem_lineages_entries t hl he).imp_right fun ⟨m, hm, h⟩ =>
        ⟨m, List.mem_append_left _ hm, h⟩
    · exact (mem_forestLineages_entries ts hl he).imp_right fun ⟨m, hm, h⟩ =>
        ⟨m, List.mem_append_right _ hm, h⟩

end

end RoseTree

def Config.lineages (c : Config) : List Lineage :=
  RoseTree.forestLineages [] c.entries

theorem Config.mem_lineages_entries {c : Config} {l : Lineage} {e : Entry}
    (hl : l ∈ c.lineages) (he : e ∈ l.entries) : ∃ m ∈ c.lineages, m.entry = e :=
  (RoseTree.mem_forestLineages_entries c.entries hl he).resolve_left List.not_mem_nil

/-- An entry of a lineage with the strategy that it uses. -/
structure Layer where
  entry : Entry
  strategy : Strategy

/-- Each entry uses its own strategy, or else that of the entry above it. -/
def Layer.stack (inherited : Strategy) : List Entry → List Layer
  | [] => []
  | e :: rest =>
    let strategy := e.strategy.getD inherited
    ⟨e, strategy⟩ :: Layer.stack strategy rest

/-- The strategy that the last of some entries passes on. -/
def Strategy.passed (inherited : Strategy) (entries : List Entry) : Strategy :=
  entries.foldl (fun s e => e.strategy.getD s) inherited

theorem Strategy.passed_concat (inherited : Strategy) (path : List Entry) (e : Entry) :
    inherited.passed (path ++ [e]) = e.strategy.getD (inherited.passed path) := by
  rw [Strategy.passed, List.foldl_append]
  rfl

theorem Layer.stack_concat (inherited : Strategy) (path : List Entry) (e : Entry) :
    Layer.stack inherited (path ++ [e]) =
      Layer.stack inherited path ++ [⟨e, e.strategy.getD (inherited.passed path)⟩] := by
  induction path generalizing inherited with
  | nil => rfl
  | cons a path ih => exact congrArg _ (ih _)

theorem Layer.length_stack (inherited : Strategy) (path : List Entry) :
    (Layer.stack inherited path).length = path.length := by
  induction path generalizing inherited with
  | nil => rfl
  | cons a path ih => exact congrArg Nat.succ (ih _)

def Config.layers (c : Config) (path : List Entry) : List Layer :=
  Layer.stack c.inherited.strategy path

end LoreTree
