import LoreTree.Proofs.Walk
/-!
Keys on their way through the walk. They depend on nothing but the keys and operators of the entries
on a path, so they can be followed without settings, strategies and records.
-/

namespace LoreTree

def Entry.handKeys (e : Entry) (above : List Phrase × Operator) :
    Except Failure (List Phrase × Operator) := do
  let op := e.ownOp.getD above.2
  let keys ← (e.resolveKeys above.1 op).result
  return (keys, e.childOp.getD op)

/-- The keys of the last entry of a path, with the operator for its children. -/
def Config.keyFlow (c : Config) (path : List Entry) : Except Failure (List Phrase × Operator) :=
  path.foldlM (fun above e => e.handKeys above) ([], c.childOp)

def Config.effectiveKeys (c : Config) (path : List Entry) : Except Failure (List Phrase) :=
  Prod.fst <$> c.keyFlow path

section Walk

variable {c : Config} {path : List Entry} {above : Inherited} {e : Entry} {site : Site}

theorem keyFlow_concat (flow : c.keyFlow path = .ok (above.keys, above.op))
    (visited : Visited e above site) :
    c.keyFlow (path ++ [e]) = .ok (site.keys, site.childOp) := by
  rw [Config.keyFlow] at flow ⊢
  rw [List.foldlM_append, flow]
  refine bind_eq_ok.2 ⟨_, rfl, ?_⟩
  change (e.handKeys (above.keys, above.op) >>= pure) = _
  rw [Entry.handKeys, visited.keys, visited.childOp]
  rfl

/-- Wherever the walk is, the keys and the operator that are inherited are those of the path. -/
theorem Reaches.keyFlow (reached : Reaches c.inherited path above) :
    c.keyFlow path = .ok (above.keys, above.op) := by
  induction reached with
  | root => rfl
  | child _ visited handed ih =>
    have made := Entry.visited visited
    obtain ⟨next, -, rfl⟩ := Site.handDown_eq_ok handed
    exact keyFlow_concat ih made

theorem Reaches.effectiveKeys_above (reached : Reaches c.inherited path above) :
    c.effectiveKeys path = .ok above.keys := by
  rw [Config.effectiveKeys, reached.keyFlow]
  rfl

theorem Reaches.effectiveKeys (reached : Reaches c.inherited path above)
    (visited : Visited e above site) : c.effectiveKeys (path ++ [e]) = .ok site.keys := by
  rw [Config.effectiveKeys, keyFlow_concat reached.keyFlow visited]
  rfl

end Walk

end LoreTree
