import LoreTree.Declaration
import LoreTree.Entry
import LoreTree.Lorebook
/-!
Declarations of strategies, entries and whole configurations. Every strategy that is declared gets
an identity of its own; a name refers to one that was declared before.
-/

namespace LoreTree.Declaration

abbrev Making :=
  StateT Nat (Except Failure)

abbrev Named :=
  List (String × Strategy)

def fresh : Making Identity := do
  let n ← get
  set (n + 1)
  return .made n

/-- A delta that is left out or null is unset. -/
def delta (j : Option Json) : Except Failure (Option Value) :=
  optional value j

def strategyConfig : Option Json → Except Failure StrategyConfig
  | none => .ok {}
  | some .null => .ok {}
  | some j => do
    let context ← optional overrides (j.get? "context")
    let entry ← optional overrides (j.get? "entry")
    let priorityDelta ← delta (j.get? "priority_delta")
    let searchDelta ← delta (j.get? "search_delta")
    return { context, entry, priorityDelta, searchDelta }

/-- A delta for when none is set; one level down counts one and 1024 if nothing is declared. -/
def defaultDelta (n : Int) : Option Json → Except Failure Value
  | none => .ok (.int n)
  | some j => value j

def newStrategy (j : Json) : Making Strategy := do
  let config ← strategyConfig (j.get? "config")
  match j.get? "preset", j.get? "kind" with
  | some name, _ =>
    let name ← value name
    Strategy.preset name (← fresh) config
  | none, some (.text "Fixed") => return ⟨← fresh, .fixed, config⟩
  | none, some (.text "DepthDelta") =>
    let priority ← defaultDelta 1 (j.get? "priority_delta")
    let search ← defaultDelta 1024 (j.get? "search_delta")
    return ⟨← fresh, .depthDelta priority search, config⟩
  | _, _ => throw .malformed

def strategy (known : Named) : Json → Making Strategy
  | .text name =>
    match Json.last? known name with
    | some s => return s
    | none => throw .malformed
  | j => newStrategy j

def strategyOf (known : Named) : Option Json → Making (Option Strategy)
  | none => return none
  | some .null => return none
  | some j => some <$> strategy known j

def strategies : Named → List (String × Json) → Making Named
  | known, [] => return known
  | known, (name, j) :: rest => do
    let s ← strategy known j
    strategies (known ++ [(name, s)]) rest

def edit : Json → Except Failure Keys.Edit
  | .array [.text "observe"] => .ok .observe
  | .array [.text "drop", .int n] => .ok (.drop n)
  | .array [.text "take", .int n] => .ok (.take n)
  | .array [.text "reverse"] => .ok .reverse
  | .array [.text "append", j] => .ok (.append (phrase j))
  | .array [.text "prepend", j] => .ok (.prepend (phrase j))
  | .array [.text "alt"] => .ok .alternate
  | .array [.text "lit_strings"] => .ok .exactWords
  | .array [.text "clear"] => .ok .clear
  | _ => .error .malformed

def base (j : Json) : Except Failure Keys.Base :=
  match j.get? "replace", j.get? "derive" with
  | some (.array items), _ => Keys.Base.replace <$> phrases items
  | none, some (.array steps) =>
    (fun edits => .derive (Keys.Edit.runAll edits)) <$> steps.mapM edit
  | _, _ => .error .malformed

mutual

def outline : Json → RoseTree Json
  | .object ms => .node (.object ms) (outlineMembers ms)
  | j => .node j []

def outlineMembers : List (String × Json) → List (RoseTree Json)
  | [] => []
  | ("sub_entries", .array items) :: _ => outlineAll items
  | _ :: rest => outlineMembers rest

def outlineAll : List Json → List (RoseTree Json)
  | [] => []
  | j :: js => outline j :: outlineAll js

end

def entryAlone (known : Named) (j : Json) : Making Entry := do
  match j.get? "signpost" with
  | some (.bool true) => return .signpost (← fresh)
  | _ =>
    let name ←
      match j.get? "name" with
      | some (.text s) => pure s
      | _ => throw .malformed
    let keys ← phrases (← list (j.get? "keys"))
    let text ← optional value (j.get? "text")
    let strategy ← strategyOf known (j.get? "strategy")
    let childOp ← optional operator (j.get? "sub_op")
    let ownOp ← optional operator (j.get? "base_op")
    let base ← optional base (j.get? "base_keys")
    let context ← optional overrides (j.get? "context")
    let entry ← optional overrides (j.get? "entry")
    let texts := Texts.ofValue (text.getD .null)
    return { name, keys, texts, strategy, childOp, ownOp, base, context, entry }

mutual

def entryTree (known : Named) : RoseTree Json → Making (RoseTree Entry)
  | .node j children => do
    let e ← entryAlone known j
    let rest ← entryTrees known children
    return .node e rest

def entryTrees (known : Named) : List (RoseTree Json) → Making (List (RoseTree Entry))
  | [] => return []
  | t :: ts => do
    let first ← entryTree known t
    let rest ← entryTrees known ts
    return first :: rest

end

def settings (j : Json) : Except Failure Bool := do
  accepted (Lorebook.readSettings .author (← members j))

def configOf (j : Json) : Making Config := do
  let known ←
    match j.get? "strategies" with
    | some (.object ms) => strategies [] ms
    | _ => pure []
  let strategy ← strategyOf known (j.get? "strategy")
  let order ← optional settings (j.get? "settings")
  let childOp ← optional operator (j.get? "sub_op")
  let context ← optional overrides (j.get? "context")
  let entry ← optional overrides (j.get? "entry")
  let reversed ← optional value (j.get? "reversed")
  let entries ← entryTrees known (outlineAll (← list (j.get? "entries")))
  return {
    entries
    orderByKeyLocations := order.getD false
    strategy
    childOp := childOp.getD .and
    context
    entry
    reversed := (reversed.getD .null).isTrue }

def config (j : Json) : Except Failure Config :=
  (configOf j).run' 0

end LoreTree.Declaration
