import LoreTree.Settings.Reading
/-!
Strategies: how settings evolve on the way down an entry tree. A fixed strategy gives the same
overrides at every depth; a depth strategy adds a delta to the priority and to the search range at
every level. Strategies are told apart by identity, not by content.
-/

namespace LoreTree

/-- What a strategy works with: overrides of both groups, and deltas that are read only when added. -/
structure StrategyConfig where
  context : Option (Overrides .context) := none
  entry : Option (Overrides .entry) := none
  priorityDelta : Option Value := none
  searchDelta : Option Value := none

/-- A depth strategy carries the deltas that count when neither it nor an ancestor sets one. -/
inductive StrategyKind
  | fixed
  | depthDelta (priority search : Value)

/-- Which strategy this is: the one that is used when none is given, or one that an author made. -/
inductive Identity
  | standard
  | made (n : Nat)
  deriving DecidableEq

structure Strategy where
  identity : Identity
  kind : StrategyKind
  config : StrategyConfig

/-- The settings that an entry inherits, the strategies of its ancestors from the outermost in, and
how many there are. -/
structure State where
  context : Settings .context := .fresh .context
  entry : Settings .entry := .fresh .entry
  stack : List Strategy := []
  depth : Nat := 0

namespace StrategyConfig

/-- More overrides on top; they win. -/
def overlay (c : StrategyConfig) (context : Option (Overrides .context))
    (entry : Option (Overrides .entry)) : StrategyConfig :=
  { c with
    context := Overrides.overlayAny c.context context
    entry := Overrides.overlayAny c.entry entry }

def displayGroup (a : Option (Overrides g)) : String :=
  (a.map Overrides.display).getD Value.null.display

def display (c : StrategyConfig) : String :=
  "StrategyConfig(context=" ++ displayGroup c.context ++ ", entry=" ++ displayGroup c.entry ++
    ", priority_delta=" ++ (c.priorityDelta.getD .null).display ++
    ", search_delta=" ++ (c.searchDelta.getD .null).display ++ ")"

end StrategyConfig

namespace StrategyKind

def name : StrategyKind → String
  | .fixed => "Fixed"
  | .depthDelta .. => "DepthDelta"

def isDepthDelta : StrategyKind → Bool
  | .fixed => false
  | .depthDelta .. => true

end StrategyKind

namespace State

def hasApplied (s : State) (strategy : Strategy) : Bool :=
  s.stack.any (·.identity = strategy.identity)

/-- The same place in the tree, with the settings resolved from a configuration. -/
def settle (s : State) (c : StrategyConfig) : State :=
  { s with context := s.context.mergeAny c.context, entry := s.entry.mergeAny c.entry }

/-- One level further down, below an entry that used `strategy`. -/
def descend (s : State) (strategy : Strategy) : State :=
  { s with stack := s.stack ++ [strategy], depth := s.depth + 1 }

end State

structure Deltas where
  priority : Option Value := none
  search : Option Value := none

/-- Later deltas win, each on its own. -/
def Deltas.overlay (a b : Deltas) : Deltas :=
  ⟨b.priority.or a.priority, b.search.or a.search⟩

def StrategyConfig.deltas (c : StrategyConfig) : Deltas :=
  ⟨c.priorityDelta, c.searchDelta⟩

/-- The deltas that the depth strategies among the ancestors set last. -/
def Deltas.inherited (stack : List Strategy) : Deltas :=
  stack.foldl (fun d s => if s.kind.isDepthDelta then d.overlay s.config.deltas else d) {}

/-- An integer plus a delta: an integer, or a double precision number if the delta is one. -/
def Value.addTo (base : Int) : Value → Except Failure Value
  | .int n => .ok (.int (base + n))
  | .bool b => .ok (.int (base + if b then 1 else 0))
  | .float x =>
    match Binary64.ofInt? base with
    | some b => .ok (.float (b.add x))
    | none => .error .tooLarge
  | _ => .error .mismatch

/-- One setting set to a sum, which has to be a value of the setting. -/
def Overrides.shifted (f : Setting g) (base : Int) (delta : Value) :
    Except Failure (Overrides g) := do
  match f.readAt .author f.name.plain (← delta.addTo base) with
  | .ok v => return .only f v
  | .error fault => throw (.refused [fault])

namespace Strategy

def standard : Strategy :=
  ⟨.standard, .fixed, {}⟩

/-- The configuration for an entry itself. Below an entry that used the same depth strategy the
shifted settings are left to what is inherited. -/
def apply (strategy : Strategy) (s : State) (c : StrategyConfig) : StrategyConfig :=
  match strategy.kind with
  | .fixed => c
  | .depthDelta .. =>
    let deltas := (Deltas.inherited s.stack).overlay c.deltas
    if s.hasApplied strategy then
      { context := c.context.bind (·.without [Setting.budgetPriority.name.plain])
        entry := c.entry.bind (·.without [Setting.searchRange.name.plain])
        priorityDelta := deltas.priority
        searchDelta := deltas.search }
    else { c with priorityDelta := deltas.priority, searchDelta := deltas.search }

/-- The configuration that seeds the children of an entry, given the settings of the entry. -/
def extend (strategy : Strategy) (s : State) (c : StrategyConfig) : Except Failure StrategyConfig :=
  match strategy.kind with
  | .fixed => .ok c
  | .depthDelta priority search => do
    let context ← Overrides.shifted .budgetPriority s.context.budgetPriority
      (c.priorityDelta.getD priority)
    let entry ← Overrides.shifted .searchRange s.entry.searchRange (c.searchDelta.getD search)
    return c.overlay (some context) (some entry)

def display (strategy : Strategy) : String :=
  strategy.kind.name ++ "(" ++ strategy.config.display ++ ")"

end Strategy

end LoreTree
