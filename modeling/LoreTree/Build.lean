import LoreTree.Entry
import LoreTree.Lorebook
/-!
Building a lorebook: a walk over the entry trees, parents before children. Every entry takes keys,
settings, operator and strategy from what its parent hands down, gives one record for each of its
texts, and hands down to its own children.
-/

namespace LoreTree

structure Inherited where
  state : State
  keys : List Phrase := []
  op : Operator
  strategy : Strategy
  /-- The names of the ancestors, each with the dash that follows it. -/
  path : String := ""

structure Site where
  name : String
  texts : Texts
  keys : List Phrase
  compiled : List Fragment
  childOp : Operator
  strategy : Strategy
  config : StrategyConfig
  state : State

namespace Config

/-- The state of the root entries: a strategy for the whole lorebook is applied once to the settings
of a new entry, and the overrides for the whole lorebook come after it. -/
def initialState (c : Config) : State :=
  let s : State := {}
  let s :=
    match c.strategy with
    | none => s
    | some strategy => s.settle (strategy.apply s strategy.config)
  s.settle { context := c.context, entry := c.entry }

def inherited (c : Config) : Inherited where
  state := c.initialState
  op := c.childOp
  strategy := c.strategy.getD .standard

end Config

namespace Entry

def resolveKeys (e : Entry) (inherited : List Phrase) (op : Operator) : Run (List Phrase) := do
  let base ←
    match e.base with
    | none => pure inherited
    | some base => base.resolve inherited
  Keys.ofChild base op e.keys

/-- An entry without keys could never become active by itself. -/
def forced (keys : List Phrase) (c : Settings .entry) : Settings .entry :=
  if keys.isEmpty then c.merge (.only .forceActivation true) else c

def visit (e : Entry) (above : Inherited) : Run Site := do
  let strategy := e.strategy.getD above.strategy
  let op := e.ownOp.getD above.op
  let name := above.path ++ e.name
  let keys ← e.resolveKeys above.keys op
  let compiled ← Phrase.compileAll keys
  Run.tell (.entered name above.state.depth compiled.length strategy.kind.name)
  let config := (strategy.apply above.state strategy.config).overlay e.context e.entry
  let state := above.state.settle config
  let state := { state with entry := forced keys state.entry }
  return { name, texts := e.texts, keys, compiled, childOp := e.childOp.getD op, strategy, config, state }

end Entry

namespace Site

/-- The name of the record for a text: texts are counted if there is more than one. -/
def recordName (s : Site) (count index : Nat) : String :=
  if count = 1 then s.name
  else s.name ++ " (" ++ Decimal.natText (index + 1) ++ " of " ++ Decimal.natText count ++ ")"

def record (s : Site) (count index : Nat) : Option String → Except Failure Record
  | some text =>
    .ok {
      displayName := s.recordName count index
      text
      keys := s.compiled.map Fragment.key
      context := s.state.context
      entry := s.state.entry }
  | none => .error (.refused [⟨.textExpected, [.name Lorebook.textName.plain]⟩])

def records (s : Site) : Except Failure (List Record) := do
  let texts ← s.texts.items
  texts.zipIdx.mapM fun (text, index) => s.record texts.length index text

def handDown (s : Site) : Except Failure Inherited := do
  let next ← s.strategy.extend s.state s.config
  return {
    state := (s.state.settle next).descend s.strategy
    keys := s.keys
    op := s.childOp
    strategy := s.strategy
    path := s.name ++ " - " }

end Site

namespace Build

mutual

def tree (above : Inherited) : RoseTree Entry → Run (List Record)
  | .node e children => do
    let site ← e.visit above
    let own ← site.records
    if children.isEmpty then return own
    let below ← site.handDown
    let rest ← forest below children
    return own ++ rest

def forest (above : Inherited) : List (RoseTree Entry) → Run (List Record)
  | [] => return []
  | t :: ts => do
    let first ← tree above t
    let others ← forest above ts
    return first ++ others

end

end Build

namespace Config

def records (c : Config) : Run (List Record) := do
  let all ← Build.forest c.inherited c.entries
  return if c.reversed then all.reverse else all

def build (c : Config) : Run Lorebook := do
  let records ← c.records
  Run.tell (.finished records.length c.entries.length)
  return { orderByKeyLocations := c.orderByKeyLocations, records }

end Config

inductive Level
  | debug
  | info
  | error
  deriving DecidableEq

def Level.name : Level → String
  | .debug => "DEBUG"
  | .info => "INFO"
  | .error => "ERROR"

structure LogLine where
  level : Level
  message : String
  deriving DecidableEq

def Event.logLine? : Event → Option LogLine
  | .observed _ => none
  | .entered name depth keys strategy =>
    some ⟨.debug,
      "Building '" ++ name ++ "' at depth " ++ Decimal.natText depth ++ ": " ++
        Decimal.natText keys ++ " keys, strategy " ++ strategy⟩
  | .finished records roots =>
    some ⟨.info,
      "Built " ++ Decimal.natText records ++ " lore entries from " ++ Decimal.natText roots ++
        " root entries"⟩

def Run.log (r : Run α) : List LogLine :=
  r.events.filterMap Event.logLine?

end LoreTree
