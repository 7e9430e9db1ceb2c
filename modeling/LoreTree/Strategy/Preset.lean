import LoreTree.Strategy
/-!
Ready-made depth strategies, each with the settings that suit one kind of note. They do not shift
anything by depth unless the author sets a delta.
-/

namespace LoreTree

inductive Preset
  | concept
  | faction
  | species
  | place
  | character
  | brace
  | synopsis
  | pillar
  | signpost
  deriving DecidableEq

namespace Preset

def all : List Preset :=
  [concept, faction, species, place, character, brace, synopsis, pillar, signpost]

def name : Preset → String
  | .concept => "concept"
  | .faction => "faction"
  | .species => "species"
  | .place => "place"
  | .character => "character"
  | .brace => "brace"
  | .synopsis => "synopsis"
  | .pillar => "pillar"
  | .signpost => "signpost"

/-- Letter case does not matter. A letter beyond ASCII never gives the name of a preset. -/
def ofName? (s : String) : Option Preset :=
  all.find? (·.name = Kind.lower s)

/-- A note goes between brackets, on a line of its own. -/
def bracketed : Overrides .context :=
  (Overrides.only .before "[ ").overlay (.only .after "]\n")

def placed (reserved priority position : Int) : Overrides .context :=
  ((Overrides.only .reservedTokens reserved).overlay (.only .budgetPriority priority)).overlay
    (.only .insertionPosition position)

def context : Preset → Overrides .context
  | .concept => placed 0 800 (-1)
  | .faction => placed 0 700 (-1)
  | .species => placed 0 600 (-1)
  | .place => placed 0 500 (-1)
  | .character => placed 200 400 (-1)
  | .brace => placed 200 (-400) (-8)
  | .synopsis => placed 200 (-500) (-8)
  | .pillar => placed 200 (-600) (-4)
  | .signpost =>
    ((Overrides.only .before "\n").overlay (.only .after "\n\n")).overlay (placed 3 100 (-1))

def entry : Preset → Option (Overrides .entry)
  | .concept => some (.only .searchRange (2000 : Int))
  | .faction => some (.only .searchRange (5000 : Int))
  | .species => some (.only .searchRange (2000 : Int))
  | .place => some (.only .searchRange (3000 : Int))
  | .character => some (.only .searchRange (2000 : Int))
  | .brace => none
  | .synopsis => some (.only .forceActivation true)
  | .pillar => none
  | .signpost => some (.only .forceActivation true)

/-- The overrides of a preset, under those of the author. -/
def config (p : Preset) (c : StrategyConfig) : StrategyConfig :=
  { c with
    context := Overrides.overlayAny (some (bracketed.overlay p.context)) c.context
    entry := Overrides.overlayAny p.entry c.entry }

def strategy (p : Preset) (identity : Identity) (c : StrategyConfig) : Strategy :=
  ⟨identity, .depthDelta (.int 0) (.int 0), p.config c⟩

end Preset

def Strategy.preset (name : Value) (identity : Identity) (c : StrategyConfig) :
    Except Failure Strategy :=
  match name with
  | .text s =>
    match Preset.ofName? s with
    | some p => .ok (p.strategy identity c)
    | none => .error (.unknownPreset s)
  | _ => .error .unnamed

end LoreTree
