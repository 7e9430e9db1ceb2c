import LoreTree.Keys
import LoreTree.Strategy.Preset
/-!
The author's side: trees of entries, and the configuration of a whole lorebook.
-/

namespace LoreTree

inductive RoseTree (α : Type)
  | node (label : α) (children : List (RoseTree α))

/-- The texts of an entry, each of which gives a record of its own. A member of a list may turn out
to be no text. -/
inductive Texts
  | absent
  | one (text : String)
  | many (items : List (Option String))
  | foreign

/-- A list or tuple holds its items, a dictionary its names. -/
def Texts.ofValue : Value → Texts
  | .null => .absent
  | .text s => .one s
  | .list items => .many (items.map fun | .text s => some s | _ => none)
  | .tuple items => .many (items.map fun | .text s => some s | _ => none)
  | .dict members => .many (members.map fun (name, _) => some name)
  | _ => .foreign

def Texts.items : Texts → Except Failure (List (Option String))
  | .absent => .ok []
  | .one s => .ok [some s]
  | .many items => .ok items
  | .foreign => .error .mismatch

/-- One entry of the author's tree. What is left out is taken from the parent. -/
structure Entry where
  name : String
  keys : List Phrase := []
  texts : Texts := .absent
  strategy : Option Strategy := none
  /-- How children join these keys with theirs. -/
  childOp : Option Operator := none
  /-- How this entry joins the inherited keys with its own. -/
  ownOp : Option Operator := none
  base : Option Keys.Base := none
  context : Option (Overrides .context) := none
  entry : Option (Overrides .entry) := none

def Entry.signpost (identity : Identity) : Entry where
  name := "Signpost"
  texts := .one "***"
  strategy := some (Preset.signpost.strategy identity {})

structure Config where
  entries : List (RoseTree Entry)
  orderByKeyLocations : Bool := false
  strategy : Option Strategy := none
  childOp : Operator := .and
  context : Option (Overrides .context) := none
  entry : Option (Overrides .entry) := none
  reversed : Bool := false

end LoreTree
