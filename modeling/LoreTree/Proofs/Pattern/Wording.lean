import LoreTree.Declaration
import LoreTree.Proofs.Success
/-!
How authors write phrases, and what they mean by them. A wording is what is written; its sense is the
wording with all shorthands spelled out. The pattern of a wording is made from values and operators
and depends on nothing but its sense.
-/

namespace LoreTree

/-- The ways to turn a text into a keyword. -/
inductive Form
  | exact
  | startsWith
  | endsWith
  | contains
  deriving DecidableEq

namespace Form

def name : Form → String
  | .exact => "lit"
  | .startsWith => "pre"
  | .endsWith => "post"
  | .contains => "open"

def fragment : Form → List Char → Fragment
  | .exact => .exact
  | .startsWith => .startsWith
  | .endsWith => .endsWith
  | .contains => .contains

theorem construct_name (form : Form) (s : String) :
    Declaration.construct form.name (.text s) = .ok (.fragment (form.fragment s.toList)) := by
  cases form <;> rfl

end Form

/-- Options that an operator is called with, accepted and with the range that they stand for. -/
structure Reach where
  places : List Value
  names : List (String × Value)
  options : Operator.Options
  taken : Operator.Options.ofCall places names = .ok options
  range : Proximity.Range
  accepted : Proximity.range options.distance = .ok range

/-- What joins two phrases into one that matches the left of them. -/
inductive Link
  | and
  | excluding
  | alongside
  | without
  | near (reach : Reach)
  | beyond (reach : Reach)

/-- What may stand between the sides of an expression: a link, or an operator left as it is. -/
inductive Joint
  | link (l : Link)
  | alternation
  | near
  | beyond

inductive Wording
  | plain (s : String)
  | keyword (form : Form) (s : String)
  | choice (alternates : List Wording)
  | related (left : Wording) (link : Link) (right : Wording)
  | expression (listed : Bool) (left : Wording) (joint : Joint) (right : Wording)

inductive Relation
  | and
  | excluding
  | alongside
  | without
  | near (low high : Nat) (sameLine : Bool)
  | beyond (high : Nat) (sameLine : Bool)
  deriving DecidableEq

inductive Sense
  | keyword (form : Form) (s : String)
  | choice (alternates : List Sense)
  | related (relation : Relation) (left right : Sense)

namespace Relation

def presence : Relation → Presence
  | .and => .present
  | .excluding => .absent
  | .alongside => .present
  | .without => .absent
  | .near .. => .present
  | .beyond .. => .absent

def gap : Relation → Gap
  | .and => .document
  | .excluding => .document
  | .alongside => .line
  | .without => .line
  | .near low high sameLine => .words low high sameLine
  | .beyond high sameLine => .words 0 high sameLine

def operator (r : Relation) : Operator :=
  .relation r.presence r.gap

theorem eq_of_presence_of_gap {r q : Relation} (presence : r.presence = q.presence)
    (gap : r.gap = q.gap) : r = q := by
  cases r <;> cases q <;> cases presence <;> cases gap <;> rfl

end Relation

namespace Link

def operator : Link → Except Failure Operator
  | .and => .ok .and
  | .excluding => .ok .excluding
  | .alongside => .ok .alongside
  | .without => .ok .without
  | .near reach => do Operator.near.configure (← Operator.Options.ofCall reach.places reach.names)
  | .beyond reach => do
    Operator.beyond.configure (← Operator.Options.ofCall reach.places reach.names)

def relation : Link → Relation
  | .and => .and
  | .excluding => .excluding
  | .alongside => .alongside
  | .without => .without
  | .near reach => .near reach.range.low reach.range.high reach.options.sameLine.isTrue
  | .beyond reach => .beyond reach.range.high reach.options.sameLine.isTrue

theorem operator_eq (l : Link) : l.operator = .ok l.relation.operator := by
  cases l with
  | and | excluding | alongside | without => rfl
  | near reach | beyond reach =>
    refine bind_eq_ok.2 ⟨_, reach.taken, ?_⟩
    exact bind_eq_ok.2 ⟨_, reach.accepted, rfl⟩

end Link

def Joint.operator : Joint → Except Failure Operator
  | .link l => l.operator
  | .alternation => .ok .alternation
  | .near => .ok .near
  | .beyond => .ok .beyond

namespace Wording

mutual

/-- What a wording is before it is used as a phrase. -/
def value : Wording → Except Failure Value
  | .plain s => .ok (.text s)
  | .keyword form s => Declaration.construct form.name (.text s)
  | .choice alternates => do Operator.alternation.call (← values alternates)
  | .related left link right => do
    let op ← link.operator
    let l ← value left
    let r ← value right
    op.call [l, r]
  | .expression listed left joint right => do
    let l ← value left
    let op ← joint.operator
    let r ← value right
    return if listed then .list [l, .operator op, r] else .tuple [l, .operator op, r]

def values : List Wording → Except Failure (List Value)
  | [] => .ok []
  | w :: ws => do
    let first ← value w
    let rest ← values ws
    return first :: rest

end

/-- The pattern that a wording compiles to. -/
def pattern (w : Wording) : Except Failure Fragment := do
  (Phrase.ofValue (← w.value)).compile

mutual

def sense : Wording → Sense
  | .plain s => .keyword .startsWith s
  | .keyword form s => .keyword form s
  | .choice alternates => .choice (senses alternates)
  | .related left link right => .related link.relation (sense left) (sense right)
  | .expression _ left (.link l) right => .related l.relation (sense left) (sense right)
  | .expression _ left .alternation right => .choice [sense left, sense right]
  | .expression _ left .near right =>
    .related (.near 0 Operator.defaultDistance true) (sense left) (sense right)
  | .expression _ left .beyond right =>
    .related (.beyond Operator.defaultDistance true) (sense left) (sense right)

def senses : List Wording → List Sense
  | [] => []
  | w :: ws => sense w :: senses ws

end

end Wording

namespace Sense

mutual

def fragment : Sense → Fragment
  | .keyword form s => form.fragment s.toList
  | .choice alternates => .alternation (fragments alternates)
  | .related r left right => .relate r.presence r.gap (fragment left) (fragment right)

def fragments : List Sense → List Fragment
  | [] => []
  | s :: ss => fragment s :: fragments ss

end

end Sense

def Joint.fragment : Joint → (left right : Fragment) → Fragment
  | .link l, left, right => .relate l.relation.presence l.relation.gap left right
  | .alternation, left, right => .alternation [left, right]
  | .near, left, right => .relate .present (.words 0 Operator.defaultDistance true) left right
  | .beyond, left, right => .relate .absent (.words 0 Operator.defaultDistance true) left right

theorem Joint.join_operator (j : Joint) :
    ∃ op, j.operator = .ok op ∧ ∀ left right, Phrase.join op left right =
      .ok (j.fragment left right) := by
  cases j with
  | link l => exact ⟨_, l.operator_eq, fun _ _ => rfl⟩
  | alternation | near | beyond => exact ⟨_, rfl, fun _ _ => rfl⟩

namespace Wording

theorem fragment_expression (listed : Bool) (left : Wording) (joint : Joint) (right : Wording) :
    (expression listed left joint right).sense.fragment =
      joint.fragment left.sense.fragment right.sense.fragment := by
  cases joint with
  | link | alternation | near | beyond =>
    rw [sense, Sense.fragment]
    rfl

mutual

/-- A wording has a value, and that compiles to what the sense of the wording says. -/
theorem exists_value : (w : Wording) →
    ∃ v, w.value = .ok v ∧ (Phrase.ofValue v).compile = .ok w.sense.fragment
  | .plain s => by
    rw [value, sense, Sense.fragment]
    exact ⟨_, rfl, rfl⟩
  | .keyword form s => by
    rw [value, sense, Sense.fragment]
    exact ⟨_, form.construct_name s, rfl⟩
  | .choice alternates => by
    obtain ⟨vs, made, compiled⟩ := exists_values alternates
    rw [value, sense, Sense.fragment, made]
    refine ⟨.fragment (.alternation (Sense.fragments (senses alternates))), ?_, rfl⟩
    refine bind_eq_ok.2 ⟨vs, rfl, map_eq_ok.2 ⟨_, ?_, rfl⟩⟩
    exact map_eq_ok.2 ⟨_, compiled, rfl⟩
  | .related left link right => by
    obtain ⟨l, hl, left_ok⟩ := exists_value left
    obtain ⟨r, hr, right_ok⟩ := exists_value right
    rw [value, sense, Sense.fragment, hl, hr, link.operator_eq]
    refine ⟨.fragment _, ?_, rfl⟩
    refine bind_eq_ok.2 ⟨_, rfl, bind_eq_ok.2 ⟨l, rfl, bind_eq_ok.2 ⟨r, rfl, ?_⟩⟩⟩
    exact bind_eq_ok.2 ⟨_, left_ok, bind_eq_ok.2 ⟨_, right_ok, rfl⟩⟩
  | .expression listed left joint right => by
    obtain ⟨l, hl, left_ok⟩ := exists_value left
    obtain ⟨r, hr, right_ok⟩ := exists_value right
    obtain ⟨op, given, joins⟩ := joint.join_operator
    have compiled : (Phrase.expression (.ofValue l) op (.ofValue r)).compile =
        .ok (joint.fragment left.sense.fragment right.sense.fragment) :=
      bind_eq_ok.2 ⟨_, left_ok, bind_eq_ok.2 ⟨_, right_ok, joins _ _⟩⟩
    rw [value, hl, hr, given, fragment_expression]
    cases listed with
    | true => exact ⟨.list [l, .operator op, r], rfl, compiled⟩
    | false => exact ⟨.tuple [l, .operator op, r], rfl, compiled⟩

theorem exists_values : (ws : List Wording) →
    ∃ vs, values ws = .ok vs ∧
      Phrase.compileAll (vs.map Phrase.ofValue) = .ok (Sense.fragments (senses ws))
  | [] => ⟨[], by rw [values], by rw [senses, Sense.fragments]; rfl⟩
  | w :: ws => by
    obtain ⟨v, hv, compiled⟩ := exists_value w
    obtain ⟨vs, hvs, rest⟩ := exists_values ws
    rw [values, hv, hvs, senses, Sense.fragments]
    refine ⟨v :: vs, rfl, mapM_eq_ok.2 ?_⟩
    exact .cons compiled (mapM_eq_ok.1 rest)

end

theorem pattern_eq (w : Wording) : w.pattern = .ok w.sense.fragment := by
  obtain ⟨v, made, compiled⟩ := exists_value w
  exact bind_eq_ok.2 ⟨v, made, compiled⟩

end Wording

end LoreTree
