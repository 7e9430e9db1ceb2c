import LoreTree.Fragment
/-!
Reading a pattern for its alternation bars. The reader knows escapes, character classes and groups;
of a bar it only notes which group it divides, and that only if the group looks around or if there
is no group at all.
-/

namespace LoreTree.Pattern

/-- The bars of a pattern that divide more than a group of their own. -/
structure Bars where
  exposed : Bool := false
  /-- A bar right inside of a lookahead or a lookbehind. -/
  torn : Bool := false
  deriving DecidableEq

namespace Bars

def leaks (b : Bars) : Bool :=
  b.exposed || b.torn

def join (a b : Bars) : Bars :=
  ⟨a.exposed || b.exposed, a.torn || b.torn⟩

/-- What a bar outside of all groups becomes when groups are put around the pattern; each group
says whether it looks around. -/
def within (b : Bars) : List Bool → Bars
  | [] => b
  | looks :: _ => ⟨false, b.torn || (looks && b.exposed)⟩

@[simp]
theorem join_none (b : Bars) : b.join {} = b := by
  simp [join]

@[simp]
theorem none_join (b : Bars) : Bars.join {} b = b := by
  simp [join]

@[simp]
theorem none_within (groups : List Bool) : Bars.within {} groups = {} := by
  cases groups with
  | nil => rfl
  | cons => simp [within]

theorem join_assoc (a b c : Bars) : (a.join b).join c = a.join (b.join c) := by
  simp [join, Bool.or_assoc]

theorem join_within (a b : Bars) (groups : List Bool) :
    (a.join b).within groups = (a.within groups).join (b.within groups) := by
  cases groups with
  | nil => rfl
  | cons looks _ =>
    simp only [within, join, Bool.or_self, Bool.and_or_distrib_left]
    simp [Bool.or_assoc, Bool.or_left_comm]

theorem within_append (b : Bars) (inner outer : List Bool) :
    b.within (inner ++ outer) = (b.within inner).within outer := by
  cases inner with
  | nil => rfl
  | cons looks _ =>
    cases outer with
    | nil => rfl
    | cons => simp [within]

end Bars

inductive Mode
  | text
  | escaped
  /-- Right after the opening of a group, after the question mark there and after the angle. -/
  | opened
  | marked
  | angled
  /-- Right after the opening of a class, after the caret there, and among its members. -/
  | classOpened
  | classNegated
  | inClass
  | classEscaped

/-- How far the reader has come; of the open groups, the innermost first, it keeps whether they
look around. -/
structure Scan where
  mode : Mode := .text
  groups : List Bool := []
  bars : Bars := {}

namespace Scan

def enter (s : Scan) (looks : Bool) : Scan :=
  { s with mode := .text, groups := looks :: s.groups }

def read (s : Scan) : Char → Option Scan
  | '\\' => some { s with mode := .escaped }
  | '(' => some { s with mode := .opened }
  | '[' => some { s with mode := .classOpened }
  | '|' => some { s with bars := s.bars.join (Bars.within ⟨true, false⟩ s.groups) }
  | ')' =>
    match s.groups with
    | [] => none
    | _ :: groups => some { s with groups := groups }
  | _ => some s

def member (s : Scan) : Char → Scan
  | '\\' => { s with mode := .classEscaped }
  | ']' => { s with mode := .text }
  | _ => { s with mode := .inClass }

/-- Reads the first member of a class. Some dialects know the class without members; in the others
a bracket stands for itself here. -/
def firstMember (emptyClass : Bool) (s : Scan) (c : Char) : Scan :=
  if c = ']' ∧ !emptyClass then { s with mode := .inClass } else s.member c

/-- Reads one character. It fails only at the closing of a group that is not open. -/
def step (emptyClass : Bool) (s : Scan) (c : Char) : Option Scan :=
  match s.mode with
  | .text => s.read c
  | .escaped => some { s with mode := .text }
  | .opened => if c = '?' then some { s with mode := .marked } else (s.enter false).read c
  | .marked =>
    if c = '=' ∨ c = '!' then some (s.enter true)
    else if c = '<' then some { s with mode := .angled }
    else (s.enter false).read c
  | .angled => if c = '=' ∨ c = '!' then some (s.enter true) else (s.enter false).read c
  | .classOpened =>
    some (if c = '^' then { s with mode := .classNegated } else s.firstMember emptyClass c)
  | .classNegated => some (s.firstMember emptyClass c)
  | .inClass => some (s.member c)
  | .classEscaped => some { s with mode := .inClass }

def run (emptyClass : Bool) (s : Scan) (cs : List Char) : Option Scan :=
  cs.foldlM (step emptyClass) s

/-- A reader that has come to `inner` on its own, when it was set off after `outer`. -/
def after (outer inner : Scan) : Scan where
  mode := inner.mode
  groups := inner.groups ++ outer.groups
  bars := outer.bars.join (inner.bars.within outer.groups)

theorem read_after {outer s t : Scan} {c : Char} (h : s.read c = some t) :
    (outer.after s).read c = some (outer.after t) := by
  unfold read at h
  split at h
  case h_4 =>
    cases h
    simp only [read, after, Bars.join_within, Bars.within_append, Bars.join_assoc]
  case h_5 =>
    split at h
    · cases h
    · cases h
      simp only [read, after, ‹s.groups = _›, List.cons_append]
  all_goals
    cases h
    simp only [read, after]

variable {emptyClass : Bool}

theorem member_after (outer s : Scan) (c : Char) :
    (outer.after s).member c = outer.after (s.member c) := by
  unfold member
  split <;> rfl

theorem firstMember_after (outer s : Scan) (c : Char) :
    (outer.after s).firstMember emptyClass c = outer.after (s.firstMember emptyClass c) := by
  unfold firstMember
  split
  · rfl
  · exact member_after outer s c

theorem step_after {outer s t : Scan} {c : Char} (h : s.step emptyClass c = some t) :
    (outer.after s).step emptyClass c = some (outer.after t) := by
  obtain ⟨mode, groups, bars⟩ := s
  cases mode with
  | text => exact read_after h
  | escaped =>
    cases h
    rfl
  | opened =>
    simp only [step, after] at h ⊢
    by_cases mark : c = '?'
    · rw [if_pos mark] at h ⊢
      cases h
      rfl
    · rw [if_neg mark] at h ⊢
      exact read_after h
  | marked =>
    simp only [step, after] at h ⊢
    by_cases looks : c = '=' ∨ c = '!'
    · rw [if_pos looks] at h ⊢
      cases h
      rfl
    rw [if_neg looks] at h ⊢
    by_cases angle : c = '<'
    · rw [if_pos angle] at h ⊢
      cases h
      rfl
    · rw [if_neg angle] at h ⊢
      exact read_after h
  | angled =>
    simp only [step, after] at h ⊢
    by_cases looks : c = '=' ∨ c = '!'
    · rw [if_pos looks] at h ⊢
      cases h
      rfl
    · rw [if_neg looks] at h ⊢
      exact read_after h
  | classOpened =>
    simp only [step, after] at h ⊢
    by_cases caret : c = '^'
    · rw [if_pos caret] at h ⊢
      cases h
      rfl
    · rw [if_neg caret] at h ⊢
      cases h
      exact congrArg some (firstMember_after outer ⟨_, groups, bars⟩ c)
  | classNegated =>
    cases h
    exact congrArg some (firstMember_after outer _ c)
  | inClass =>
    cases h
    exact congrArg some (member_after outer _ c)
  | classEscaped =>
    cases h
    rfl

theorem run_append (s : Scan) (front back : List Char) :
    s.run emptyClass (front ++ back) = (s.run emptyClass front).bind (run emptyClass · back) :=
  List.foldlM_append

/-- What stands before a text only adds its own groups and bars to what the text is read as. -/
theorem run_after (outer : Scan) {s t : Scan} {cs : List Char} (h : s.run emptyClass cs = some t) :
    (outer.after s).run emptyClass cs = some (outer.after t) := by
  induction cs generalizing s with
  | nil =>
    cases h
    rfl
  | cons c cs ih =>
    obtain ⟨next, stepped, rest⟩ := Option.bind_eq_some_iff.1 h
    change ((outer.after s).step emptyClass c).bind _ = _
    rw [step_after stepped]
    exact ih rest

end Scan

/-- The bars of a pattern in which all groups and classes are closed and nothing is left escaped;
any other text has none. -/
def bars? (emptyClass : Bool) (cs : List Char) : Option Bars :=
  match Scan.run emptyClass {} cs with
  | some ⟨.text, [], bars⟩ => some bars
  | _ => none

section Balanced

variable {emptyClass : Bool} {front back body cs : List Char} {a b : Bars}

theorem bars?_eq_some :
    bars? emptyClass cs = some b ↔ Scan.run emptyClass {} cs = some ⟨.text, [], b⟩ := by
  unfold bars?
  constructor
  · intro h
    split at h
    · cases h
      assumption
    · cases h
  · intro h
    rw [h]

/-- A balanced pattern leaves the reader where it was, so that patterns in a row add their bars. -/
theorem bars?_append (front_bars : bars? emptyClass front = some a)
    (back_bars : bars? emptyClass back = some b) :
    bars? emptyClass (front ++ back) = some (a.join b) := by
  have went := Scan.run_after ⟨.text, [], a⟩ (bars?_eq_some.1 back_bars)
  rw [bars?_eq_some, Scan.run_append, bars?_eq_some.1 front_bars, Option.bind_some]
  simpa [Scan.after, Bars.within] using went

/-- A group hides the bars of its body, except that it is torn by them if it looks around. -/
theorem bars?_group (opening : List Char) {looks : Bool}
    (opened : Scan.run emptyClass {} opening = some ⟨.text, [looks], {}⟩)
    (body_bars : bars? emptyClass body = some b) :
    bars? emptyClass (Fragment.group opening body) = some (b.within [looks]) := by
  have start : Scan.after ⟨.text, [looks], {}⟩ {} = ⟨.text, [looks], {}⟩ := by
    simp [Scan.after]
  have went := Scan.run_after ⟨.text, [looks], {}⟩ (bars?_eq_some.1 body_bars)
  rw [start] at went
  rw [bars?_eq_some, Fragment.group, Scan.run_append, Scan.run_append, opened, Option.bind_some,
    went]
  simp [Scan.after, Scan.run, Scan.step, Scan.read]

example : bars? false ['(', '?', '=', 'a', '|', 'b', ')', '[', '|', ']'] = some ⟨false, true⟩ := rfl

def marks : List Char :=
  ['\\', '(', '[', '|', ')']

theorem Scan.read_plain (s : Scan) {c : Char} (plain : c ∉ marks) : s.read c = some s := by
  simp only [marks, List.mem_cons, List.not_mem_nil, or_false, not_or] at plain
  obtain ⟨h₁, h₂, h₃, h₄, h₅⟩ := plain
  simp only [read]

theorem bars?_plain {cs : List Char} (plain : ∀ c ∈ cs, c ∉ marks) :
    bars? emptyClass cs = some {} := by
  induction cs with
  | nil => rfl
  | cons c cs ih =>
    obtain ⟨head, tail⟩ := List.forall_mem_cons.1 plain
    have first : bars? emptyClass [c] = some {} := by
      rw [bars?_eq_some, Scan.run, List.foldlM_cons]
      change (Scan.read {} c).bind _ = _
      rw [Scan.read_plain _ head]
      rfl
    exact bars?_append first (ih tail)

end Balanced

end LoreTree.Pattern
