import LoreTree.Proofs.Pattern.Token
/-!
The surface of a pattern: what shows outside of its groups. A reader takes one token at a time, with
the open groups on a stack; it stops at the closing of a group that is not open and at a quantifier
with nothing before it to repeat. Patterns that read well on their own read well next to each other
and inside of groups.
-/

namespace LoreTree.Pattern

/-- What a pattern shows outside of its groups. -/
structure Surface where
  divided : Bool := false
  /-- An atom outside of all groups that look around. Only such atoms take part in a match. -/
  consumes : Bool := false
  deriving DecidableEq

namespace Surface

def join (a b : Surface) : Surface :=
  ⟨a.divided || b.divided, a.consumes || b.consumes⟩

/-- What still shows when groups are put around a pattern; each says whether it looks around. -/
def within (s : Surface) (groups : List Bool) : Surface :=
  ⟨s.divided && groups.isEmpty, s.consumes && !groups.any id⟩

@[simp]
theorem join_none (s : Surface) : s.join {} = s := by
  simp [join]

@[simp]
theorem none_join (s : Surface) : Surface.join {} s = s := by
  simp [join]

theorem join_assoc (a b c : Surface) : (a.join b).join c = a.join (b.join c) := by
  simp [join, Bool.or_assoc]

@[simp]
theorem none_within (groups : List Bool) : Surface.within {} groups = {} := by
  simp [within]

@[simp]
theorem within_nil (s : Surface) : s.within [] = s := by
  simp [within]

theorem join_within (a b : Surface) (groups : List Bool) :
    (a.join b).within groups = (a.within groups).join (b.within groups) := by
  simp [join, within, Bool.and_or_distrib_right]

theorem within_append (s : Surface) (inner outer : List Bool) :
    s.within (inner ++ outer) = (s.within inner).within outer := by
  cases inner with
  | nil => simp [within]
  | cons => simp [within, Bool.and_assoc]

theorem within_looking (s : Surface) {groups : List Bool} (looks : groups.any id = true) :
    s.within groups = {} := by
  have some_group : groups.isEmpty = false := by
    cases groups with
    | nil => cases looks
    | cons => rfl
  simp [within, looks, some_group]

end Surface

inductive Before
  | nothing
  | atom
  | repeated
  deriving DecidableEq

structure Reader where
  groups : List Bool := []
  before : Before := .nothing
  surface : Surface := {}

namespace Reader

def step (r : Reader) : Token → Option Reader
  | .atom => some ⟨r.groups, .atom, r.surface.join (Surface.within ⟨false, true⟩ r.groups)⟩
  | .assertion => some { r with before := .nothing }
  | .opening looks => some { r with groups := looks :: r.groups, before := .nothing }
  | .closing =>
    match r.groups with
    | [] => none
    | looks :: groups => some { r with groups, before := if looks then .nothing else .atom }
  | .bar => some ⟨r.groups, .nothing, r.surface.join (Surface.within ⟨true, false⟩ r.groups)⟩
  | .quantifier => if r.before = .atom then some { r with before := .repeated } else none
  | .question =>
    match r.before with
    | .nothing => none
    | .atom => some { r with before := .repeated }
    | .repeated => some { r with before := .nothing }

def run (r : Reader) (ts : List Token) : Option Reader :=
  ts.foldlM step r

theorem run_append (r : Reader) (front back : List Token) :
    r.run (front ++ back) = (r.run front).bind (run · back) :=
  List.foldlM_append

end Reader

/-- The surface of a pattern that reads well, with all of its groups closed. -/
def surface? (cs : List Char) : Option Surface := do
  let ts ← tokens? cs
  let r ← Reader.run {} ts
  if r.groups.isEmpty then some r.surface else none

/-- A text that ends inside of a group that looks around. -/
def endsInLook (cs : List Char) : Bool :=
  ((tokens? cs).bind (Reader.run {})).any (·.groups.any id)

/-- A text that reads well wherever a reader is; it leaves these groups open and shows this much of
itself outside of them. -/
def Adds (cs : List Char) (groups : List Bool) (s : Surface) : Prop :=
  ∃ ts, tokens? cs = some ts ∧ ∀ r : Reader, ∃ before,
    r.run ts = some ⟨groups ++ r.groups, before, r.surface.join (s.within r.groups)⟩

namespace Adds

variable {front back cs : List Char} {gs hs : List Bool} {s t : Surface}

/-- What follows stands inside of the groups that are left open before it. -/
theorem append (h : Adds front gs s) (k : Adds back hs t) :
    Adds (front ++ back) (hs ++ gs) (s.join (t.within gs)) := by
  obtain ⟨ts, front_ts, front_run⟩ := h
  obtain ⟨us, back_us, back_run⟩ := k
  refine ⟨ts ++ us, tokens?_append front_ts back_us, ?_⟩
  intro r
  obtain ⟨before, went⟩ := front_run r
  obtain ⟨after, went_on⟩ := back_run ⟨gs ++ r.groups, before, r.surface.join (s.within r.groups)⟩
  refine ⟨after, ?_⟩
  rw [Reader.run_append, went, Option.bind_some, went_on]
  simp only [List.append_assoc, Surface.join_assoc, Surface.join_within, Surface.within_append]

theorem beside (h : Adds front [] s) (k : Adds back hs t) :
    Adds (front ++ back) hs (s.join t) := by
  have both := h.append k
  rwa [List.append_nil, Surface.within_nil] at both

/-- What follows inside of a group that looks around does not show. -/
theorem hidden (h : Adds front gs s) (looks : gs.any id = true) (k : Adds back hs t) :
    Adds (front ++ back) (hs ++ gs) s := by
  have both := h.append k
  rwa [Surface.within_looking t looks, Surface.join_none] at both

theorem close {looks : Bool} (h : Adds cs (looks :: gs) s) : Adds (cs ++ [')']) gs s := by
  obtain ⟨ts, cs_ts, run⟩ := h
  have closing : tokens? [')'] = some [.closing] := rfl
  refine ⟨ts ++ [.closing], tokens?_append cs_ts closing, ?_⟩
  intro r
  obtain ⟨before, went⟩ := run r
  refine ⟨if looks then .nothing else .atom, ?_⟩
  rw [Reader.run_append, went]
  rfl

theorem group {opening body : List Char} {looks : Bool} (h : Adds opening [looks] {})
    (k : Adds body [] s) : Adds (Fragment.group opening body) [] (s.within [looks]) := by
  have inside := (h.append k).close
  rwa [Surface.none_join] at inside

theorem surface?_eq (h : Adds cs [] s) : surface? cs = some s := by
  obtain ⟨ts, cs_ts, run⟩ := h
  obtain ⟨before, went⟩ := run {}
  rw [surface?, cs_ts]
  change (Reader.run {} ts).bind _ = _
  rw [went]
  simp

example : surface? ['a', '|', '(', '?', '=', 'b', ')'] = some ⟨true, true⟩ := rfl

example : surface? ['(', '?', '=', '+', ')'] = none := rfl

theorem endsInLook (h : Adds cs gs s) (looks : gs.any id = true) : endsInLook cs = true := by
  obtain ⟨ts, cs_ts, run⟩ := h
  obtain ⟨before, went⟩ := run {}
  rw [Pattern.endsInLook, cs_ts, Option.bind_some, went]
  simpa using looks

theorem opening {looks : Bool} (h : tokens? cs = some [.opening looks]) : Adds cs [looks] {} := by
  refine ⟨_, h, ?_⟩
  intro r
  exact ⟨.nothing, by simp [Reader.run, Reader.step]⟩

theorem nothing : Adds [] [] {} := by
  refine ⟨[], rfl, ?_⟩
  intro r
  exact ⟨r.before, by simp [Reader.run]⟩

theorem assertion (h : tokens? cs = some [.assertion]) : Adds cs [] {} := by
  refine ⟨_, h, ?_⟩
  intro r
  exact ⟨.nothing, by simp [Reader.run, Reader.step]⟩

theorem atom (h : tokens? cs = some [.atom]) : Adds cs [] ⟨false, true⟩ := by
  refine ⟨_, h, ?_⟩
  intro r
  exact ⟨.atom, rfl⟩

theorem reluctant (h : tokens? cs = some [.atom, .quantifier, .question]) :
    Adds cs [] ⟨false, true⟩ := by
  refine ⟨_, h, ?_⟩
  intro r
  exact ⟨.nothing, rfl⟩

theorem bar : Adds ['|'] [] ⟨true, false⟩ := by
  refine ⟨[.bar], rfl, ?_⟩
  intro r
  exact ⟨.nothing, rfl⟩

theorem escape (word : List Char) : Adds (Fragment.escape word) [] ⟨false, !word.isEmpty⟩ := by
  induction word with
  | nil => exact nothing
  | cons c word ih =>
    rw [Fragment.escape, List.flatMap_cons]
    exact (atom (tokens?_escaped c)).beside ih

end Adds

end LoreTree.Pattern
