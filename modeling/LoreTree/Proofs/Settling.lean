import LoreTree.Proofs.Interference
import LoreTree.Proximity
/-!
Operators that still wait for options. Wherever such an operator joins phrases it means its call
without arguments: in expressions, in the operands of other operators, as the operator of an entry
or of the whole lorebook, and in keys that are replaced or derived. A build that has the calls
written out keeps step with the one that has not, up to the last line of its log.
-/

namespace LoreTree

/-- An operator and one that may stand in its place: itself, or what its call without arguments
gives. -/
inductive Operator.Settles : Operator → Operator → Prop
  | same (op : Operator) : Settles op op
  | called {op op' : Operator} : op.call [] = .ok (.operator op') → Settles op op'

namespace Operator

variable {op op' : Operator}

theorem Settles.settled_eq (h : op.Settles op') : op.settled = op'.settled := by
  cases h with
  | same => rfl
  | called made =>
    cases op with
    | near | beyond =>
      cases made
      rfl
    | alternation | relation | exact => cases made

theorem Settles.join_eq (h : op.Settles op') (left right : Fragment) :
    Phrase.join op left right = Phrase.join op' left right := by
  rw [Phrase.join, Phrase.join, combine?, combine?, h.settled_eq]

end Operator

/-- A phrase and one that has some of its operators called. Operands of a call are phrases too, and
the fragment that the call gives stands for what was written. -/
inductive Phrase.Settles : Phrase → Phrase → Prop
  | same (p : Phrase) : Settles p p
  | expression {l l' r r' : Phrase} {op op' : Operator} : Settles l l' → op.Settles op' →
      Settles r r' → Settles (.expression l op r) (.expression l' op' r')
  | unjoined {l l' r r' : Phrase} : Settles l l' → Settles r r' →
      Settles (.unjoined l r) (.unjoined l' r')
  | called {op : Operator} {operands : List (Value × Value)} {f f' : Fragment} :
      op.takesOptions = false → (∀ v ∈ operands, Settles (.ofValue v.1) (.ofValue v.2)) →
      op.call (operands.map Prod.fst) = .ok (.fragment f) →
      op.call (operands.map Prod.snd) = .ok (.fragment f') → Settles (.fragment f) (.fragment f')

namespace Phrase

theorem ofValue_eq_word {v : Value} {s : String} : ofValue v = .word s ↔ v = .text s := by
  constructor
  · intro h
    unfold ofValue at h
    split at h
    case h_1 =>
      cases h
      rfl
    all_goals cases h
  · rintro rfl
    rfl

theorem anyOf_congr {ps qs : List Phrase}
    (same : List.Forall₂ (fun p q => p.compile = q.compile) ps qs) : anyOf ps = anyOf qs := by
  rw [anyOf, anyOf, compileAll, compileAll, mapM_congr_forall₂ same]

end Phrase

namespace Operator

theorem call_exact_of_ne {vs : List Value} (other : ∀ s, vs ≠ [.text s]) :
    Operator.exact.call vs = .error .mismatch := by
  unfold call
  split
  case h_5 word _ => exact (other word rfl).elim
  case h_6 => rfl
  all_goals contradiction

/-- What a call gives depends on the patterns of its operands, and on the text of a plain word. -/
theorem call_congr {op : Operator} {operands : List (Value × Value)}
    (joins : op.takesOptions = false)
    (compiled : ∀ v ∈ operands, (Phrase.ofValue v.1).compile = (Phrase.ofValue v.2).compile)
    (words : ∀ v ∈ operands, ∀ s, Phrase.ofValue v.1 = .word s ↔ Phrase.ofValue v.2 = .word s) :
    op.call (operands.map Prod.fst) = op.call (operands.map Prod.snd) := by
  cases op with
  | alternation =>
    have same : Phrase.anyOf ((operands.map Prod.fst).map Phrase.ofValue) =
        Phrase.anyOf ((operands.map Prod.snd).map Phrase.ofValue) := by
      refine Phrase.anyOf_congr ?_
      rw [List.forall₂_map_left_iff, List.forall₂_map_right_iff, List.forall₂_map_left_iff,
        List.forall₂_map_right_iff]
      exact List.forall₂_same.2 compiled
    exact congrArg (Value.fragment <$> ·) same
  | relation presence gap =>
    match operands with
    | [l, r] =>
      have left := compiled l (by simp)
      have right := compiled r (by simp)
      simp only [List.map_cons, List.map_nil, call, left, right]
    | [] => rfl
    | [_] => rfl
    | _ :: _ :: _ :: _ => rfl
  | near | beyond => cases joins
  | exact =>
    have word (s : String) :
        operands.map Prod.fst = [.text s] ↔ operands.map Prod.snd = [.text s] := by
      match operands with
      | [v] => simpa [Phrase.ofValue_eq_word] using words v (by simp) s
      | [] => simp
      | _ :: _ :: _ => simp
    by_cases text : ∃ s, operands.map Prod.fst = [.text s]
    · obtain ⟨s, left⟩ := text
      rw [left, (word s).1 left]
    · have left (s : String) : operands.map Prod.fst ≠ [.text s] := fun h => text ⟨s, h⟩
      have right (s : String) : operands.map Prod.snd ≠ [.text s] := fun h => left s ((word s).2 h)
      rw [call_exact_of_ne left, call_exact_of_ne right]

end Operator

namespace Phrase.Settles

variable {p q : Phrase}

theorem word_iff (h : p.Settles q) (s : String) : p = .word s ↔ q = .word s := by
  cases h with
  | same => rfl
  | expression | unjoined | called => exact ⟨nofun, nofun⟩

theorem compile_eq (h : p.Settles q) : p.compile = q.compile := by
  induction h with
  | same => rfl
  | expression _ op _ left right =>
    simp only [compile, left, right, op.join_eq]
  | unjoined => rfl
  | called joins operands made made' compiled =>
    have same := Operator.call_congr joins compiled fun v member => (operands v member).word_iff
    rw [made, made'] at same
    cases same
    rfl

theorem all_same (ps : List Phrase) : List.Forall₂ Settles ps ps :=
  List.forall₂_same.2 fun p _ => .same p

theorem anyOf_eq {ps qs : List Phrase} (h : List.Forall₂ Settles ps qs) : anyOf ps = anyOf qs :=
  anyOf_congr (h.imp fun _ _ settles => settles.compile_eq)

theorem compileAll_eq {ps qs : List Phrase} (h : List.Forall₂ Settles ps qs) :
    compileAll ps = compileAll qs :=
  mapM_congr_forall₂ (h.imp fun _ _ settles => settles.compile_eq)

theorem call_eq {op : Operator} {operands : List (Value × Value)} (joins : op.takesOptions = false)
    (settle : ∀ v ∈ operands, (ofValue v.1).Settles (ofValue v.2)) :
    op.call (operands.map Prod.fst) = op.call (operands.map Prod.snd) :=
  Operator.call_congr joins (fun v member => (settle v member).compile_eq) fun v member =>
    (settle v member).word_iff

end Phrase.Settles

/-- Two results that are related, or twice the same failure. -/
inductive Coincide (R : α → β → Prop) : Except Failure α → Except Failure β → Prop
  | ok {a b} : R a b → Coincide R (.ok a) (.ok b)
  | error (e : Failure) : Coincide R (.error e) (.error e)

namespace Coincide

variable {R : α → β → Prop} {S : γ → δ → Prop}

theorem of_eq {x y : Except Failure α} {P : α → α → Prop} (reflexive : ∀ a, P a a) (same : x = y) :
    Coincide P x y := by
  subst same
  cases x with
  | ok a => exact .ok (reflexive a)
  | error e => exact .error e

theorem eq {x y : Except Failure α} (h : Coincide Eq x y) : x = y := by
  cases h with
  | ok same => exact congrArg _ same
  | error => rfl

theorem bind {x : Except Failure α} {y : Except Failure β} {f : α → Except Failure γ}
    {g : β → Except Failure δ} (h : Coincide R x y) (next : ∀ a b, R a b → Coincide S (f a) (g b)) :
    Coincide S (x >>= f) (y >>= g) := by
  cases h with
  | ok related => exact next _ _ related
  | error e => exact .error e

end Coincide

inductive Event.Settles : Event → Event → Prop
  | same (e : Event) : Settles e e
  | observed {keys keys' : List Phrase} : List.Forall₂ Phrase.Settles keys keys' →
      Settles (.observed keys) (.observed keys')

namespace Run

structure Coincide (R : α → β → Prop) (r : Run α) (r' : Run β) : Prop where
  events : List.Forall₂ Event.Settles r.events r'.events
  result : LoreTree.Coincide R r.result r'.result

namespace Coincide

variable {R : α → β → Prop} {S : γ → δ → Prop} {r : Run α} {r' : Run β}

theorem pure {a : α} {b : β} (related : R a b) : Run.Coincide R (pure a) (pure b) :=
  ⟨.nil, .ok related⟩

theorem lift {x : Except Failure α} {y : Except Failure β} (h : LoreTree.Coincide R x y) :
    Run.Coincide R (liftM x) (liftM y) :=
  ⟨.nil, h⟩

theorem tell (e : Event) : Run.Coincide Eq (Run.tell e) (Run.tell e) :=
  ⟨.cons (.same e) .nil, .ok rfl⟩

/-- What comes next may rely on how both runs got there. -/
theorem bind {f : α → Run γ} {g : β → Run δ} (h : r.Coincide R r')
    (next : ∀ a b, r.result = .ok a → r'.result = .ok b → R a b → (f a).Coincide S (g b)) :
    (r >>= f).Coincide S (r' >>= g) := by
  obtain ⟨events, result⟩ := r
  obtain ⟨events', result'⟩ := r'
  obtain ⟨told, ended⟩ := h
  cases ended with
  | ok related =>
    obtain ⟨more, last⟩ := next _ _ rfl rfl related
    exact ⟨List.rel_append told more, last⟩
  | error e => exact ⟨told, .error e⟩

theorem log_eq (h : r.Coincide R r') : r.log = r'.log := by
  have lines : List.Forall₂ Eq r.log r'.log := by
    refine List.rel_filterMap ?_ h.events
    intro e e' settles
    cases settles with
    | same =>
      cases e.logLine? with
      | none => exact .none
      | some line => exact .some rfl
    | observed => exact .none
  rwa [List.forall₂_eq_eq_eq] at lines

theorem observed (h : r.Coincide R r') :
    List.Forall₂ (List.Forall₂ Phrase.Settles) r.observed r'.observed := by
  refine List.rel_filterMap ?_ h.events
  intro e e' settles
  cases settles with
  | same =>
    cases e with
    | observed keys => exact .some (Phrase.Settles.all_same keys)
    | entered | finished => exact .none
  | observed keys => exact .some keys

end Coincide

end Run

namespace Keys

open Phrase.Settles

theorem joined_settles {keys keys' : List Phrase} (h : List.Forall₂ Phrase.Settles keys keys') :
    Coincide Phrase.Settles (joined keys) (joined keys') := by
  cases h with
  | nil => exact .of_eq .same rfl
  | cons first rest =>
    cases rest with
    | nil => exact .ok first
    | cons second others =>
      have same := anyOf_eq (.cons first (.cons second others))
      exact .of_eq .same (congrArg (Phrase.fragment <$> ·) same)

theorem ofChild_settles {inherited inherited' own own' : List Phrase} {op op' : Operator}
    (above : List.Forall₂ Phrase.Settles inherited inherited') (joins : op.Settles op')
    (given : List.Forall₂ Phrase.Settles own own') :
    Coincide (List.Forall₂ Phrase.Settles) (ofChild inherited op own)
      (ofChild inherited' op' own') := by
  have combined : Coincide (List.Forall₂ Phrase.Settles)
      (do
        let base ← joined inherited
        own.mapM fun key => Phrase.fragment <$> (Phrase.expression base op key).compile)
      (do
        let base ← joined inherited'
        own'.mapM fun key => Phrase.fragment <$> (Phrase.expression base op' key).compile) := by
    refine (joined_settles above).bind fun base base' bases => .of_eq all_same ?_
    refine mapM_congr_forall₂ (given.imp fun key key' keys => ?_)
    rw [(Phrase.Settles.expression bases joins keys).compile_eq]
  cases above with
  | nil => exact .ok given
  | cons first rest =>
    cases given with
    | nil => exact .ok (.cons first rest)
    | cons => exact combined

/-- What a transformation shows and gives, with some operators called. -/
structure Derived.Settles (d d' : Derived) : Prop where
  shown : List.Forall₂ (List.Forall₂ Phrase.Settles) d.shown d'.shown
  result : Coincide (List.Forall₂ Phrase.Settles) d.result d'.result

/-- What an entry makes of the keys that it is given, with some operators called. -/
inductive Base.Settles (given given' : List Phrase) : Base → Base → Prop
  | replace {keys keys' : List Phrase} : List.Forall₂ Phrase.Settles keys keys' →
      Settles given given' (.replace keys) (.replace keys')
  | derive {transform transform' : List Phrase → Derived} :
      (transform given).Settles (transform' given') →
      Settles given given' (.derive transform) (.derive transform')

theorem Base.Settles.resolve {given given' : List Phrase} {b b' : Base}
    (h : b.Settles given given' b') :
    Run.Coincide (List.Forall₂ Phrase.Settles) (b.resolve given) (b'.resolve given') := by
  cases h with
  | replace keys => exact .pure keys
  | derive derived =>
    refine ⟨?_, derived.result⟩
    refine List.forall₂_map_left_iff.2 (List.forall₂_map_right_iff.2 ?_)
    exact derived.shown.imp fun _ _ keys => .observed keys

inductive Edit.Settles : Edit → Edit → Prop
  | same (e : Edit) : Settles e e
  | append {key key' : Except Failure Phrase} : Coincide Phrase.Settles key key' →
      Settles (.append key) (.append key')
  | prepend {key key' : Except Failure Phrase} : Coincide Phrase.Settles key key' →
      Settles (.prepend key) (.prepend key')

theorem exactWord_settles {p q : Phrase} (h : p.Settles q) :
    (exactWord p).Settles (exactWord q) := by
  cases h with
  | same => exact .same _
  | expression left op right => exact .expression left op right
  | unjoined left right => exact .unjoined left right
  | called joins operands made made' => exact .called joins operands made made'

theorem Edit.Settles.run {e e' : Edit} (h : e.Settles e') {keys keys' : List Phrase}
    (given : List.Forall₂ Phrase.Settles keys keys') :
    Run.Coincide (List.Forall₂ Phrase.Settles) (e.run keys) (e'.run keys') := by
  have appended {key key' : Except Failure Phrase} (new : Coincide Phrase.Settles key key') :
      Run.Coincide (List.Forall₂ Phrase.Settles) ((Edit.append key).run keys)
        ((Edit.append key').run keys') :=
    (Run.Coincide.lift new).bind fun _ _ _ _ settles =>
      .pure (List.rel_append given (.cons settles .nil))
  have prepended {key key' : Except Failure Phrase} (new : Coincide Phrase.Settles key key') :
      Run.Coincide (List.Forall₂ Phrase.Settles) ((Edit.prepend key).run keys)
        ((Edit.prepend key').run keys') :=
    (Run.Coincide.lift new).bind fun _ _ _ _ settles => .pure (.cons settles given)
  cases h with
  | append new => exact appended new
  | prepend new => exact prepended new
  | same =>
    cases e with
    | observe => exact ⟨.cons (.observed given) .nil, .ok given⟩
    | drop n =>
      rw [Edit.run, Edit.run, given.length_eq]
      exact .pure (List.forall₂_drop _ given)
    | take n =>
      rw [Edit.run, Edit.run, given.length_eq]
      exact .pure (List.forall₂_take _ given)
    | reverse => exact .pure (List.rel_reverse given)
    | append key => exact appended (.of_eq .same rfl)
    | prepend key => exact prepended (.of_eq .same rfl)
    | alternate =>
      have fragments : Coincide Eq (Phrase.anyOf keys) (Phrase.anyOf keys') :=
        .of_eq (fun _ => rfl) (anyOf_eq given)
      exact (Run.Coincide.lift fragments).bind fun _ _ _ _ same => .pure (same ▸ all_same _)
    | exactWords => exact .pure (List.rel_map (fun _ _ settles => exactWord_settles settles) given)
    | clear => exact .pure .nil

/-- Edits ask for no more than which keys there are and what they compile to. -/
theorem Edit.Settles.runAll {edits edits' : List Edit} (h : List.Forall₂ Edit.Settles edits edits')
    {keys keys' : List Phrase} (given : List.Forall₂ Phrase.Settles keys keys') :
    (Edit.runAll edits keys).Settles (Edit.runAll edits' keys') := by
  have run : Run.Coincide (List.Forall₂ Phrase.Settles) (edits.foldlM Edit.run keys)
      (edits'.foldlM Edit.run keys') := by
    induction h generalizing keys keys' with
    | nil => exact .pure given
    | cons first _ ih =>
      rw [List.foldlM_cons, List.foldlM_cons]
      exact (first.run given).bind fun _ _ _ _ next => ih next
  exact ⟨run.observed, run.result⟩

end Keys

theorem Operator.Settles.getD {o o' : Option Operator} {op op' : Operator}
    (h : Option.Rel Operator.Settles o o') (inherited : op.Settles op') :
    (o.getD op).Settles (o'.getD op') := by
  cases h with
  | none => exact inherited
  | some settles => exact settles

/-- An entry of one configuration and one of another that differ in operators which are called. What
they make of inherited keys is compared on the keys that do come to them. -/
structure Lineage.Settles (c c' : Config) (l l' : Lineage) : Prop where
  texts : l.entry.SameTexts l'.entry
  settings : l.entry.SameSettings l'.entry
  keys : List.Forall₂ Phrase.Settles l.entry.keys l'.entry.keys
  ownOp : Option.Rel Operator.Settles l.entry.ownOp l'.entry.ownOp
  childOp : Option.Rel Operator.Settles l.entry.childOp l'.entry.childOp
  base {given given' : List Phrase} : c.effectiveKeys l.ancestors = .ok given →
    c'.effectiveKeys l'.ancestors = .ok given' → List.Forall₂ Phrase.Settles given given' →
    Option.Rel (Keys.Base.Settles given given') l.entry.base l'.entry.base

structure Config.Settles (c c' : Config) : Prop where
  entries : c.Matches (Lineage.Settles c c') c'
  childOp : c.childOp.Settles c'.childOp
  orderByKeyLocations : c.orderByKeyLocations = c'.orderByKeyLocations
  strategy : c.strategy = c'.strategy
  context : c.context = c'.context
  entry : c.entry = c'.entry
  reversed : c.reversed = c'.reversed

structure Inherited.Settles (u u' : Inherited) : Prop where
  state : u.state = u'.state
  keys : List.Forall₂ Phrase.Settles u.keys u'.keys
  op : u.op.Settles u'.op
  strategy : u.strategy = u'.strategy
  path : u.path = u'.path

structure Site.Settles (s s' : Site) : Prop extends Site.SameSettings s s' where
  name : s.name = s'.name
  keys : List.Forall₂ Phrase.Settles s.keys s'.keys
  compiled : s.compiled = s'.compiled
  childOp : s.childOp.Settles s'.childOp

section Walk

variable {c c' : Config} {l l' : Lineage} {u u' : Inherited} {s s' : Site}

theorem Lineage.Settles.resolveKeys (h : l.Settles c c' l')
    (reached : Reaches c.inherited l.ancestors u) (reached' : Reaches c'.inherited l'.ancestors u')
    (above : u.Settles u') {op op' : Operator} (joins : op.Settles op') :
    (l.entry.resolveKeys u.keys op).Coincide (List.Forall₂ Phrase.Settles)
      (l'.entry.resolveKeys u'.keys op') := by
  have bases := h.base reached.effectiveKeys_above reached'.effectiveKeys_above above.keys
  have joined {r r' : Run (List Phrase)} (base : r.Coincide (List.Forall₂ Phrase.Settles) r') :
      (r >>= fun base => liftM (Keys.ofChild base op l.entry.keys)).Coincide
        (List.Forall₂ Phrase.Settles)
        (r' >>= fun base => liftM (Keys.ofChild base op' l'.entry.keys)) :=
    base.bind fun _ _ _ _ settle => .lift (Keys.ofChild_settles settle joins h.keys)
  unfold Entry.resolveKeys
  generalize l.entry.base = base, l'.entry.base = base' at bases ⊢
  cases bases with
  | none => exact joined (.pure above.keys)
  | some base => exact joined base.resolve

theorem Lineage.Settles.visit (h : l.Settles c c' l')
    (reached : Reaches c.inherited l.ancestors u) (reached' : Reaches c'.inherited l'.ancestors u')
    (above : u.Settles u') : (l.entry.visit u).Coincide Site.Settles (l'.entry.visit u') := by
  have joins := Operator.Settles.getD h.ownOp above.op
  unfold Entry.visit
  refine (h.resolveKeys reached reached' above joins).bind fun keys keys' _ _ settle => ?_
  rw [Phrase.Settles.compileAll_eq settle, h.settings.strategy, h.settings.context,
    h.settings.entry, h.texts.name, h.texts.texts, above.path, above.state, above.strategy]
  have fragments : Coincide Eq (Phrase.compileAll keys') (Phrase.compileAll keys') :=
    .of_eq (fun _ => rfl) rfl
  refine (Run.Coincide.lift fragments).bind fun compiled _ _ _ same => ?_
  subst same
  refine (Run.Coincide.tell _).bind fun _ _ _ _ _ => .pure ?_
  have empty : keys = [] ↔ keys' = [] := by
    rw [← List.length_eq_zero_iff, settle.length_eq, List.length_eq_zero_iff]
  refine ⟨⟨rfl, rfl, rfl, ?_⟩, rfl, settle, rfl, Operator.Settles.getD h.childOp joins⟩
  rw [Entry.forced_congr empty]

theorem Site.Settles.records_eq (h : s.Settles s') : s.records = s'.records := by
  have each (count index : Nat) (text : Option String) :
      s.record count index text = s'.record count index text := by
    unfold Site.record Site.recordName
    rw [h.name, h.compiled, h.state]
  simp only [Site.records, h.texts, each]

theorem Site.Settles.handDown (h : s.Settles s') :
    Coincide Inherited.Settles s.handDown s'.handDown := by
  have next : Coincide Eq (s.strategy.extend s.state s.config)
      (s'.strategy.extend s'.state s'.config) := by
    rw [h.strategy, h.state, h.config]
    exact .of_eq (fun _ => rfl) rfl
  refine next.bind fun k k' same => .ok ?_
  subst same
  exact ⟨by rw [h.state, h.strategy], h.keys, h.childOp, h.strategy, congrArg (· ++ " - ") h.name⟩

end Walk

namespace Build

mutual

theorem tree_settles {c c' : Config} {path path' : List Entry} {u u' : Inherited}
    (reached : Reaches c.inherited path u) (reached' : Reaches c'.inherited path' u')
    (above : u.Settles u') : (t t' : RoseTree Entry) →
    RoseTree.Matches (Lineage.Settles c c') path path' t t' →
    (tree u t).Coincide Eq (tree u' t')
  | .node e children, .node e' children', matched => by
    obtain ⟨related, below⟩ := matched
    rw [tree, tree]
    refine (related.visit reached reached' above).bind fun s s' visited visited' sites => ?_
    rw [sites.records_eq]
    have own : Coincide Eq s'.records s'.records := .of_eq (fun _ => rfl) rfl
    refine (Run.Coincide.lift own).bind fun first _ _ _ same => ?_
    subst same
    cases below with
    | nil => exact .pure rfl
    | cons head tail =>
      refine (Run.Coincide.lift sites.handDown).bind fun v v' handed handed' next => ?_
      refine (forest_settles (.child reached visited handed) (.child reached' visited' handed') next
        _ _ (.cons head tail)).bind fun rest _ _ _ same => ?_
      subst same
      exact .pure rfl

theorem forest_settles {c c' : Config} {path path' : List Entry} {u u' : Inherited}
    (reached : Reaches c.inherited path u) (reached' : Reaches c'.inherited path' u')
    (above : u.Settles u') : (ts ts' : List (RoseTree Entry)) →
    RoseTree.ForestMatches (Lineage.Settles c c') path path' ts ts' →
    (forest u ts).Coincide Eq (forest u' ts')
  | [], [], _ => .pure rfl
  | t :: ts, t' :: ts', matched => by
    obtain _ | ⟨head, tail⟩ := matched
    rw [forest, forest]
    refine (tree_settles reached reached' above t t' head).bind fun first _ _ _ same => ?_
    subst same
    refine (forest_settles reached reached' above ts ts' tail).bind fun others _ _ _ same => ?_
    subst same
    exact .pure rfl

end

end Build

theorem RoseTree.ForestMatches.length_eq {R : Lineage → Lineage → Prop} {path path' : List Entry} :
    (ts ts' : List (RoseTree Entry)) → ForestMatches R path path' ts ts' → ts.length = ts'.length
  | [], [], _ => rfl
  | _ :: ts, _ :: ts', matched => by
    obtain _ | ⟨_, tail⟩ := matched
    exact congrArg Nat.succ (length_eq ts ts' tail)

theorem Config.Settles.inherited {c c' : Config} (h : c.Settles c') :
    c.inherited.Settles c'.inherited where
  state := by
    change c.initialState = c'.initialState
    rw [initialState, initialState, h.strategy, h.context, h.entry]
  keys := .nil
  op := h.childOp
  strategy := congrArg (·.getD Strategy.standard) h.strategy
  path := rfl

theorem Config.Settles.build {c c' : Config} (h : c.Settles c') :
    c.build.Coincide Eq c'.build := by
  have roots : c.entries.length = c'.entries.length := h.entries.length_eq _ _
  have walked := Build.forest_settles .root .root h.inherited c.entries c'.entries h.entries
  have recorded : c.records.Coincide Eq c'.records := by
    unfold Config.records
    rw [h.reversed]
    refine walked.bind fun all _ _ _ same => ?_
    subst same
    exact .pure rfl
  unfold Config.build
  refine recorded.bind fun records _ _ _ same => ?_
  subst same
  rw [roots, h.orderByKeyLocations]
  exact (Run.Coincide.tell _).bind fun _ _ _ _ _ => .pure rfl

/-- An operator that waits for options means its call without arguments. A call with such operators
inside of its operands gives the same, or fails alike; edits with such operators in the keys that
they add give the same up to such operators; and a build with any of them called instead gives the
same lorebook or the same failure, has the same log, and shows the same keys up to such operators. -/
theorem waiting_operators_mean_default_calls :
    (∀ (op : Operator) (operands : List (Value × Value)), op.takesOptions = false →
      (∀ v ∈ operands, (Phrase.ofValue v.1).Settles (Phrase.ofValue v.2)) →
      op.call (operands.map Prod.fst) = op.call (operands.map Prod.snd)) ∧
    (∀ edits edits' : List Keys.Edit, List.Forall₂ Keys.Edit.Settles edits edits' →
      ∀ given given' : List Phrase, List.Forall₂ Phrase.Settles given given' →
      (Keys.Edit.runAll edits given).Settles (Keys.Edit.runAll edits' given')) ∧
    ∀ c c' : Config, c.Settles c' →
      c'.build.result = c.build.result ∧ c'.build.log = c.build.log ∧
      List.Forall₂ (List.Forall₂ Phrase.Settles) c.build.observed c'.build.observed := by
  refine ⟨fun _ _ joins => Phrase.Settles.call_eq joins, ?_, ?_⟩
  · intro edits edits' settle given given' keys
    exact Keys.Edit.Settles.runAll settle keys
  · intro c c' settle
    have builds := settle.build
    exact ⟨builds.result.eq.symm, builds.log_eq.symm, builds.observed⟩

/-- Operators in expressions, for children, for an entry and for the whole lorebook, in a key that is
added and in one that replaces the inherited ones. -/
def waitingBook (inside outside : Operator) : Config where
  entries :=
    [.node
      { name := "Story", texts := .one "s", childOp := some outside
        keys := [.expression (.expression (.word "a") inside (.native "b")) .and (.word "c")] }
      [.node
        { name := "Kid", keys := [.word "kid"], texts := .one "k"
          base := some (.derive (Keys.Edit.runAll
            [.observe, .append (.ok (.expression (.word "x") outside (.word "y")))])) } [],
       .node
        { name := "Cat", keys := [.word "cat"], texts := .one "c", ownOp := some inside
          base := some (.replace [.expression (.word "d") inside (.word "e")]) } []]]
  childOp := inside

theorem waiting_operators_mean_default_calls_everywhere :
    let waiting := waitingBook .near .beyond
    let called := waitingBook (.within 0 10 true) (.past 10 true)
    waiting.Settles called ∧ called.build.result = waiting.build.result ∧
      called.build.log = waiting.build.log ∧
      waiting.build.result.toOption.map (fun book => book.records.map (·.keys.length)) =
        some [1, 1, 1] ∧
      Operator.alternation.call [.tuple [.text "a", .operator .near, .text "b"], .text "c"] =
        Operator.alternation.call
          [.tuple [.text "a", .operator (.within 0 10 true), .text "b"], .text "c"] := by
  intro waiting called
  have near : Operator.near.Settles (.within 0 10 true) := .called rfl
  have beyond : Operator.beyond.Settles (.past 10 true) := .called rfl
  have edits := waiting_operators_mean_default_calls.2.1
    [.observe, .append (.ok (.expression (.word "x") .beyond (.word "y")))]
    [.observe, .append (.ok (.expression (.word "x") (.past 10 true) (.word "y")))]
    (.cons (.same _) (.cons (.append (.ok (.expression (.same _) beyond (.same _)))) .nil))
  have settle : waiting.Settles called := by
    refine ⟨.cons (.node ?story (.cons (.node ?kid .nil) (.cons (.node ?cat .nil) .nil))) .nil,
      near, rfl, rfl, rfl, rfl, rfl⟩
    case story =>
      refine ⟨⟨rfl, rfl⟩, ⟨rfl, rfl, rfl⟩, .cons ?_ .nil, .none, .some beyond, fun _ _ _ => .none⟩
      exact .expression (.expression (.same _) near (.same _)) (.same _) (.same _)
    case kid =>
      refine ⟨⟨rfl, rfl⟩, ⟨rfl, rfl, rfl⟩, .cons (.same _) .nil, .none, .none, ?_⟩
      intro given given' _ _ keys
      exact .some (.derive (edits given given' keys))
    case cat =>
      refine ⟨⟨rfl, rfl⟩, ⟨rfl, rfl, rfl⟩, .cons (.same _) .nil, .some near, .none, ?_⟩
      intro given given' _ _ _
      exact .some (.replace (.cons (.expression (.same _) near (.same _)) .nil))
  obtain ⟨results, logs, -⟩ := waiting_operators_mean_default_calls.2.2 waiting called settle
  refine ⟨settle, results, logs, rfl, ?_⟩
  refine waiting_operators_mean_default_calls.1 .alternation
    [(.tuple [.text "a", .operator .near, .text "b"],
      .tuple [.text "a", .operator (.within 0 10 true), .text "b"]), (.text "c", .text "c")] rfl ?_
  intro v member
  simp only [List.mem_cons, List.not_mem_nil, or_false] at member
  rcases member with rfl | rfl
  · exact .expression (.same _) near (.same _)
  · exact .same _

end LoreTree
