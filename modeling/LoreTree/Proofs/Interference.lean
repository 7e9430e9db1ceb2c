import LoreTree.Proofs.KeyFlow
/-!
Two builds side by side. The walks over two forests of one shape keep in step whatever each visit
keeps in step. Keys, names and texts do so without a look at the settings; settings do so without a
look at the keys, except that entries without keys are forced active.
-/

namespace LoreTree

namespace RoseTree

mutual

/-- Trees of one shape with related lineages at every place. -/
inductive Matches (R : Lineage → Lineage → Prop) :
    List Entry → List Entry → RoseTree Entry → RoseTree Entry → Prop
  | node {path path' e e' children children'} : R ⟨path, e⟩ ⟨path', e'⟩ →
      ForestMatches R (path ++ [e]) (path' ++ [e']) children children' →
      Matches R path path' (.node e children) (.node e' children')

inductive ForestMatches (R : Lineage → Lineage → Prop) :
    List Entry → List Entry → List (RoseTree Entry) → List (RoseTree Entry) → Prop
  | nil {path path'} : ForestMatches R path path' [] []
  | cons {path path' t t' ts ts'} : Matches R path path' t t' →
      ForestMatches R path path' ts ts' → ForestMatches R path path' (t :: ts) (t' :: ts')

end

end RoseTree

def Config.Matches (R : Lineage → Lineage → Prop) (c c' : Config) : Prop :=
  RoseTree.ForestMatches R [] [] c.entries c'.entries

theorem forall₂_of_common {α β γ : Type} {A : α → β → Prop} {B : α → γ → Prop} {P : β → γ → Prop}
    {xs : List α} {ys : List β} {zs : List γ} (first : List.Forall₂ A xs ys)
    (second : List.Forall₂ B xs zs) (both : ∀ x y z, A x y → B x z → P y z) :
    List.Forall₂ P ys zs := by
  induction first generalizing zs with
  | nil =>
    cases second
    exact .nil
  | cons head _ ih =>
    cases second with
    | cons head' tail' => exact .cons (both _ _ _ head head') (ih tail')

/-- What two walks keep in step: relations between what is inherited, between sites and between
records, each of which follows from the one before it. -/
structure Lockstep (start start' : Inherited) (R : Lineage → Lineage → Prop) where
  above : Inherited → Inherited → Prop
  site : Site → Site → Prop
  record : Record → Record → Prop
  visit {l l' : Lineage} {u u' : Inherited} {s s' : Site} : R l l' →
    Reaches start l.ancestors u → Reaches start' l'.ancestors u' → above u u' →
    Visited l.entry u s → Visited l'.entry u' s' → site s s'
  texts {s s' : Site} : site s s' → s.texts = s'.texts
  write {s s' : Site} {count index : Nat} {text : Option String} {r r' : Record} : site s s' →
    s.record count index text = .ok r → s'.record count index text = .ok r' → record r r'
  hand {s s' : Site} {u u' : Inherited} : site s s' →
    s.handDown = .ok u → s'.handDown = .ok u' → above u u'

namespace Lockstep

variable {start start' : Inherited} {R : Lineage → Lineage → Prop}

theorem block (k : Lockstep start start' R) {s s' : Site} (same : k.site s s')
    {rs rs' : List Record} (h : s.records = .ok rs) (h' : s'.records = .ok rs') :
    List.Forall₂ k.record rs rs' := by
  obtain ⟨items, given, h⟩ := bind_eq_ok.1 h
  obtain ⟨items', given', h'⟩ := bind_eq_ok.1 h'
  rw [k.texts same, given'] at given
  cases given
  refine forall₂_of_common (mapM_eq_ok.1 h) (mapM_eq_ok.1 h') ?_
  intro item r r' wrote wrote'
  exact k.write same wrote wrote'

mutual

theorem tree (k : Lockstep start start' R) {path path' : List Entry} {u u' : Inherited}
    (reached : Reaches start path u) (reached' : Reaches start' path' u') (same : k.above u u') :
    (t t' : RoseTree Entry) → RoseTree.Matches R path path' t t' → {rs rs' : List Record} →
      (Build.tree u t).result = .ok rs → (Build.tree u' t').result = .ok rs' →
      List.Forall₂ k.record rs rs'
  | .node e children, .node e' children', matched, rs, rs', h, h' => by
    obtain ⟨related, below_matched⟩ := matched
    simp only [Build.tree, Run.result_bind, Run.result_lift] at h h'
    obtain ⟨s, visited, h⟩ := bind_eq_ok.1 h
    obtain ⟨s', visited', h'⟩ := bind_eq_ok.1 h'
    obtain ⟨own, written, h⟩ := bind_eq_ok.1 h
    obtain ⟨own', written', h'⟩ := bind_eq_ok.1 h'
    have sites : k.site s s' := k.visit related reached
      reached' same (Entry.visited visited) (Entry.visited visited')
    have blocks := k.block sites written written'
    cases children with
    | nil =>
      cases children' with
      | nil =>
        cases h
        cases h'
        exact blocks
      | cons => cases below_matched
    | cons child children =>
      cases children' with
      | nil => cases below_matched
      | cons child' children' =>
        simp only [List.isEmpty_cons, Bool.false_eq_true, if_false, Run.result_bind,
          Run.result_lift, Run.result_pure] at h h'
        obtain ⟨below, handed, h⟩ := bind_eq_ok.1 h
        obtain ⟨below', handed', h'⟩ := bind_eq_ok.1 h'
        obtain ⟨rest, hrest, h⟩ := bind_eq_ok.1 h
        obtain ⟨rest', hrest', h'⟩ := bind_eq_ok.1 h'
        cases h
        cases h'
        have others := forest k (.child reached visited handed) (.child reached' visited' handed')
          (k.hand sites handed handed') (child :: children) (child' :: children') below_matched
          hrest hrest'
        exact List.rel_append blocks others

theorem forest (k : Lockstep start start' R) {path path' : List Entry} {u u' : Inherited}
    (reached : Reaches start path u) (reached' : Reaches start' path' u') (same : k.above u u') :
    (ts ts' : List (RoseTree Entry)) → RoseTree.ForestMatches R path path' ts ts' →
      {rs rs' : List Record} → (Build.forest u ts).result = .ok rs →
      (Build.forest u' ts').result = .ok rs' → List.Forall₂ k.record rs rs'
  | [], [], _, rs, rs', h, h' => by
    cases h
    cases h'
    exact .nil
  | t :: ts, t' :: ts', matched, rs, rs', h, h' => by
    obtain _ | ⟨head, tail⟩ := matched
    simp only [Build.forest, Run.result_bind, Run.result_pure] at h h'
    obtain ⟨first, hfirst, h⟩ := bind_eq_ok.1 h
    obtain ⟨first', hfirst', h'⟩ := bind_eq_ok.1 h'
    obtain ⟨others, hothers, h⟩ := bind_eq_ok.1 h
    obtain ⟨others', hothers', h'⟩ := bind_eq_ok.1 h'
    cases h
    cases h'
    exact List.rel_append (tree k reached reached' same t t' head hfirst hfirst')
      (forest k reached reached' same ts ts' tail hothers hothers')

end

/-- Two builds whose roots are in step give records that are related one by one. -/
theorem records {c c' : Config} (k : Lockstep c.inherited c'.inherited R)
    (root : k.above c.inherited c'.inherited) (matched : c.Matches R c')
    (order : c.reversed = c'.reversed) {book book' : Lorebook} (built : c.build.result = .ok book)
    (built' : c'.build.result = .ok book') : List.Forall₂ k.record book.records book'.records := by
  obtain ⟨all, walked, rfl⟩ := Config.build_eq_ok.1 built
  obtain ⟨all', walked', rfl⟩ := Config.build_eq_ok.1 built'
  have forward := k.forest .root .root root c.entries c'.entries matched walked walked'
  rw [order]
  cases c'.reversed with
  | false => exact forward
  | true => exact List.forall₂_reverse_iff.2 forward

end Lockstep

structure Entry.SameTexts (e e' : Entry) : Prop where
  name : e.name = e'.name
  texts : e.texts = e'.texts

structure Entry.SameKeys (e e' : Entry) : Prop where
  keys : e.keys = e'.keys
  base : e.base = e'.base
  ownOp : e.ownOp = e'.ownOp
  childOp : e.childOp = e'.childOp

structure Entry.SameSettings (e e' : Entry) : Prop where
  strategy : e.strategy = e'.strategy
  context : e.context = e'.context
  entry : e.entry = e'.entry

/-- What a record takes from names, texts and keys. -/
structure Record.SameWords (r r' : Record) : Prop where
  displayName : r.displayName = r'.displayName
  text : r.text = r'.text
  keys : r.keys = r'.keys

structure Record.SameSettings (r r' : Record) : Prop where
  context : r.context = r'.context
  entry : r.entry = r'.entry

structure Site.SameWords (s s' : Site) : Prop where
  name : s.name = s'.name
  texts : s.texts = s'.texts
  keys : s.keys = s'.keys
  compiled : s.compiled = s'.compiled
  childOp : s.childOp = s'.childOp

structure Site.SameSettings (s s' : Site) : Prop where
  texts : s.texts = s'.texts
  strategy : s.strategy = s'.strategy
  config : s.config = s'.config
  state : s.state = s'.state

def Lockstep.words (start start' : Inherited) :
    Lockstep start start' fun l l' => l.entry.SameTexts l'.entry ∧ l.entry.SameKeys l'.entry where
  above u u' := u.path = u'.path ∧ u.keys = u'.keys ∧ u.op = u'.op
  site := Site.SameWords
  record := Record.SameWords
  visit := by
    rintro l l' u u' s s' ⟨texts, words⟩ - - ⟨path, keys, op⟩ visited visited'
    have same_keys : s.keys = s'.keys := by
      have resolved := visited.keys
      rw [Entry.resolveKeys, words.base, words.keys, words.ownOp, keys, op] at resolved
      exact Except.ok.inj (resolved.symm.trans visited'.keys)
    have same_compiled : s.compiled = s'.compiled := by
      have compiled := visited.compiled
      rw [same_keys, visited'.compiled] at compiled
      exact (Except.ok.inj compiled).symm
    refine ⟨?_, ?_, same_keys, same_compiled, ?_⟩
    · rw [visited.name, visited'.name, path, texts.name]
    · rw [visited.texts, visited'.texts, texts.texts]
    · rw [visited.childOp, visited'.childOp, words.childOp, words.ownOp, op]
  texts same := same.texts
  write := by
    intro s s' count index text r r' same wrote wrote'
    cases text with
    | none => cases wrote
    | some text =>
      cases wrote
      cases wrote'
      refine ⟨?_, rfl, congrArg (List.map Fragment.key) same.compiled⟩
      change s.recordName count index = s'.recordName count index
      rw [Site.recordName, same.name]
      rfl
  hand := by
    intro s s' u u' same handed handed'
    obtain ⟨next, -, rfl⟩ := Site.handDown_eq_ok handed
    obtain ⟨next', -, rfl⟩ := Site.handDown_eq_ok handed'
    exact ⟨congrArg (· ++ " - ") same.name, same.keys, same.childOp⟩

theorem Entry.forced_congr {keys keys' : List Phrase} (empty : keys = [] ↔ keys' = [])
    (c : Settings .entry) : Entry.forced keys c = Entry.forced keys' c := by
  rw [Entry.forced, Entry.forced]
  exact if_congr (by rw [List.isEmpty_iff, List.isEmpty_iff, empty]) rfl rfl

/-- All that settings take from keys is whether there are any. -/
def Lockstep.settings (c c' : Config) :
    Lockstep c.inherited c'.inherited fun l l' =>
      (l.entry.SameTexts l'.entry ∧ l.entry.SameSettings l'.entry) ∧
        (c.effectiveKeys l.entries = .ok [] ↔ c'.effectiveKeys l'.entries = .ok []) where
  above u u' := u.state = u'.state ∧ u.strategy = u'.strategy
  site := Site.SameSettings
  record := Record.SameSettings
  visit := by
    rintro l l' u u' s s' ⟨⟨texts, settings⟩, empty⟩ reached reached' ⟨state, strategy⟩ visited
      visited'
    have same_empty : s.keys = [] ↔ s'.keys = [] := by
      rw [Lineage.entries, reached.effectiveKeys visited, Lineage.entries,
        reached'.effectiveKeys visited', Except.ok.injEq, Except.ok.injEq] at empty
      exact empty
    have same_strategy : s.strategy = s'.strategy := by
      rw [visited.strategy, visited'.strategy, settings.strategy, strategy]
    have same_config : s.config = s'.config := by
      rw [visited.config, visited'.config, same_strategy, state, settings.context, settings.entry]
    refine ⟨?_, same_strategy, same_config, ?_⟩
    · rw [visited.texts, visited'.texts, texts.texts]
    · rw [visited.state, visited'.state, same_config, state, Entry.forced_congr same_empty]
  texts same := same.texts
  write := by
    intro s s' count index text r r' same wrote wrote'
    have shows := Site.record_shows wrote
    have shows' := Site.record_shows wrote'
    exact ⟨by rw [shows.context, shows'.context, same.state],
      by rw [shows.entry, shows'.entry, same.state]⟩
  hand := by
    intro s s' u u' same handed handed'
    obtain ⟨next, extended, rfl⟩ := Site.handDown_eq_ok handed
    obtain ⟨next', extended', rfl⟩ := Site.handDown_eq_ok handed'
    rw [same.strategy, same.state, same.config, extended'] at extended
    cases extended
    exact ⟨by rw [same.state, same.strategy], same.strategy⟩

/-- Builds of the same shape and texts: with the same keys and operators their records have the same
names, texts and keys whatever the settings are, and with the same strategies and overrides the same
settings whatever the keys are, as long as the same entries have none. -/
theorem keys_and_settings_apart {c c' : Config} {book book' : Lorebook}
    (built : c.build.result = .ok book) (built' : c'.build.result = .ok book')
    (order : c.reversed = c'.reversed) :
    (c.childOp = c'.childOp →
      c.Matches (fun l l' => l.entry.SameTexts l'.entry ∧ l.entry.SameKeys l'.entry) c' →
      List.Forall₂ Record.SameWords book.records book'.records) ∧
    (c.strategy = c'.strategy → c.context = c'.context → c.entry = c'.entry →
      c.Matches (fun l l' => (l.entry.SameTexts l'.entry ∧ l.entry.SameSettings l'.entry) ∧
        (c.effectiveKeys l.entries = .ok [] ↔ c'.effectiveKeys l'.entries = .ok [])) c' →
      List.Forall₂ Record.SameSettings book.records book'.records) := by
  constructor
  · intro op matched
    have root : (Lockstep.words c.inherited c'.inherited).above c.inherited c'.inherited :=
      ⟨rfl, rfl, op⟩
    exact (Lockstep.words _ _).records root matched order built built'
  · intro strategy context entry matched
    have state : c.initialState = c'.initialState := by
      rw [Config.initialState, Config.initialState, strategy, context, entry]
    have root : (Lockstep.settings c c').above c.inherited c'.inherited :=
      ⟨state, congrArg (·.getD .standard) strategy⟩
    exact (Lockstep.settings c c').records root matched order built built'

/-- An entry with two below it, one of which drops all inherited keys. -/
def twoLevelBook (keys : List Phrase) (childOp : Operator) (strategy : Option Strategy) : Config where
  entries :=
    [.node { name := "Story", keys, texts := .one "s", strategy }
      [.node { name := "Kid", keys := [.word "kid"], texts := .many [some "k", some "l"] } [],
       .node { name := "Cat", texts := .one "c", base := some (.replace []) } []]]
  childOp
  reversed := true

def steppedStrategy : Strategy :=
  ⟨.made 1, .depthDelta (.int 1) (.int 1024), {}⟩

theorem keys_and_settings_apart_twoLevel :
    ∃ book restyled rekeyed : Lorebook,
      (twoLevelBook [.word "a"] .and none).build.result = .ok book ∧
      (twoLevelBook [.word "a"] .and (some steppedStrategy)).build.result = .ok restyled ∧
      (twoLevelBook [.native "b|c", .word "d"] .without none).build.result = .ok rekeyed ∧
      book.records.map (·.context.budgetPriority) = [400, 400, 400, 400] ∧
      restyled.records.map (·.context.budgetPriority) = [401, 401, 401, 400] ∧
      List.Forall₂ Record.SameWords book.records restyled.records ∧
      List.Forall₂ Record.SameSettings book.records rekeyed.records := by
  obtain ⟨book, built⟩ : ∃ book, (twoLevelBook [.word "a"] .and none).build.result = .ok book :=
    ⟨_, rfl⟩
  obtain ⟨restyled, styled⟩ : ∃ restyled,
      (twoLevelBook [.word "a"] .and (some steppedStrategy)).build.result = .ok restyled := ⟨_, rfl⟩
  obtain ⟨rekeyed, keyed⟩ : ∃ rekeyed,
      (twoLevelBook [.native "b|c", .word "d"] .without none).build.result = .ok rekeyed := ⟨_, rfl⟩
  have priorities {c : Config} {b : Lorebook} (h : c.build.result = .ok b) :
      b.records.map (·.context.budgetPriority) =
        (c.build.result.toOption.map fun b => b.records.map (·.context.budgetPriority)).getD [] := by
    rw [h]
    rfl
  refine ⟨book, restyled, rekeyed, built, styled, keyed, ?_, ?_, ?_, ?_⟩
  · rw [priorities built]
    rfl
  · rw [priorities styled]
    decide +kernel
  · refine (keys_and_settings_apart built styled rfl).1 rfl ?_
    refine .cons (.node ?_ (.cons (.node ?_ .nil) (.cons (.node ?_ .nil) .nil))) .nil
    all_goals exact ⟨⟨rfl, rfl⟩, ⟨rfl, rfl, rfl, rfl⟩⟩
  · refine (keys_and_settings_apart built keyed rfl).2 rfl rfl rfl ?_
    refine .cons (.node ?_ (.cons (.node ?_ .nil) (.cons (.node ?_ .nil) .nil))) .nil
    all_goals refine ⟨⟨⟨rfl, rfl⟩, ⟨rfl, rfl, rfl⟩⟩, ?_⟩
    · exact iff_of_false nofun nofun
    · exact iff_of_false nofun nofun
    · exact iff_of_true rfl rfl

end LoreTree
