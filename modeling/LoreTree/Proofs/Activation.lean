import LoreTree.Proofs.KeyFlow
import LoreTree.Proofs.SettingFlow
/-!
Forced activation. An entry without keys is always active; whether the entries below it are active
too depends on whether its own configuration says otherwise, because that configuration is merged
once more over what is handed down.
-/

namespace LoreTree

/-- What a layer sets the activation to, by the overrides of the entry or else by its strategy. -/
def Layer.activation (l : Layer) : Option Bool :=
  (l.entry.value .forceActivation).or (l.strategy.config.value .forceActivation)

def Config.Keyless (c : Config) (layers : List Layer) : Prop :=
  c.effectiveKeys (layers.map Layer.entry) = .ok []

/-- The activation that a keyless entry is forced to lasts down to the end of the way below it: the
entry does not unset it, or an entry on the way has no keys either. -/
def Config.ForcedAlong (c : Config) (front : List Layer) (p : Layer) (way : List Layer) : Prop :=
  p.activation ≠ some false ∨ ∃ w, w ≠ [] ∧ w <+: way ∧ c.Keyless (front ++ p :: w)

theorem Layer.map_entry_stack (inherited : Strategy) (path : List Entry) :
    (Layer.stack inherited path).map Layer.entry = path := by
  induction path generalizing inherited with
  | nil => rfl
  | cons e path ih => exact congrArg _ (ih _)

section Walk

variable {c : Config} {path : List Entry} {above : Inherited} {e : Entry} {site : Site}
  {front way : List Layer} {p x : Layer}

theorem Visited.activation_eq (visited : Visited e above site) :
    site.config.value .forceActivation = (Layer.mk e site.strategy).activation := by
  rw [visited.value_config, show Setting.forceActivation.isShifted = false from rfl,
    Bool.and_false]
  rfl

theorem Reaches.keyless_iff (reached : Reaches c.inherited path above)
    (visited : Visited e above site) (split : c.layers (path ++ [e]) = front) :
    c.Keyless front ↔ site.keys = [] := by
  have entries : front.map Layer.entry = path ++ [e] := by
    rw [← split]
    exact Layer.map_entry_stack _ _
  rw [Config.Keyless, entries, reached.effectiveKeys visited]
  exact ⟨fun h => Except.ok.inj h, fun h => congrArg _ h⟩

theorem forcedAlong_concat :
    c.ForcedAlong front p (way ++ [x]) ↔
      c.ForcedAlong front p way ∨ c.Keyless (front ++ p :: (way ++ [x])) := by
  constructor
  · rintro (free | ⟨w, ne, le, keyless⟩)
    · exact .inl (.inl free)
    · rcases List.prefix_concat_iff.1 le with rfl | le
      · exact .inr keyless
      · exact .inl (.inr ⟨w, ne, le, keyless⟩)
  · rintro ((free | ⟨w, ne, le, keyless⟩) | keyless)
    · exact .inl free
    · exact .inr ⟨w, ne, le.trans (List.prefix_append _ _), keyless⟩
    · exact .inr ⟨_, by simp, List.prefix_rfl, keyless⟩

/-- On the way below a keyless entry a visited entry without an activation of its own shows the
inherited one, unless it has no keys. -/
theorem activation_visited (reached : Reaches c.inherited path above)
    (visited : Visited e above site)
    (split : c.layers (path ++ [e]) = front ++ p :: (way ++ [x])) (unset : x.activation = none)
    (inherited : above.state.value .forceActivation = true ↔ c.ForcedAlong front p way) :
    site.config.value .forceActivation = none ∧
      (site.state.value .forceActivation = true ↔ c.ForcedAlong front p (way ++ [x])) := by
  have grown := split.trans (List.append_assoc front (p :: way) [x]).symm
  have last : x = ⟨e, site.strategy⟩ := (reached.layers_eq_concat visited grown).2
  have none_set : site.config.value .forceActivation = none := by
    rw [visited.activation_eq, ← last, unset]
  refine ⟨none_set, ?_⟩
  rw [visited.value_forceActivation, none_set, Option.getD_none, Bool.or_eq_true, inherited,
    List.isEmpty_iff, forcedAlong_concat, reached.keyless_iff visited split]
  exact or_comm

/-- Wherever the walk is on the way below a keyless entry, what is inherited is forced exactly if
the force lasts that far. -/
theorem Reaches.activation (reached : Reaches c.inherited path above)
    (split : c.layers path = front ++ p :: way) (keyless : c.Keyless (front ++ [p]))
    (unset : ∀ l ∈ way, l.activation = none) :
    above.state.value .forceActivation = true ↔ c.ForcedAlong front p way := by
  induction reached generalizing way with
  | root => simp [Config.layers, Layer.stack] at split
  | @child path above e site below reached visited handed ih =>
    have made := Entry.visited visited
    rw [Site.value_handDown handed rfl]
    rcases List.eq_nil_or_concat way with rfl | ⟨way, x, rfl⟩
    · -- the keyless entry itself: its own configuration comes last
      have last : p = ⟨e, site.strategy⟩ := (reached.layers_eq_concat made split).2
      have empty : site.keys = [] := (reached.keyless_iff made split).1 keyless
      rw [made.value_forceActivation, empty, made.activation_eq, ← last]
      constructor
      · intro forced
        refine .inl fun unset => ?_
        rw [unset] at forced
        cases forced
      · rintro (free | ⟨w, ne, le, -⟩)
        · cases own : p.activation with
          | none => rfl
          | some b =>
            cases b
            · exact (free own).elim
            · rfl
        · exact (ne (List.prefix_nil.1 le)).elim
    · rw [List.concat_eq_append] at split unset ⊢
      obtain ⟨last, earlier⟩ := List.forall_mem_append.1 unset |>.symm
      have grown := split.trans (List.append_assoc front (p :: way) [x]).symm
      have before : c.layers path = front ++ p :: way := (reached.layers_eq_concat made grown).1
      obtain ⟨none_set, shown⟩ := activation_visited reached made split
        (last x List.mem_cons_self) (ih before earlier)
      rw [none_set]
      exact shown

end Walk

/-- The records of a keyless entry are active. Those of an entry below it are active, if no layer on
the way says anything about activation, exactly if the force lasts that far. -/
theorem records_show_forced_activation (c : Config) {book : Lorebook}
    (built : c.build.result = .ok book) :
    c.EachRecord book fun l r =>
      (c.Keyless (c.layers l.entries) → r.value .forceActivation = true) ∧
      ∀ front p way, c.layers l.entries = front ++ p :: way → way ≠ [] →
        c.Keyless (front ++ [p]) → (∀ layer ∈ way, layer.activation = none) →
          (r.value .forceActivation = true ↔ c.ForcedAlong front p way) := by
  refine Config.eachRecord built ?_
  intro l _ above site reached visited r shows
  rw [shows.value_eq]
  constructor
  · intro keyless
    have empty := (reached.keyless_iff visited rfl).1 keyless
    rw [visited.value_forceActivation, empty]
    rfl
  · intro front p way split ne keyless unset
    obtain ⟨way, x, rfl⟩ := (List.eq_nil_or_concat way).resolve_left ne
    rw [List.concat_eq_append] at split unset ⊢
    obtain ⟨last, earlier⟩ := List.forall_mem_append.1 unset |>.symm
    have grown := split.trans (List.append_assoc front (p :: way) [x]).symm
    have before : c.layers l.ancestors = front ++ p :: way :=
      (reached.layers_eq_concat visited grown).1
    exact (activation_visited reached visited split (last x List.mem_cons_self)
      (reached.activation before keyless earlier)).2

def forcedBook : Config where
  entries :=
    [.node { name := "Story", texts := .one "s" }
      [.node { name := "Kid", keys := [.word "cat"], texts := .one "k" }
        [.node { name := "Toy", keys := [.word "ball"], texts := .one "t" } []]]]

theorem records_show_forced_activation_below :
    ∃ book, forcedBook.build.result = .ok book ∧
      book.records.map (·.value .forceActivation) = [true, true, true] ∧
      forcedBook.EachRecord book fun l r =>
        (forcedBook.Keyless (forcedBook.layers l.entries) → r.value .forceActivation = true) ∧
        ∀ front p way, forcedBook.layers l.entries = front ++ p :: way → way ≠ [] →
          forcedBook.Keyless (front ++ [p]) → (∀ layer ∈ way, layer.activation = none) →
            (r.value .forceActivation = true ↔ forcedBook.ForcedAlong front p way) :=
  ⟨_, rfl, rfl, records_show_forced_activation forcedBook rfl⟩

/-- A keyless entry that unsets its activation, with a keyed entry below it. -/
def unsetBook : Config where
  entries :=
    [.node { name := "Story", entry := some (.only .forceActivation false) }
      [.node { name := "Kid", keys := [.word "cat"], texts := .one "k" } []]]

theorem forced_activation_not_inherited :
    ¬ ∀ (c : Config) (book : Lorebook), c.build.result = .ok book →
      c.EachRecord book fun l r => ∀ front p way, c.layers l.entries = front ++ p :: way →
        way ≠ [] → c.Keyless (front ++ [p]) → (∀ layer ∈ way, layer.activation = none) →
          r.value .forceActivation = true := by
  intro inherited
  have each := inherited unsetBook _ rfl
  obtain ⟨r, hr, active⟩ := each.exists_record
    (List.mem_cons_of_mem _ List.mem_cons_self) (by decide)
  have shown : r.value .forceActivation = false := by
    cases hr with
    | head => rfl
    | tail _ hr => cases hr
  have : r.value .forceActivation = true :=
    active [] _ _ rfl (List.cons_ne_nil _ _) rfl (by
      intro layer h
      cases h with
      | head => rfl
      | tail _ h => cases h)
  rw [shown] at this
  cases this

end LoreTree
