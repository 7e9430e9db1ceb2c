import LoreTree.Proofs.Overrides.Layering
/-!
Dropping settings from overrides by their plain names. What stays is what was set under none of the
names, and where that is nothing there are no overrides left at all. Dropping goes through layering
and may be done in any steps. One name drops everything, though it is the name of no setting.
-/

namespace LoreTree

namespace Setting

variable {g : SettingGroup} {f : Setting g} {names : List String}

theorem isNamed_of_everyName (every : everyName ∈ names) (f : Setting g) :
    f.isNamed names = true := by
  rw [isNamed, List.contains_iff_mem.2 every, Bool.or_true]

theorem isNamed_iff (apart : everyName ∉ names) :
    f.isNamed names = true ↔ f.name.plain ∈ names := by
  rw [isNamed, Bool.or_eq_true, List.contains_iff_mem, List.contains_iff_mem, or_iff_left apart]

theorem isNamed_append (f : Setting g) (ns ms : List String) :
    f.isNamed (ns ++ ms) = (f.isNamed ns || f.isNamed ms) := by
  rw [Bool.eq_iff_iff, Bool.or_eq_true]
  simp only [isNamed, Bool.or_eq_true, List.contains_iff_mem, List.mem_append]
  exact or_or_or_comm

theorem camel_ne_everyName (f : Setting g) : f.name.camel ≠ everyName := by
  cases f <;> decide

/-- A camel case spelling that differs from the plain one is the plain name of no setting. -/
theorem plain_mem_cons_camel {h : Setting g} (differs : f.name.camel ≠ f.name.plain) :
    h.name.plain ∈ f.name.camel :: names ↔ h.name.plain ∈ names := by
  refine List.mem_cons.trans (or_iff_right ?_)
  intro same
  cases eq_of_plain_eq_camel h f same
  exact differs same.symm

end Setting

namespace Overrides

variable {g : SettingGroup} {a b r : Overrides g} {names : List String}

theorem isEmpty_iff : a.isEmpty = true ↔ a = empty := by
  rw [isEmpty, decide_eq_true_iff]
  constructor
  · intro unset
    ext1 f
    exact unset f
  · rintro rfl f
    rfl

theorem eq_empty_of_overlay (none_set : a.overlay b = empty) : a = empty ∧ b = empty := by
  have each (f : Setting g) : b.get f = none ∧ a.get f = none := by
    rw [← Option.or_eq_none_iff, ← get_overlay, none_set, get_empty]
  constructor
  · ext1 f
    exact (each f).2
  · ext1 f
    exact (each f).1

theorem drop_overlay (a b : Overrides g) (names : List String) :
    (a.overlay b).drop names = (a.drop names).overlay (b.drop names) := by
  ext1 f
  rw [get_overlay, get_drop, get_drop, get_drop, get_overlay]
  cases f.isNamed names <;> rfl

theorem drop_drop (a : Overrides g) (ns ms : List String) :
    (a.drop ns).drop ms = a.drop (ns ++ ms) := by
  ext1 f
  rw [get_drop, get_drop, get_drop, f.isNamed_append]
  cases f.isNamed ns <;> cases f.isNamed ms <;> rfl

/-- Nothing stays set if everything that was set is dropped. -/
theorem drop_eq_empty_iff :
    a.drop names = empty ↔ ∀ f : Setting g, (a.get f).isSome → f.isNamed names = true := by
  constructor
  · intro none_left f set
    by_contra kept
    have left := congrArg (·.get f) none_left
    simp only [get_drop, if_neg kept, get_empty] at left
    rw [left] at set
    cases set
  · intro each
    ext1 f
    rw [get_drop, get_empty]
    split
    · rfl
    · next kept => exact Option.not_isSome_iff_eq_none.1 (mt (each f) kept)

theorem without_eq_none_iff : a.without names = none ↔ a.drop names = empty := by
  unfold without
  split
  · next left => exact iff_of_true rfl (isEmpty_iff.1 left)
  · next left => exact iff_of_false nofun (mt isEmpty_iff.2 left)

theorem without_eq_some_iff : a.without names = some r ↔ r = a.drop names ∧ r ≠ empty := by
  unfold without
  split
  · next left =>
    refine iff_of_false nofun ?_
    rintro ⟨rfl, some_set⟩
    exact some_set (isEmpty_iff.1 left)
  · next left =>
    constructor
    · rintro ⟨⟩
      exact ⟨rfl, mt isEmpty_iff.2 left⟩
    · rintro ⟨rfl, -⟩
      rfl

theorem getD_without (a : Overrides g) (names : List String) :
    (a.without names).getD empty = a.drop names := by
  cases rest : a.without names with
  | none => exact (without_eq_none_iff.1 rest).symm
  | some r => exact (without_eq_some_iff.1 rest).1

theorem without_overlay (a b : Overrides g) (names : List String) :
    (a.overlay b).without names = overlayAny (a.without names) (b.without names) := by
  cases first : a.without names with
  | none =>
    rw [none_overlayAny, without, drop_overlay, without_eq_none_iff.1 first, empty_overlay]
    rfl
  | some r =>
    obtain ⟨rfl, some_set⟩ := without_eq_some_iff.1 first
    cases second : b.without names with
    | none =>
      refine without_eq_some_iff.2 ⟨?_, some_set⟩
      rw [drop_overlay, without_eq_none_iff.1 second, overlay_empty]
    | some s =>
      obtain ⟨rfl, -⟩ := without_eq_some_iff.1 second
      refine without_eq_some_iff.2 ⟨(drop_overlay a b names).symm, ?_⟩
      exact fun none_set => some_set (eq_empty_of_overlay none_set).1

/-- Which settings are dropped is all that matters of the names. -/
theorem without_congr {ns ms : List String} (same : ∀ f : Setting g, f.isNamed ns = f.isNamed ms)
    (a : Overrides g) : a.without ns = a.without ms := by
  have dropped : a.drop ns = a.drop ms := by
    ext1 f
    rw [get_drop, get_drop, same]
  rw [without, without, dropped]

/-- The members of a dump that go by none of the names. -/
def remaining (a : Overrides g) (names : List String) : List (String × Value) :=
  a.dump.filter fun m => !(names.contains m.1 || names.contains Setting.everyName)

theorem dump_drop (a : Overrides g) (names : List String) :
    (a.drop names).dump = a.remaining names := by
  rw [remaining, dump_eq, dump_eq, List.filter_filterMap]
  congr 1
  funext f
  rw [get_drop, Setting.isNamed]
  cases a.get f with
  | none => cases names.contains f.name.plain || names.contains Setting.everyName <;> rfl
  | some v =>
    rw [Option.map_some, Option.map_some, Option.filter_some]
    cases names.contains f.name.plain || names.contains Setting.everyName <;> rfl

theorem dump_eq_nil_iff : a.dump = [] ↔ a = empty := by
  rw [dump_eq, List.filterMap_eq_nil_iff]
  constructor
  · intro unset
    ext1 f
    have none_left := unset f (Setting.mem_all f)
    rwa [Option.map_eq_none_iff, Option.map_eq_none_iff] at none_left
  · rintro rfl f -
    rfl

/-- Dropping by way of a dump: what remains of it is read again, unless that is nothing. -/
theorem read_remaining (a : Overrides g) (names : List String) :
    (a.remaining names = [] ↔ a.without names = none) ∧
      read (a.remaining names) = .ok ((a.without names).getD empty) := by
  rw [← dump_drop, dump_eq_nil_iff, without_eq_none_iff, getD_without, read_dump]
  exact ⟨Iff.rfl, rfl⟩

end Overrides

theorem Settings.get_mergeAny_without {g : SettingGroup} (c : Settings g) (a : Overrides g)
    (names : List String) (f : Setting g) : (c.mergeAny (a.without names)).get f =
      if f.isNamed names then c.get f else (c.merge a).get f := by
  rw [Overrides.get_mergeAny, Overrides.get_without, get_merge]
  cases f.isNamed names <;> rfl

/-- Dropping names, as long as the one for all settings is not among them: what it leaves, how it goes
with layering, with dropping more and with merging, and that only plain names count. The one for all
settings leaves nothing. -/
theorem dropping_commutes_with_layering {g : SettingGroup} (a b : Overrides g) (c : Settings g)
    (ns ms : List String) (apart : Setting.everyName ∉ ns) :
    ((a.without ns = none ↔ ∀ f : Setting g, (a.get f).isSome → f.name.plain ∈ ns) ∧
      ∀ r, a.without ns = some r →
        ∀ f : Setting g, r.get f = if f.name.plain ∈ ns then none else a.get f) ∧
    ((a.overlay b).without ns = Overrides.overlayAny (a.without ns) (b.without ns) ∧
      ((a.overlay b).without ns).getD .empty =
        ((a.without ns).getD .empty).overlay ((b.without ns).getD .empty)) ∧
    ((a.without ns).getD .empty).without ms = a.without (ns ++ ms) ∧
    (∀ f : Setting g, (c.mergeAny (a.without ns)).get f =
      if f.name.plain ∈ ns then c.get f else (c.merge a).get f) ∧
    ((∀ others, Setting.everyName ∉ others →
        (∀ f : Setting g, f.name.plain ∈ others ↔ f.name.plain ∈ ns) →
        a.without others = a.without ns) ∧
      ∀ f : Setting g, f.name.camel ≠ f.name.plain →
        a.without (f.name.camel :: ns) = a.without ns) ∧
    ((a.remaining ns = [] ↔ a.without ns = none) ∧
      Overrides.read (a.remaining ns) = .ok ((a.without ns).getD .empty)) ∧
    ∀ all, Setting.everyName ∈ all → a.without all = none := by
  have named (f : Setting g) : f.isNamed ns = true ↔ f.name.plain ∈ ns := Setting.isNamed_iff apart
  have same_names (others : List String) (apart' : Setting.everyName ∉ others)
      (same : ∀ f : Setting g, f.name.plain ∈ others ↔ f.name.plain ∈ ns) :
      a.without others = a.without ns := by
    refine Overrides.without_congr (fun f => ?_) a
    rw [Bool.eq_iff_iff, Setting.isNamed_iff apart', named, same]
  refine ⟨⟨?_, ?_⟩, ⟨a.without_overlay b ns, ?_⟩, ?_, ?_, ⟨same_names, ?_⟩,
    a.read_remaining ns, ?_⟩
  · rw [Overrides.without_eq_none_iff, Overrides.drop_eq_empty_iff]
    exact forall_congr' fun f => imp_congr_right fun _ => named f
  · intro r left f
    rw [(Overrides.without_eq_some_iff.1 left).1, Overrides.get_drop]
    exact if_congr (named f) rfl rfl
  · rw [Overrides.getD_without, Overrides.getD_without, Overrides.getD_without, a.drop_overlay]
  · rw [Overrides.getD_without, Overrides.without, a.drop_drop, ← Overrides.without]
  · intro f
    rw [c.get_mergeAny_without]
    exact if_congr (named f) rfl rfl
  · intro f differs
    refine same_names _ ?_ fun h => Setting.plain_mem_cons_camel differs
    rw [List.mem_cons, not_or]
    exact ⟨f.camel_ne_everyName.symm, apart⟩
  · intro all every
    rw [Overrides.without_eq_none_iff, Overrides.drop_eq_empty_iff]
    exact fun f _ => f.isNamed_of_everyName every

/-- Falsy values stay set, and the camel case spelling of another setting drops nothing. -/
theorem dropping_commutes_with_layering_falsy :
    let a := (Overrides.only .before "").overlay (.only .tokenBudget (0 : Int))
    Setting.everyName ∉ ["prefix", "tokenBudget"] ∧
      (∀ r, a.without ["prefix", "tokenBudget"] = some r →
        r.get .before = none ∧ r.get .tokenBudget = some (0 : Int)) ∧
      (a.without ["prefix", "tokenBudget"]).isSome ∧
      ((Settings.fresh .context).mergeAny (a.without ["prefix", "tokenBudget"])).get
        .tokenBudget = (0 : Int) ∧
      ((a.without ["prefix", "tokenBudget"]).getD .empty).without ["token_budget"] = none := by
  intro a
  have apart : Setting.everyName ∉ ["prefix", "tokenBudget"] := by decide
  obtain ⟨⟨-, kept⟩, -, more, merged, -, -, -⟩ := dropping_commutes_with_layering a .empty
    (Settings.fresh .context) ["prefix", "tokenBudget"] ["token_budget"] apart
  refine ⟨apart, fun r left => ?_, by decide, ?_, ?_⟩
  · exact ⟨kept r left .before, kept r left .tokenBudget⟩
  · exact merged .tokenBudget
  · rw [more]
    decide

/-- The name that stands for all settings is the name of none, and drops them all. -/
theorem not_only_named_dropped :
    ¬ ∀ (a : Overrides .context) (ns : List String),
      a.without ns = none ↔ ∀ f, (a.get f).isSome → f.name.plain ∈ ns := by
  intro claimed
  have kept := (claimed (.only .before "x") [Setting.everyName]).1 (by decide) .before rfl
  exact absurd kept (by decide)

end LoreTree
