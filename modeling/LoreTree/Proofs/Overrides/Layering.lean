import LoreTree.Proofs.Revalidation
import LoreTree.Proofs.SettingFlow
/-!
Overrides act on settings: to lay overrides over others and merge the result is to merge the one and
then the other. So the overrides of an entry may be layered before its settings are resolved or
merged afterwards, whether they are absent, empty or set something.
-/

namespace LoreTree

namespace Overrides

variable {g : SettingGroup}

theorem overlay_self (a : Overrides g) : a.overlay a = a := by
  ext1 f
  exact Option.or_self

theorem overlay_assoc (a b d : Overrides g) : (a.overlay b).overlay d = a.overlay (b.overlay d) := by
  ext1 f
  exact Option.or_assoc.symm

theorem overlayAny_none (a : Option (Overrides g)) : overlayAny a none = a := by
  cases a <;> rfl

theorem none_overlayAny (a : Option (Overrides g)) : overlayAny none a = a := by
  cases a <;> rfl

theorem overlayAny_self (a : Option (Overrides g)) : overlayAny a a = a := by
  cases a with
  | none => rfl
  | some a => exact congrArg some a.overlay_self

theorem overlayAny_assoc (a b d : Option (Overrides g)) :
    overlayAny (overlayAny a b) d = overlayAny a (overlayAny b d) := by
  cases a with
  | none => rw [none_overlayAny, none_overlayAny]
  | some a =>
    cases b with
    | none => rw [overlayAny_none, none_overlayAny]
    | some b =>
      cases d with
      | none => rw [overlayAny_none, overlayAny_none]
      | some d => exact congrArg some (a.overlay_assoc b d)

/-- Overrides laid over others by way of their dumps, which are read again as a whole. -/
def relaid (a : Overrides g) : Option (Overrides g) → Reading (Overrides g)
  | none => .ok a
  | some b => read (a.dump ++ b.dump)

/-- Reading the dumps again neither fails nor changes a value. -/
theorem relaid_eq (a : Overrides g) (b : Option (Overrides g)) :
    ∃ o, a.relaid b = .ok o ∧ overlayAny (some a) b = some o := by
  cases b with
  | none => exact ⟨a, rfl, rfl⟩
  | some b => exact ⟨a.overlay b, read_dump_append a b, rfl⟩

end Overrides

namespace Settings

variable {g : SettingGroup}

theorem mergeAny_overlayAny (c : Settings g) (a b : Option (Overrides g)) :
    c.mergeAny (Overrides.overlayAny a b) = (c.mergeAny a).mergeAny b := by
  ext1 f
  rw [Overrides.get_mergeAny, Overrides.get_mergeAny, Overrides.get_mergeAny,
    Overrides.get_overlayAny, Option.getD_or]

/-- Nothing is read again when overrides are merged, but it could be: a dump of settings with one of
overrides after it is read as the settings with the overrides merged. -/
theorem read_dump_merge (c : Settings g) (a : Overrides g) (origin : Origin) :
    read origin (c.dump ++ a.dump) = .ok (c.merge a) := by
  have each : ∀ f, Setting.readRequired origin (c.dump ++ a.dump) f = .ok ((c.merge a).get f) := by
    intro f
    refine Setting.readRequired_eq_ok (Name.find?_plain ?_ ?_)
    · rw [Json.last?_append, c.last?_dump, a.last?_dump, get_merge]
      cases a.get f <;> rfl
    · intro m written named
      rcases List.mem_append.1 written with written | written
      · obtain ⟨h, plain⟩ := exists_of_mem_dump written
        exact Setting.camel_eq_plain plain named
      · obtain ⟨h, plain⟩ := Overrides.exists_of_mem_dump written
        exact Setting.camel_eq_plain plain named
  rw [read, Setting.collect_eq_ok each]
  rfl

end Settings

/-- A configuration that has more overrides on top resolves like one without them, with the others
resolved after it. -/
theorem State.settle_overlay (s : State) (k : StrategyConfig) (x : Option (Overrides .context))
    (y : Option (Overrides .entry)) :
    s.settle (k.overlay x y) = (s.settle k).settle { context := x, entry := y } := by
  rw [settle, settle, settle, StrategyConfig.overlay, Settings.mergeAny_overlayAny,
    Settings.mergeAny_overlayAny]

theorem StrategyConfig.overlay_overlay (k : StrategyConfig) (x₁ x₂ : Option (Overrides .context))
    (y₁ y₂ : Option (Overrides .entry)) :
    (k.overlay x₁ y₁).overlay x₂ y₂ =
      k.overlay (Overrides.overlayAny x₁ x₂) (Overrides.overlayAny y₁ y₂) := by
  rw [overlay, overlay, overlay, Overrides.overlayAny_assoc, Overrides.overlayAny_assoc]

/-- Merging makes overrides act on settings, whatever is absent or empty; laying them over each other
is associative and idempotent and cannot fail, and it does not matter whether overrides are layered
before a configuration is resolved or merged afterwards. -/
theorem overrides_act_on_settings :
    (∀ (g : SettingGroup) (a b d : Option (Overrides g)) (c : Settings g),
      c.mergeAny (Overrides.overlayAny a b) = (c.mergeAny a).mergeAny b ∧
        Overrides.overlayAny (Overrides.overlayAny a b) d =
          Overrides.overlayAny a (Overrides.overlayAny b d) ∧
        Overrides.overlayAny a a = a ∧ Overrides.overlayAny a none = a ∧ c.mergeAny none = c) ∧
    (∀ (g : SettingGroup) (a : Overrides g) (c : Settings g),
      a.overlay .empty = a ∧ Overrides.empty.overlay a = a ∧ c.merge .empty = c) ∧
    (∀ (g : SettingGroup) (a : Overrides g), Overrides.read a.dump = .ok a ∧
      (∀ b, ∃ o, a.relaid b = .ok o ∧ Overrides.overlayAny (some a) b = some o) ∧
      ∀ (c : Settings g) (origin : Origin),
        Settings.read origin (c.dump ++ a.dump) = .ok (c.merge a)) ∧
    ∀ (s : State) (k : StrategyConfig) (x₁ x₂ : Option (Overrides .context))
      (y₁ y₂ : Option (Overrides .entry)),
      (s.settle (k.overlay x₁ y₁)).context = (s.settle k).context.mergeAny x₁ ∧
        (s.settle (k.overlay x₁ y₁)).entry = (s.settle k).entry.mergeAny y₁ ∧
        (k.overlay x₁ y₁).overlay x₂ y₂ =
          k.overlay (Overrides.overlayAny x₁ x₂) (Overrides.overlayAny y₁ y₂) := by
  refine ⟨?_, ?_, ?_, ?_⟩
  · intro g a b d c
    exact ⟨c.mergeAny_overlayAny a b, Overrides.overlayAny_assoc a b d, Overrides.overlayAny_self a,
      Overrides.overlayAny_none a, rfl⟩
  · intro g a c
    exact ⟨a.overlay_empty, a.empty_overlay, rfl⟩
  · intro g a
    exact ⟨a.read_dump, a.relaid_eq, fun c => c.read_dump_merge a⟩
  · intro s k x₁ x₂ y₁ y₂
    rw [s.settle_overlay]
    exact ⟨rfl, rfl, k.overlay_overlay x₁ x₂ y₁ y₂⟩

/-- An empty text is a value like any other. -/
example : ((Settings.fresh .context).merge ((Overrides.only .after "!").overlay (.only .after ""))).get
    .after = "" := rfl

end LoreTree
