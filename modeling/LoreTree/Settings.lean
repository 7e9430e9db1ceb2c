import LoreTree.Setting
/-!
Values for the settings of one group. Settings proper have a value for every one of them; overrides
have one for those that they set. Overrides act on settings, and can be laid over other overrides; in
both cases the value that comes later wins.
-/

namespace LoreTree

namespace Setting

/-- Where settings are dropped by name, this name stands for all of them. -/
def everyName : String := "__all__"

def isNamed (f : Setting g) (names : List String) : Bool :=
  names.contains f.name.plain || names.contains everyName

end Setting

structure Settings (g : SettingGroup) where
  get : (f : Setting g) → f.kind.Carrier

structure Overrides (g : SettingGroup) where
  get : (f : Setting g) → Option f.kind.Carrier

namespace Settings

@[ext] theorem ext {a b : Settings g} (h : ∀ f, a.get f = b.get f) : a = b := by
  obtain ⟨a⟩ := a
  obtain ⟨b⟩ := b
  congr 1
  exact funext h

instance : DecidableEq (Settings g) := fun a b =>
  decidable_of_iff (∀ f, a.get f = b.get f) ⟨Settings.ext, fun h _ => h ▸ rfl⟩

/-- Every setting that the overrides set takes their value. -/
def merge (c : Settings g) (o : Overrides g) : Settings g :=
  ⟨fun f => (o.get f).getD (c.get f)⟩

@[simp] theorem get_merge (c : Settings g) (o : Overrides g) (f : Setting g) :
    (c.merge o).get f = (o.get f).getD (c.get f) := rfl

def mergeAny (c : Settings g) : Option (Overrides g) → Settings g
  | none => c
  | some o => c.merge o

def toJson (spelling : Name → String) (c : Settings g) : List (String × Json) :=
  (Setting.all g).map (fun f => (spelling f.name, f.kind.toJson (c.get f)))

def budgetPriority (c : Settings .context) : Int :=
  c.get .budgetPriority

def searchRange (c : Settings .entry) : Int :=
  c.get .searchRange

end Settings

namespace Overrides

@[ext] theorem ext {a b : Overrides g} (h : ∀ f, a.get f = b.get f) : a = b := by
  obtain ⟨a⟩ := a
  obtain ⟨b⟩ := b
  congr 1
  exact funext h

instance : DecidableEq (Overrides g) := fun a b =>
  decidable_of_iff (∀ f, a.get f = b.get f) ⟨Overrides.ext, fun h _ => h ▸ rfl⟩

def empty : Overrides g :=
  ⟨fun _ => none⟩

@[simp] theorem get_empty (f : Setting g) : (empty : Overrides g).get f = none := rfl

def only (f : Setting g) (v : f.kind.Carrier) : Overrides g :=
  ⟨fun h => if e : f = h then some (e ▸ v) else none⟩

@[simp] theorem get_only_self (f : Setting g) (v : f.kind.Carrier) :
    (only f v).get f = some v := by
  simp [only]

theorem get_only_of_ne {f h : Setting g} (v : f.kind.Carrier) (ne : f ≠ h) :
    (only f v).get h = none := by
  simp [only, ne]

/-- What `b` sets takes its values, the rest those of `a`. -/
def overlay (a b : Overrides g) : Overrides g :=
  ⟨fun f => (b.get f).or (a.get f)⟩

@[simp] theorem get_overlay (a b : Overrides g) (f : Setting g) :
    (a.overlay b).get f = (b.get f).or (a.get f) := rfl

@[simp] theorem overlay_empty (a : Overrides g) : a.overlay empty = a := by
  ext1 f
  exact Option.none_or

@[simp] theorem empty_overlay (a : Overrides g) : empty.overlay a = a := by
  ext1 f
  exact Option.or_none

def overlayAny : Option (Overrides g) → Option (Overrides g) → Option (Overrides g)
  | a, none => a
  | none, b => b
  | some a, some b => some (a.overlay b)

def isEmpty (a : Overrides g) : Bool :=
  decide (∀ f, a.get f = none)

/-- The settings with one of these names are unset. -/
def drop (a : Overrides g) (names : List String) : Overrides g :=
  ⟨fun f => if f.isNamed names then none else a.get f⟩

@[simp] theorem get_drop (a : Overrides g) (names : List String) (f : Setting g) :
    (a.drop names).get f = if f.isNamed names then none else a.get f := rfl

/-- The same, with nothing left where none stays set. -/
def without (a : Overrides g) (names : List String) : Option (Overrides g) :=
  if (a.drop names).isEmpty then none else some (a.drop names)

def toJson (a : Overrides g) : List (String × Json) :=
  (Setting.all g).filterMap fun f => (a.get f).map fun v => (f.name.plain, f.kind.toJson v)

def displayField (a : Overrides g) (f : Setting g) : String :=
  f.name.plain ++ "=" ++ ((a.get f).map f.kind.display).getD Value.null.display

/-- How messages show overrides: every setting in order, the unset ones too. -/
def display (a : Overrides g) : String :=
  let title :=
    match g with
    | .context => "ContextOverrides"
    | .entry => "EntryOverrides"
  title ++ "(" ++ String.intercalate ", " ((Setting.all g).map a.displayField) ++ ")"

end Overrides

namespace Settings

def fresh : (g : SettingGroup) → Settings g
  | .context => ⟨fun
    | .before => ""
    | .after => "\n"
    | .tokenBudget => (2048 : Int)
    | .reservedTokens => (0 : Int)
    | .budgetPriority => (400 : Int)
    | .trimDirection => TrimDirection.bottom
    | .insertionType => TextUnit.newline
    | .maximumTrimType => TextUnit.sentence
    | .insertionPosition => (-1 : Int)⟩
  | .entry => ⟨fun
    | .searchRange => (1024 : Int)
    | .enabled => true
    | .forceActivation => false
    | .keyRelative => false
    | .nonStoryActivatable => false⟩

end Settings

end LoreTree
