import LoreTree.Value
import LoreTree.Json
/-!
The settings of a lore entry, in two groups: where and how its text is placed in the context, and
when the entry is active. A setting has a kind, which fixes the type of its values, and a name in
two spellings.
-/

namespace LoreTree

inductive SettingGroup
  | context
  | entry
  deriving DecidableEq

/-- Which end of an entry is cut when space runs out. -/
inductive TrimDirection
  | bottom
  | top
  | never
  deriving DecidableEq

inductive TextUnit
  | newline
  | sentence
  | token
  deriving DecidableEq

inductive Kind
  | text
  | integer
  | flag
  | trim
  | unit
  deriving DecidableEq

@[reducible] def Kind.Carrier : Kind → Type
  | .text => String
  | .integer => Int
  | .flag => Bool
  | .trim => TrimDirection
  | .unit => TextUnit

instance (k : Kind) : DecidableEq k.Carrier :=
  match k with
  | .text => inferInstanceAs (DecidableEq String)
  | .integer => inferInstanceAs (DecidableEq Int)
  | .flag => inferInstanceAs (DecidableEq Bool)
  | .trim => inferInstanceAs (DecidableEq TrimDirection)
  | .unit => inferInstanceAs (DecidableEq TextUnit)

inductive Setting : SettingGroup → Type
  | before : Setting .context
  | after : Setting .context
  | tokenBudget : Setting .context
  | reservedTokens : Setting .context
  | budgetPriority : Setting .context
  | trimDirection : Setting .context
  | insertionType : Setting .context
  | maximumTrimType : Setting .context
  | insertionPosition : Setting .context
  | searchRange : Setting .entry
  | enabled : Setting .entry
  | forceActivation : Setting .entry
  | keyRelative : Setting .entry
  | nonStoryActivatable : Setting .entry
  deriving DecidableEq

/-- A name as authors spell it and as documents spell it. -/
structure Name where
  plain : String
  camel : String
  deriving DecidableEq

namespace Setting

@[reducible] def kind : Setting g → Kind
  | .before => .text
  | .after => .text
  | .tokenBudget => .integer
  | .reservedTokens => .integer
  | .budgetPriority => .integer
  | .trimDirection => .trim
  | .insertionType => .unit
  | .maximumTrimType => .unit
  | .insertionPosition => .integer
  | .searchRange => .integer
  | .enabled => .flag
  | .forceActivation => .flag
  | .keyRelative => .flag
  | .nonStoryActivatable => .flag

def name : Setting g → Name
  | .before => ⟨"prefix", "prefix"⟩
  | .after => ⟨"suffix", "suffix"⟩
  | .tokenBudget => ⟨"token_budget", "tokenBudget"⟩
  | .reservedTokens => ⟨"reserved_tokens", "reservedTokens"⟩
  | .budgetPriority => ⟨"budget_priority", "budgetPriority"⟩
  | .trimDirection => ⟨"trim_direction", "trimDirection"⟩
  | .insertionType => ⟨"insertion_type", "insertionType"⟩
  | .maximumTrimType => ⟨"maximum_trim_type", "maximumTrimType"⟩
  | .insertionPosition => ⟨"insertion_position", "insertionPosition"⟩
  | .searchRange => ⟨"search_range", "searchRange"⟩
  | .enabled => ⟨"enabled", "enabled"⟩
  | .forceActivation => ⟨"force_activation", "forceActivation"⟩
  | .keyRelative => ⟨"key_relative", "keyRelative"⟩
  | .nonStoryActivatable => ⟨"non_story_activatable", "nonStoryActivatable"⟩

/-- The settings of a group, in the order in which they are read, written and reported. -/
def all : (g : SettingGroup) → List (Setting g)
  | .context =>
    [.before, .after, .tokenBudget, .reservedTokens, .budgetPriority, .trimDirection,
     .insertionType, .maximumTrimType, .insertionPosition]
  | .entry => [.searchRange, .enabled, .forceActivation, .keyRelative, .nonStoryActivatable]

theorem mem_all (f : Setting g) : f ∈ all g := by
  cases f <;> simp [all]

instance (p : Setting g → Prop) [DecidablePred p] : Decidable (∀ f, p f) :=
  decidable_of_iff (∀ f ∈ all g, p f) ⟨fun h f => h f (mem_all f), fun h f _ => h f⟩

end Setting

namespace TrimDirection

def name : TrimDirection → String
  | .bottom => "trimBottom"
  | .top => "trimTop"
  | .never => "doNotTrim"

def all : List TrimDirection :=
  [.bottom, .top, .never]

def label : TrimDirection → String
  | .bottom => "TrimDirection.TRIM_BOTTOM"
  | .top => "TrimDirection.TRIM_TOP"
  | .never => "TrimDirection.DO_NOT_TRIM"

end TrimDirection

namespace TextUnit

def name : TextUnit → String
  | .newline => "newline"
  | .sentence => "sentence"
  | .token => "token"

def all : List TextUnit :=
  [.newline, .sentence, .token]

def label : TextUnit → String
  | .newline => "InsertionType.NEWLINE"
  | .sentence => "InsertionType.SENTENCE"
  | .token => "InsertionType.TOKEN"

end TextUnit

namespace Kind

def toJson : (k : Kind) → k.Carrier → Json
  | .text, s => .text s
  | .integer, n => .int n
  | .flag, b => .bool b
  | .trim, t => .text t.name
  | .unit, u => .text u.name

def displayChoice (label name : String) : String :=
  "<" ++ label ++ ": " ++ Text.quoted name ++ ">"

def display : (k : Kind) → k.Carrier → String
  | .text, s => Text.quoted s
  | .integer, n => Decimal.intText n
  | .flag, b => (Value.bool b).display
  | .trim, t => displayChoice t.label t.name
  | .unit, u => displayChoice u.label u.name

end Kind

end LoreTree
