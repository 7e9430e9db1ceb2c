import LoreTree.Settings
import LoreTree.Settings.IntegerText
import LoreTree.Failure
/-!
Reading settings from the values that authors and documents give. Integers and flags may also be
written as text or as other numbers; every setting that cannot be read is reported.
-/

namespace LoreTree

/-- A value, or every fault that was found while reading it. -/
abbrev Reading (α : Type) :=
  Except (List Fault) α

namespace Reading

def both : Reading α → Reading β → Reading (α × β)
  | .ok a, .ok b => .ok (a, b)
  | .ok _, .error fs => .error fs
  | .error fs, .ok _ => .error fs
  | .error fs, .error gs => .error (fs ++ gs)

def under (step : Step) : Reading α → Reading α
  | .ok a => .ok a
  | .error fs => .error (fs.map (Fault.under step))

def items (read : Value → Reading α) : (first : Nat) → List Value → Reading (List α)
  | _, [] => .ok []
  | n, v :: vs =>
    (both (under (.index n) (read v)) (items read (n + 1) vs)).map fun (a, rest) => a :: rest

end Reading

/-- The member of a name and the spelling it was found under; the camel case spelling is looked for
first. -/
def Name.find? (n : Name) (members : List (String × Value)) : Option (String × Value) :=
  match Json.last? members n.camel with
  | some v => some (n.camel, v)
  | none => (Json.last? members n.plain).map fun v => (n.plain, v)

inductive Origin
  | author
  | document

/-- Numbers of a machine word lie from `-wordReach` up to, but not including, `wordReach`. -/
def wordReach : Int := 9223372036854775808

/-- The integers that are looked at as flags: those of a machine word, and in a document those of
at most eighteen digits. -/
def Origin.looksAt (n : Int) : Origin → Bool
  | .author => -wordReach ≤ n && n < wordReach
  | .document => n.natAbs < 1000000000000000000

namespace Kind

/-- The integer that a number is, if it is whole and lies strictly between the ends of a word. -/
def wordOf? (x : Binary64) : Option Int :=
  match x.floor? with
  | some n => if x.isWhole && -wordReach < n && n < wordReach then some n else none
  | none => none

/-- An integer is given as one, as a flag, as a whole number that fits a machine word, or as text. -/
def readInteger : Value → Except Rule Int
  | .int n => .ok n
  | .bool b => .ok (if b then 1 else 0)
  | .float x =>
    match x.floor? with
    | none => .error .numberNotFinite
    | some _ =>
      if !x.isWhole then .error .integerFractional
      else
        match wordOf? x with
        | some n => .ok n
        | none => .error .integerTooLong
  | .text s =>
    if IntegerText.overlong s.toList then .error .integerTooLong
    else
      match IntegerText.integer? s.toList with
      | some n => .ok n
      | none => .error .integerUnreadable
  | _ => .error .integerExpected

def trueWords : List String :=
  ["1", "true", "t", "yes", "y", "on"]

def falseWords : List String :=
  ["0", "false", "f", "no", "n", "off"]

def lower (s : String) : String :=
  String.ofList (s.toList.map Char.toLower)

def flagOf (n : Int) : Except Rule Bool :=
  if n = 0 then .ok false else if n = 1 then .ok true else .error .flagUnreadable

/-- Numbers are looked at as flags only up to a certain size; larger ones are of the wrong kind. -/
def readFlag (origin : Origin) : Value → Except Rule Bool
  | .bool b => .ok b
  | .int n => if origin.looksAt n then flagOf n else .error .flagExpected
  | .float x =>
    match wordOf? x with
    | some n => flagOf n
    | none => .error .flagExpected
  | .text s =>
    if lower s ∈ trueWords then .ok true
    else if lower s ∈ falseWords then .ok false
    else .error .flagUnreadable
  | _ => .error .flagExpected

def readText : Value → Except Rule String
  | .text s => .ok s
  | _ => .error .textExpected

def readChoice (all : List α) (name : α → String) : Value → Except Rule α
  | .text s =>
    match all.find? (name · = s) with
    | some a => .ok a
    | none => .error .choiceUnknown
  | _ => .error .choiceUnknown

def read (origin : Origin) : (k : Kind) → Value → Except Rule k.Carrier
  | .text, v => readText v
  | .integer, v => readInteger v
  | .flag, v => readFlag origin v
  | .trim, v => readChoice TrimDirection.all TrimDirection.name v
  | .unit, v => readChoice TextUnit.all TextUnit.name v

end Kind

namespace Setting

/-- A result for every setting, or the faults in the order of the settings. -/
def collect {β : Setting g → Type} (read : (f : Setting g) → Except Fault (β f)) :
    Reading ((f : Setting g) → β f) :=
  if h : ∀ f, (read f).toOption.isSome then .ok fun f => (read f).toOption.get (h f)
  else .error ((all g).filterMap fun f =>
    match read f with
    | .ok _ => none
    | .error e => some e)

def readAt (origin : Origin) (f : Setting g) (spelling : String) (v : Value) :
    Except Fault f.kind.Carrier :=
  match f.kind.read origin v with
  | .ok x => .ok x
  | .error rule => .error ⟨rule, [.name spelling]⟩

/-- What an author overrides: a setting may be left out or set to nothing. -/
def readOptional (members : List (String × Value)) (f : Setting g) :
    Except Fault (Option f.kind.Carrier) :=
  match f.name.find? members with
  | none => .ok none
  | some (_, .null) => .ok none
  | some (spelling, v) => (f.readAt .author spelling v).map some

def readRequired (origin : Origin) (members : List (String × Value)) (f : Setting g) :
    Except Fault f.kind.Carrier :=
  match f.name.find? members with
  | none => .error ⟨.missing, [.name f.name.camel]⟩
  | some (spelling, v) => f.readAt origin spelling v

end Setting

def Overrides.read (members : List (String × Value)) : Reading (Overrides g) :=
  (Setting.collect (Setting.readOptional members)).map Overrides.mk

def Settings.read (origin : Origin) (members : List (String × Value)) : Reading (Settings g) :=
  (Setting.collect (Setting.readRequired origin members)).map Settings.mk

end LoreTree
