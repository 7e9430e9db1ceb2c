import LoreTree.Value
/-!
What can go wrong, as causes. The wording of a cause is in one function, and a refused setting is a
list of faults that each name the place and the rule that was broken.
-/

namespace LoreTree

/-- The rule that a value breaks where a setting is read. -/
inductive Rule
  | missing
  | textExpected
  | integerExpected
  | integerUnreadable
  | integerFractional
  | integerTooLong
  | numberNotFinite
  | flagExpected
  | flagUnreadable
  | choiceUnknown
  | listExpected
  | recordExpected
  | documentUnreadable
  deriving DecidableEq

def Rule.name : Rule → String
  | .missing => "missing"
  | .textExpected => "string_type"
  | .integerExpected => "int_type"
  | .integerUnreadable => "int_parsing"
  | .integerFractional => "int_from_float"
  | .integerTooLong => "int_parsing_size"
  | .numberNotFinite => "finite_number"
  | .flagExpected => "bool_type"
  | .flagUnreadable => "bool_parsing"
  | .choiceUnknown => "enum"
  | .listExpected => "list_type"
  | .recordExpected => "model_type"
  | .documentUnreadable => "json_invalid"

inductive Step
  | name (s : String)
  | index (n : Nat)
  deriving DecidableEq

structure Fault where
  rule : Rule
  place : List Step
  deriving DecidableEq

def Fault.under (step : Step) (f : Fault) : Fault :=
  { f with place := step :: f.place }

inductive LoadFault
  | notFound (path : String)
  | notScript (path : String)
  | notConfigured (path name : String)
  deriving DecidableEq

inductive Failure
  | notAKey (value : Value)
  | notADistance (value : Value)
  | unknownPreset (name : String)
  | notLoaded (fault : LoadFault)
  | refused (faults : List Fault)
  /-- A value of the wrong kind, or a wrong number of arguments. -/
  | mismatch
  /-- A declaration that has no documented form. -/
  | malformed
  /-- An integer beyond the range of what it is used as. -/
  | tooLarge
  /-- A value that was to be shown has an integer with too many digits in it. -/
  | notShowable
  /-- A preset named by something that is no text. -/
  | unnamed
  | fileExists
  | notADirectory
  | isADirectory
  | fileMissing
  | nameTooLong
  | nameInvalid
  | tooManyLinks
  | denied
  /-- A text that its file has no room for. -/
  | notWritten
  /-- A line that the output does not take. -/
  | notPrinted
  | notRunnable

def Failure.showing (failure : Value → Failure) (v : Value) : Failure :=
  if v.isShowable then failure v else .notShowable

def LoadFault.message : LoadFault → String
  | .notFound path => "Script not found: " ++ path
  | .notScript path => "Not a Python script: " ++ path
  | .notConfigured path name => path ++ " does not define a BuilderConfig named " ++ name

def Failure.message? : Failure → Option String
  | .notAKey v => some ("Not compatible with NovelAI's regular-expressions: " ++ v.display)
  | .notADistance v => some ("Not valid for \x60distance\x60: " ++ v.display)
  | .unknownPreset name => some (Text.quoted ("Unknown strategy preset: " ++ name))
  | .notLoaded fault => some fault.message
  | _ => none

end LoreTree
