import LoreTree.Proximity
import LoreTree.Json.Numeral
import LoreTree.Settings.Reading
/-!
Declarations: values, phrases and operators as data. Numbers, texts and lists stand for themselves;
an object with one member names what is made of the value in it. Parts are made in the order in
which they are written, and the first part that cannot be made decides the failure.
-/

namespace LoreTree.Declaration

structure Call where
  name : String
  places : Except Failure (List Value)
  names : Except Failure (List (String × Value))

def ofText (make : List Char → Fragment) : Value → Except Failure Value
  | .text s => .ok (.fragment (make s.toList))
  | _ => .error .mismatch

def imported (v : Value) : Except Failure Value :=
  match v with
  | .text s =>
    match Fragment.ofKey? s.toList with
    | some f => .ok (.fragment f)
    | none => .error (.showing .notAKey v)
  | _ => .error (.showing .notAKey v)

def construct (name : String) (v : Value) : Except Failure Value :=
  match name with
  | "lit" => ofText .exact v
  | "pre" => ofText .startsWith v
  | "post" => ofText .endsWith v
  | "open" => ofText .contains v
  | "regex" => imported v
  | _ => .error .malformed

/-- A number without its sign: digits with a point before, among or after them, and an exponent. -/
def decimal? (negative : Bool) (cs : List Char) : Option Json.Numeral := do
  let whole := cs.takeWhile Char.isDigit
  let (places, rest) :=
    match cs.dropWhile Char.isDigit with
    | '.' :: rest => (rest.takeWhile Char.isDigit, rest.dropWhile Char.isDigit)
    | rest => ([], rest)
  guard (whole ++ places ≠ [])
  let exponent ← Json.Numeral.exponent? rest
  return { negative, whole, fraction := some places, exponent }

/-- A number that need not be an integer, as authors write it; letter case does not matter. -/
def float? (s : String) : Option Binary64 :=
  let (negative, cs) :=
    match s.toList.map Char.toLower with
    | '-' :: cs => (true, cs)
    | '+' :: cs => (false, cs)
    | cs => (false, cs)
  if cs = "nan".toList then some .nan
  else if cs = "inf".toList ∨ cs = "infinity".toList then some (.infinite negative)
  else (decimal? negative cs).map Json.Numeral.toBinary64

mutual

def value : Json → Except Failure Value
  | .null => .ok .null
  | .bool b => .ok (.bool b)
  | .int n => .ok (.int n)
  | .float x => .ok (.float x)
  | .text s => .ok (.text s)
  | .array items => Value.list <$> values items
  | .object [("re", .text source)] => .ok (.native source [])
  | .object [("re_flags", .array [.text source, .text flags])] => .ok (.native source flags.toList)
  | .object [("esc", .text s)] => .ok (.fragment ⟨s.toList⟩)
  | .object [("float", .text s)] =>
    match float? s with
    | some x => .ok (.float x)
    | none => .error .malformed
  | .object [("alt", .array items)] => do Operator.alternation.call (← values items)
  | .object [("exp", .array [left, op, right])] => do
    let l ← value left
    let o ← operator op
    let r ← value right
    return .tuple [l, .operator o, r]
  | .object [("explist", .array [left, op, right])] => do
    let l ← value left
    let o ← operator op
    let r ← value right
    return .list [l, .operator o, r]
  | .object [("call", .array (op :: arguments))] => do
    let o ← operator op
    o.call (← values arguments)
  | .object [("operator", op)] => Value.operator <$> operator op
  | .object [("tuple", .array items)] => Value.tuple <$> values items
  | .object [("dict", .object members)] => Value.dict <$> named members
  | .object [(name, v)] => do construct name (← value v)
  | .object _ => .error .malformed

def values : List Json → Except Failure (List Value)
  | [] => .ok []
  | v :: vs => do
    let first ← value v
    let rest ← values vs
    return first :: rest

def named : List (String × Json) → Except Failure (List (String × Value))
  | [] => .ok []
  | (name, v) :: rest => do
    let first ← value v
    let others ← named rest
    return (name, first) :: others

def operator : Json → Except Failure Operator
  | .text s =>
    match Operator.ofName? s with
    | some o => .ok o
    | none => .error .malformed
  | .object members =>
    let c := call members
    match Operator.ofName? c.name with
    | some o => do o.configure (← Operator.Options.ofCall (← c.places) (← c.names))
    | none => .error .malformed
  | _ => .error .malformed

def call : List (String × Json) → Call
  | [] => ⟨"", .ok [], .ok []⟩
  | ("name", .text s) :: rest => { call rest with name := s }
  | ("args", .array items) :: rest => { call rest with places := values items }
  | ("kwargs", .object members) :: rest => { call rest with names := named members }
  | _ :: rest => call rest

end

def phrase (j : Json) : Except Failure Phrase :=
  Phrase.ofValue <$> value j

def phrases (items : List Json) : Except Failure (List Phrase) :=
  List.map Phrase.ofValue <$> values items

def list : Option Json → Except Failure (List Json)
  | some (.array items) => .ok items
  | none => .ok []
  | _ => .error .malformed

/-- A member that is left out or null is absent. -/
def optional (read : Json → Except Failure α) : Option Json → Except Failure (Option α)
  | none => .ok none
  | some .null => .ok none
  | some j => some <$> read j

def members : Json → Except Failure (List (String × Value))
  | .object ms => named ms
  | _ => .error .malformed

def accepted (r : Reading α) : Except Failure α :=
  match r with
  | .ok a => .ok a
  | .error faults => .error (.refused faults)

def overrides (j : Json) : Except Failure (Overrides g) := do
  accepted (Overrides.read (← members j))

end LoreTree.Declaration
