import LoreTree.Json.Token
/-!
Reading documents. A machine takes one token at a time and keeps the containers that are still
open. How large a document may be is up to the caller.
-/

namespace LoreTree.Json

/-- The sizes up to which a document is read; those that are not given are unlimited. -/
structure Bounds where
  /-- How many containers may be open around a value or the name of a member. -/
  depth : Option Nat := none
  /-- How many characters the whole part of a number may have, its minus sign among them. -/
  whole : Option Nat := none
  deriving DecidableEq

inductive Frame
  | array (items : List Json)
  | object (members : List (String × Json))
  /-- An object and the name of the member that comes next. -/
  | member (members : List (String × Json)) (name : String)

inductive Awaits
  | value
  | valueOrClose
  | name
  | nameOrClose
  | colon
  | commaOrClose
  | nothing (result : Json)

structure Reader where
  awaits : Awaits
  frames : List Frame

namespace Reader

def start : Reader :=
  ⟨.value, []⟩

/-- A complete value goes into the innermost open container. -/
def deliver (v : Json) : List Frame → Option Reader
  | [] => some ⟨.nothing v, []⟩
  | .array items :: rest => some ⟨.commaOrClose, .array (v :: items) :: rest⟩
  | .member members name :: rest => some ⟨.commaOrClose, .object ((name, v) :: members) :: rest⟩
  | .object _ :: _ => none

def within (bound : Option Nat) (size : Nat) : Bool :=
  bound.all (size ≤ ·)

def enter (b : Bounds) (frames : List Frame) (t : Token) : Option Reader :=
  if !within b.depth frames.length then none
  else
    match t with
    | .openArray => some ⟨.valueOrClose, .array [] :: frames⟩
    | .openObject => some ⟨.nameOrClose, .object [] :: frames⟩
    | .text s => deliver (.text s) frames
    | .word v => deliver v frames
    | .number n => if within b.whole n.signedWhole.length then deliver n.toJson frames else none
    | _ => none

/-- A token that closes the innermost open container. -/
def leave : List Frame → Token → Option Reader
  | .array items :: rest, .closeArray => deliver (.array items.reverse) rest
  | .object members :: rest, .closeObject => deliver (.object members.reverse) rest
  | _, _ => none

def enterName (b : Bounds) (frames : List Frame) (t : Token) : Option Reader :=
  if !within b.depth frames.length then none
  else
    match frames, t with
    | .object members :: rest, .text name => some ⟨.colon, .member members name :: rest⟩
    | _, _ => none

def feed (b : Bounds) (r : Reader) (t : Token) : Option Reader :=
  match r.awaits, t with
  | .value, t => enter b r.frames t
  | .valueOrClose, .closeArray => leave r.frames .closeArray
  | .valueOrClose, t => enter b r.frames t
  | .name, t => enterName b r.frames t
  | .nameOrClose, .closeObject => leave r.frames .closeObject
  | .nameOrClose, t => enterName b r.frames t
  | .colon, .colon => some { r with awaits := .value }
  | .colon, _ => none
  | .commaOrClose, .comma =>
    match r.frames with
    | .array _ :: _ => some { r with awaits := .value }
    | .object _ :: _ => some { r with awaits := .name }
    | _ => none
  | .commaOrClose, t => leave r.frames t
  | .nothing _, _ => none

def result? (r : Reader) : Option Json :=
  match r.awaits with
  | .nothing v => some v
  | _ => none

end Reader

/-- The value that a list of tokens writes, if it writes exactly one. -/
def ofTokens? (b : Bounds) (tokens : List Token) : Option Json := do
  let r ← tokens.foldlM (Reader.feed b) .start
  r.result?

def ofChars? (b : Bounds) (cs : List Char) : Option Json := do
  let tokens ← Token.ofChars? cs
  ofTokens? b tokens

def ofString? (b : Bounds) (s : String) : Option Json :=
  ofChars? b s.toList

end LoreTree.Json
