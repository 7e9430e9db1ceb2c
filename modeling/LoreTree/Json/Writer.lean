import LoreTree.Json
import LoreTree.Text.Hex
/-!
Writing documents, on one line or with a line for every item.
-/

namespace LoreTree.Json

inductive Layout
  | compact
  /-- Every level is indented by the same number of spaces. -/
  | indented (width : Nat)
  deriving DecidableEq

def writtenChar (c : Char) : List Char :=
  if c = '"' then ['\\', '"']
  else if c = '\\' then ['\\', '\\']
  else if c = '\x08' then ['\\', 'b']
  else if c = '\x0c' then ['\\', 'f']
  else if c = '\n' then ['\\', 'n']
  else if c = '\r' then ['\\', 'r']
  else if c = '\t' then ['\\', 't']
  else if c.toNat < 0x20 then '\\' :: 'u' :: Text.hex 4 c.toNat
  else [c]

def writtenText (s : String) : List Char :=
  '"' :: s.toList.flatMap writtenChar ++ ['"']

def writtenFloat : Binary64 → List Char
  | .nan => nanWord
  | .infinite negative => if negative then '-' :: infinityWord else infinityWord
  | x => (Binary64.plain.text x).toList

namespace Layout

/-- What separates the items of a container at a depth, and its brackets from them. -/
def lineBreak (l : Layout) (depth : Nat) : List Char :=
  match l with
  | .compact => []
  | .indented width => '\n' :: List.replicate (width * depth) ' '

def colon : Layout → List Char
  | .compact => [':']
  | .indented _ => [':', ' ']

/-- A container of written items, which stand one level deeper than it. -/
def container (l : Layout) (opening closing : Char) (depth : Nat) (items : List (List Char)) : List Char :=
  if items.isEmpty then [opening, closing]
  else
    opening :: l.lineBreak (depth + 1) ++ List.intercalate (',' :: l.lineBreak (depth + 1)) items ++
      l.lineBreak depth ++ [closing]

end Layout

mutual

def write (l : Layout) (depth : Nat) : Json → List Char
  | .null => nullWord
  | .bool b => if b then trueWord else falseWord
  | .int n => Decimal.ofInt n
  | .float x => writtenFloat x
  | .text s => writtenText s
  | .array items => l.container '[' ']' depth (writeItems l (depth + 1) items)
  | .object members => l.container '{' '}' depth (writeMembers l (depth + 1) members)

def writeItems (l : Layout) (depth : Nat) : List Json → List (List Char)
  | [] => []
  | v :: vs => write l depth v :: writeItems l depth vs

def writeMembers (l : Layout) (depth : Nat) : List (String × Json) → List (List Char)
  | [] => []
  | (name, v) :: rest => (writtenText name ++ l.colon ++ write l depth v) :: writeMembers l depth rest

end

def toText (l : Layout) (v : Json) : String :=
  String.ofList (v.write l 0)

end LoreTree.Json
