import LoreTree.Json.Numeral
/-!
The tokens of a document. A machine reads one character at a time; between tokens it skips blanks,
so the tokens of a document do not depend on the blanks around them.
-/

namespace LoreTree.Json

inductive Token
  | openArray
  | closeArray
  | openObject
  | closeObject
  | comma
  | colon
  | text (s : String)
  | number (n : Numeral)
  | word (value : Json)

namespace Token

/-- What the machine is in the middle of; characters already read are in reverse. -/
inductive Mode
  | between
  | word (read : List Char)
  | number (read : List Char)
  | text (read : List Char)
  | escape (read : List Char)
  /-- Inside `\u`: the code unit before it if that was the first half of a pair, the number of
  digits still to come, and the value of those read. -/
  | unit (read : List Char) (half : Option Nat) (left value : Nat)
  /-- After the first half of a pair, before the backslash of the second. -/
  | half (read : List Char) (first : Nat)
  | halfEscape (read : List Char) (first : Nat)

structure Machine where
  tokens : List Token
  mode : Mode

def Machine.start : Machine :=
  ⟨[], .between⟩

def isBlank (c : Char) : Bool :=
  c = ' ' || c = '\t' || c = '\n' || c = '\r'

def isNumeric (c : Char) : Bool :=
  c.isDigit || c = '-' || c = '+' || c = '.' || c = 'e' || c = 'E'

def wordValue? (cs : List Char) : Option Json :=
  if cs = nullWord then some .null
  else if cs = trueWord then some (.bool true)
  else if cs = falseWord then some (.bool false)
  else if cs = nanWord then some (.float .nan)
  else if cs = infinityWord then some (.float (.infinite false))
  else if cs = '-' :: infinityWord then some (.float (.infinite true))
  else none

/-- The first character of a token, or a blank. -/
def Machine.between (tokens : List Token) (c : Char) : Option Machine :=
  if isBlank c then some ⟨tokens, .between⟩
  else if c = '[' then some ⟨.openArray :: tokens, .between⟩
  else if c = ']' then some ⟨.closeArray :: tokens, .between⟩
  else if c = '{' then some ⟨.openObject :: tokens, .between⟩
  else if c = '}' then some ⟨.closeObject :: tokens, .between⟩
  else if c = ',' then some ⟨.comma :: tokens, .between⟩
  else if c = ':' then some ⟨.colon :: tokens, .between⟩
  else if c = '"' then some ⟨tokens, .text []⟩
  else if c = '-' || c.isDigit then some ⟨tokens, .number [c]⟩
  else if c.isAlpha then some ⟨tokens, .word [c]⟩
  else none

/-- Ends a number or a word; a text has to be ended by its quote. -/
def Machine.settle? (m : Machine) : Option (List Token) :=
  match m.mode with
  | .between => some m.tokens
  | .word read => (wordValue? read.reverse).map (fun v => .word v :: m.tokens)
  | .number read => (Numeral.ofChars? read.reverse).map (fun n => .number n :: m.tokens)
  | _ => none

def unescape? (c : Char) : Option Char :=
  if c = '"' then some '"'
  else if c = '\\' then some '\\'
  else if c = '/' then some '/'
  else if c = 'b' then some '\x08'
  else if c = 'f' then some '\x0c'
  else if c = 'n' then some '\n'
  else if c = 'r' then some '\r'
  else if c = 't' then some '\t'
  else none

def hexValue? (c : Char) : Option Nat :=
  if c.isDigit then some (c.toNat - '0'.toNat)
  else if 'a' ≤ c ∧ c ≤ 'f' then some (c.toNat - 'a'.toNat + 10)
  else if 'A' ≤ c ∧ c ≤ 'F' then some (c.toNat - 'A'.toNat + 10)
  else none

def isFirstHalf (unit : Nat) : Bool :=
  0xd800 ≤ unit && unit < 0xdc00

def isSecondHalf (unit : Nat) : Bool :=
  0xdc00 ≤ unit && unit < 0xe000

/-- A whole code unit inside a text: halves have to come in pairs. -/
def unitMode? (read : List Char) (half : Option Nat) (unit : Nat) : Option Mode :=
  match half with
  | some first =>
    if isSecondHalf unit then
      some (.text (Char.ofNat (0x10000 + (first - 0xd800) * 0x400 + (unit - 0xdc00)) :: read))
    else none
  | none =>
    if isFirstHalf unit then some (.half read unit)
    else if isSecondHalf unit then none
    else some (.text (Char.ofNat unit :: read))

def Machine.step (m : Machine) (c : Char) : Option Machine :=
  match m.mode with
  | .between => Machine.between m.tokens c
  | .word read =>
    if c.isAlpha then some { m with mode := .word (c :: read) }
    else m.settle?.bind (Machine.between · c)
  | .number read =>
    if isNumeric c then some { m with mode := .number (c :: read) }
    else if c.isAlpha && read = ['-'] then some { m with mode := .word (c :: read) }
    else m.settle?.bind (Machine.between · c)
  | .text read =>
    if c = '"' then some ⟨.text (String.ofList read.reverse) :: m.tokens, .between⟩
    else if c = '\\' then some { m with mode := .escape read }
    else if c.toNat < 0x20 then none
    else some { m with mode := .text (c :: read) }
  | .escape read =>
    if c = 'u' then some { m with mode := .unit read none 4 0 }
    else (unescape? c).map (fun c => { m with mode := .text (c :: read) })
  | .unit read half left value => do
    let unit := 16 * value + (← hexValue? c)
    if left = 1 then
      let mode ← unitMode? read half unit
      return { m with mode }
    else return { m with mode := .unit read half (left - 1) unit }
  | .half read first => if c = '\\' then some { m with mode := .halfEscape read first } else none
  | .halfEscape read first =>
    if c = 'u' then some { m with mode := .unit read (some first) 4 0 } else none

def ofChars? (cs : List Char) : Option (List Token) := do
  let m ← cs.foldlM Machine.step .start
  let tokens ← m.settle?
  return tokens.reverse

end Token

end LoreTree.Json
