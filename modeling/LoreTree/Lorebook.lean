import LoreTree.Settings.Reading
import LoreTree.Json.Reader
import LoreTree.Json.Writer
/-!
The document that a build gives, and its form as data: one object for the lorebook, one for its
settings and one for every record. Reading accepts either spelling of a name, ignores the names it
does not know, and reports every fault.
-/

namespace LoreTree

structure Record where
  displayName : String
  text : String
  keys : List String
  context : Settings .context
  entry : Settings .entry
  deriving DecidableEq

structure Lorebook where
  version : Int := 1
  orderByKeyLocations : Bool := false
  records : List Record := []
  deriving DecidableEq

namespace Lorebook

def versionName : Name := ⟨"lorebook_version", "lorebookVersion"⟩
def settingsName : Name := ⟨"settings", "settings"⟩
def recordsName : Name := ⟨"entries", "entries"⟩
def orderName : Name := ⟨"order_by_key_locations", "orderByKeyLocations"⟩
def displayNameName : Name := ⟨"display_name", "displayName"⟩
def textName : Name := ⟨"text", "text"⟩
def keysName : Name := ⟨"keys", "keys"⟩
def contextName : Name := ⟨"context_config", "contextConfig"⟩

end Lorebook

def Record.toJson (r : Record) : Json :=
  .object (
    [(Lorebook.displayNameName.camel, .text r.displayName),
     (Lorebook.textName.camel, .text r.text),
     (Lorebook.keysName.camel, .array (r.keys.map .text)),
     (Lorebook.contextName.camel, .object (r.context.toJson Name.camel))] ++
    r.entry.toJson Name.camel)

def Lorebook.toJson (l : Lorebook) : Json :=
  .object
    [(versionName.camel, .int l.version),
     (settingsName.camel, .object [(orderName.camel, .bool l.orderByKeyLocations)]),
     (recordsName.camel, .array (l.records.map Record.toJson))]

def Lorebook.toText (layout : Json.Layout) (l : Lorebook) : String :=
  l.toJson.toText layout

mutual

def Json.toValue : Json → Value
  | .null => .null
  | .bool b => .bool b
  | .int n => .int n
  | .float x => .float x
  | .text s => .text s
  | .array items => .list (toValues items)
  | .object members => .dict (toMembers members)

def Json.toValues : List Json → List Value
  | [] => []
  | v :: vs => v.toValue :: toValues vs

def Json.toMembers : List (String × Json) → List (String × Value)
  | [] => []
  | (name, v) :: rest => (name, v.toValue) :: toMembers rest

end

namespace Reading

def ofRule (r : Except Rule α) : Reading α :=
  match r with
  | .ok a => .ok a
  | .error rule => .error [⟨rule, []⟩]

def record (read : List (String × Value) → Reading α) : Value → Reading α
  | .dict members => read members
  | _ => .error [⟨.recordExpected, []⟩]

def listOf (read : Value → Reading α) : Value → Reading (List α)
  | .list vs => items read 0 vs
  | _ => .error [⟨.listExpected, []⟩]

/-- A member that stands for `absent` if it is left out. -/
def optional (members : List (String × Value)) (name : Name) (absent : α)
    (read : Value → Reading α) : Reading α :=
  match name.find? members with
  | none => .ok absent
  | some (spelling, v) => under (.name spelling) (read v)

def required (members : List (String × Value)) (name : Name) (read : Value → Reading α) :
    Reading α :=
  match name.find? members with
  | none => .error [⟨.missing, [.name name.camel]⟩]
  | some (spelling, v) => under (.name spelling) (read v)

def text (v : Value) : Reading String :=
  ofRule (Kind.readText v)

def integer (v : Value) : Reading Int :=
  ofRule (Kind.readInteger v)

def flag (origin : Origin) (v : Value) : Reading Bool :=
  ofRule (Kind.readFlag origin v)

end Reading

def Record.read (members : List (String × Value)) : Reading Record :=
  let displayName := Reading.required members Lorebook.displayNameName Reading.text
  let text := Reading.required members Lorebook.textName Reading.text
  let keys := Reading.optional members Lorebook.keysName [] (Reading.listOf Reading.text)
  let context := Reading.required members Lorebook.contextName (Reading.record (Settings.read .document))
  let entry := Settings.read .document members
  (displayName.both (text.both (keys.both (context.both entry)))).map
    fun (displayName, text, keys, context, entry) => { displayName, text, keys, context, entry }

def Lorebook.readSettings (origin : Origin) (members : List (String × Value)) : Reading Bool :=
  Reading.optional members orderName false (Reading.flag origin)

def Lorebook.read (members : List (String × Value)) : Reading Lorebook :=
  let version := Reading.optional members versionName 1 Reading.integer
  let order := Reading.optional members settingsName false (Reading.record (readSettings .document))
  let records := Reading.optional members recordsName [] (Reading.listOf (Reading.record Record.read))
  (version.both (order.both records)).map
    fun (version, orderByKeyLocations, records) => { version, orderByKeyLocations, records }

def Lorebook.ofJson (v : Json) : Reading Lorebook :=
  Reading.record read v.toValue

def Lorebook.bounds : Json.Bounds :=
  ⟨some 200, some 4300⟩

def Lorebook.ofText (s : String) : Reading Lorebook :=
  match Json.ofString? bounds s with
  | some v => ofJson v
  | none => .error [⟨.documentUnreadable, []⟩]

end LoreTree
