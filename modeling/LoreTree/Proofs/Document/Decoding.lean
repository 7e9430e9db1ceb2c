import LoreTree.Lorebook
/-!
The data that a lorebook is written as is read as that lorebook: every member is found under the
name it was written with, and every value is of the kind that is expected there.
-/

namespace LoreTree

section Members

variable {α β : Type} {name : String} {front back : List (String × α)} {x : α}

theorem Json.last?_append (front back : List (String × α)) (name : String) :
    last? (front ++ back) name = (last? back name).or (last? front name) := by
  simp only [last?, List.reverse_append, List.find?_append, Option.map_or]

/-- Members with different names are found by their names, those left out are not found. -/
theorem Json.last?_filterMap (key : β → String) (value : β → Option α) {items : List β} {i : β}
    (different : ∀ j ∈ items, key j = key i → j = i) (member : i ∈ items) :
    last? (items.filterMap fun j => (value j).map fun v => (key j, v)) (key i) = value i := by
  have only {m : String × α}
      (written : m ∈ items.filterMap fun j => (value j).map fun v => (key j, v))
      (named : m.1 = key i) : value i = some m.2 := by
    obtain ⟨j, listed, given⟩ := List.mem_filterMap.1 written
    obtain ⟨v, found, rfl⟩ := Option.map_eq_some_iff.1 given
    rw [← different j listed named]
    exact found
  rw [last?]
  cases found : (items.filterMap fun j => (value j).map fun v => (key j, v)).reverse.find?
      (·.1 = key i) with
  | some m =>
    have named : m.1 = key i := by simpa using List.find?_some found
    exact (only (List.mem_reverse.1 (List.mem_of_find?_eq_some found)) named).symm
  | none =>
    cases given : value i with
    | none => rfl
    | some v =>
      have written : (key i, v) ∈ items.filterMap fun j => (value j).map fun v => (key j, v) :=
        List.mem_filterMap.2 ⟨i, member, by rw [given]; rfl⟩
      have missing := List.find?_eq_none.1 found _ (List.mem_reverse.2 written)
      exact (missing (decide_eq_true rfl)).elim

theorem Json.last?_append_right (h : last? back name = some x) :
    last? (front ++ back) name = some x := by
  rw [last?_append, h, Option.some_or]

theorem Json.last?_append_left (h : last? front name = some x) (other : ∀ m ∈ back, m.1 ≠ name) :
    last? (front ++ back) name = some x := by
  have nothing : last? back name = none := by simpa [last?] using other
  rw [last?_append, nothing, h, Option.none_or]

theorem Json.last?_map (key : β → String) (value : β → α) {items : List β} {i : β}
    (different : ∀ j ∈ items, key j = key i → j = i) (member : i ∈ items) :
    last? (items.map fun j => (key j, value j)) (key i) = some (value i) := by
  rw [← last?_filterMap key (fun j => some (value j)) different member, ← List.filterMap_eq_map]
  rfl

theorem Name.find?_eq_some {n : Name} {members : List (String × Value)} {v : Value}
    (h : Json.last? members n.camel = some v) : n.find? members = some (n.camel, v) := by
  rw [Name.find?, h]

end Members

namespace Json

theorem toValues_eq (items : List Json) : toValues items = items.map toValue := by
  induction items with
  | nil => rfl
  | cons v items ih => simp [toValues, ih]

theorem toMembers_eq (members : List (String × Json)) :
    toMembers members = members.map fun (name, v) => (name, v.toValue) := by
  induction members with
  | nil => rfl
  | cons m members ih => simp [toMembers, ih]

end Json

namespace Reading

variable {α : Type} {members : List (String × Value)} {name : Name} {v : Value} {a absent : α}
  {read : Value → Reading α}

theorem required_of_find? (found : (name.find? members).map Prod.snd = some v)
    (value : read v = .ok a) : required members name read = .ok a := by
  obtain ⟨⟨spelling, w⟩, written, rfl⟩ := Option.map_eq_some_iff.1 found
  rw [required, written]
  simp [under, value]

theorem optional_of_find? (found : (name.find? members).map Prod.snd = some v)
    (value : read v = .ok a) : optional members name absent read = .ok a := by
  obtain ⟨⟨spelling, w⟩, written, rfl⟩ := Option.map_eq_some_iff.1 found
  rw [optional, written]
  simp [under, value]

theorem required_eq_ok (found : Json.last? members name.camel = some v) (value : read v = .ok a) :
    required members name read = .ok a :=
  required_of_find? (by rw [Name.find?_eq_some found]; rfl) value

theorem optional_eq_ok (found : Json.last? members name.camel = some v) (value : read v = .ok a) :
    optional members name absent read = .ok a :=
  optional_of_find? (by rw [Name.find?_eq_some found]; rfl) value

theorem items_eq_ok (write : α → Value) {as : List α} (each : ∀ a ∈ as, read (write a) = .ok a)
    (first : Nat) : items read first (as.map write) = .ok as := by
  induction as generalizing first with
  | nil => rfl
  | cons a as ih =>
    obtain ⟨head, tail⟩ := List.forall_mem_cons.1 each
    rw [List.map_cons, items, head, ih tail]
    rfl

end Reading

theorem Kind.read_toJson (k : Kind) (x : k.Carrier) (origin : Origin) :
    k.read origin (k.toJson x).toValue = .ok x := by
  cases k with
  | text | integer | flag => rfl
  | trim => cases x <;> rfl
  | unit => cases x <;> rfl

namespace Setting

variable {g : SettingGroup}

theorem camel_injective (f h : Setting g) (same : f.name.camel = h.name.camel) : f = h := by
  revert same
  cases f <;> cases h <;> decide

theorem collect_eq_ok {γ : Setting g → Type} {read : (f : Setting g) → Except Fault (γ f)}
    {c : (f : Setting g) → γ f} (each : ∀ f, read f = .ok (c f)) : collect read = .ok c := by
  have all : ∀ f, (read f).toOption.isSome = true := by
    intro f
    rw [each f]
    rfl
  rw [collect, dif_pos all]
  congr 1
  funext f
  simp [each f, Except.toOption]

end Setting

namespace Settings

variable {g : SettingGroup}

theorem last?_toJson (c : Settings g) (f : Setting g) :
    Json.last? (Json.toMembers (c.toJson Name.camel)) f.name.camel =
      some (f.kind.toJson (c.get f)).toValue := by
  have found := Json.last?_map (fun f : Setting g => f.name.camel)
    (fun f => (f.kind.toJson (c.get f)).toValue)
    (fun h _ same => Setting.camel_injective h f same) (Setting.mem_all f)
  rw [Json.toMembers_eq, toJson, List.map_map]
  exact found

theorem read_toJson (c : Settings g) (front : List (String × Value)) (origin : Origin) :
    read origin (front ++ Json.toMembers (c.toJson Name.camel)) = .ok c := by
  have each : ∀ f, Setting.readRequired origin (front ++ Json.toMembers (c.toJson Name.camel)) f =
      .ok (c.get f) := by
    intro f
    rw [Setting.readRequired, Name.find?_eq_some (Json.last?_append_right (c.last?_toJson f))]
    simp [Setting.readAt, Kind.read_toJson]
  rw [read, Setting.collect_eq_ok each]
  rfl

end Settings

namespace Record

def ownMembers (r : Record) : List (String × Value) :=
  [(Lorebook.displayNameName.camel, .text r.displayName), (Lorebook.textName.camel, .text r.text),
   (Lorebook.keysName.camel, .list (r.keys.map .text)),
   (Lorebook.contextName.camel, .dict (Json.toMembers (r.context.toJson Name.camel)))]

def members (r : Record) : List (String × Value) :=
  r.ownMembers ++ Json.toMembers (r.entry.toJson Name.camel)

def ownNames : List String :=
  [Lorebook.displayNameName, Lorebook.textName, Lorebook.keysName, Lorebook.contextName].map
    Name.camel

theorem camel_notMem_ownNames (f : Setting .entry) : f.name.camel ∉ ownNames := by
  cases f <;> decide

theorem toValue_toJson (r : Record) : r.toJson.toValue = .dict r.members := by
  have keys : Json.toValues (r.keys.map .text) = r.keys.map .text := by
    rw [Json.toValues_eq, List.map_map]
    rfl
  rw [toJson, Json.toValue, Json.toMembers_eq, List.map_append, ← Json.toMembers_eq,
    ← Json.toMembers_eq]
  simp [Json.toMembers, Json.toValue, keys, members, ownMembers]

/-- The settings of a record hide none of its other members. -/
theorem last?_members (r : Record) {n : String} {v : Value} (own : n ∈ ownNames)
    (found : Json.last? r.ownMembers n = some v) : Json.last? r.members n = some v := by
  refine Json.last?_append_left found ?_
  simp only [Json.toMembers_eq, Settings.toJson, List.map_map, List.mem_map]
  rintro m ⟨f, -, rfl⟩ same
  rw [← same] at own
  exact camel_notMem_ownNames f own

theorem read_members (r : Record) : read r.members = .ok r := by
  have displayName : Reading.required r.members Lorebook.displayNameName Reading.text =
      .ok r.displayName :=
    Reading.required_eq_ok (r.last?_members (by decide) rfl) rfl
  have text : Reading.required r.members Lorebook.textName Reading.text = .ok r.text :=
    Reading.required_eq_ok (r.last?_members (by decide) rfl) rfl
  have texts : Reading.items Reading.text 0 (r.keys.map .text) = .ok r.keys :=
    Reading.items_eq_ok .text (fun _ _ => rfl) 0
  have keys : Reading.optional r.members Lorebook.keysName [] (Reading.listOf Reading.text) =
      .ok r.keys :=
    Reading.optional_eq_ok (r.last?_members (by decide) rfl) texts
  have context : Reading.required r.members Lorebook.contextName
      (Reading.record (Settings.read .document)) = .ok r.context :=
    Reading.required_eq_ok (r.last?_members (by decide) rfl) (r.context.read_toJson [] .document)
  have entry : Settings.read .document r.members = .ok r.entry :=
    r.entry.read_toJson r.ownMembers .document
  rw [read, displayName, text, keys, context, entry]
  rfl

end Record

namespace Lorebook

def members (l : Lorebook) : List (String × Value) :=
  [(versionName.camel, .int l.version),
   (settingsName.camel, .dict [(orderName.camel, .bool l.orderByKeyLocations)]),
   (recordsName.camel, .list (l.records.map (·.toJson.toValue)))]

theorem toValue_toJson (l : Lorebook) : l.toJson.toValue = .dict l.members := by
  simp [toJson, Json.toValue, Json.toMembers, Json.toValues_eq, members]

theorem ofJson_toJson (l : Lorebook) : ofJson l.toJson = .ok l := by
  have version : Reading.optional l.members versionName 1 Reading.integer = .ok l.version :=
    Reading.optional_eq_ok rfl rfl
  have flag : readSettings .document [(orderName.camel, .bool l.orderByKeyLocations)] =
      .ok l.orderByKeyLocations :=
    Reading.optional_eq_ok rfl rfl
  have order : Reading.optional l.members settingsName false
      (Reading.record (readSettings .document)) = .ok l.orderByKeyLocations :=
    Reading.optional_eq_ok rfl flag
  have each : ∀ r ∈ l.records, Reading.record Record.read r.toJson.toValue = .ok r := by
    intro r _
    rw [r.toValue_toJson]
    exact r.read_members
  have items : Reading.listOf (Reading.record Record.read)
      (.list (l.records.map (·.toJson.toValue))) = .ok l.records :=
    Reading.items_eq_ok _ each 0
  have records : Reading.optional l.members recordsName []
      (Reading.listOf (Reading.record Record.read)) = .ok l.records :=
    Reading.optional_eq_ok rfl items
  rw [ofJson, toValue_toJson, Reading.record, read, version, order, records]
  rfl

end Lorebook

end LoreTree
