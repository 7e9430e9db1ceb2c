import LoreTree.Proofs.Document.Decoding
/-!
Settings that were read once are read again from what they are dumped as: overrides when they are
laid over others or lose some of their values, settings when a record is made of them. The dumps use
the plain names, and a name is looked for in camel case first.
-/

namespace LoreTree

/-- A member under the plain name is the one that counts if no other has the camel case name. -/
theorem Name.find?_plain {n : Name} {members : List (String × Value)} {x : Option Value}
    (found : Json.last? members n.plain = x)
    (others : ∀ m ∈ members, m.1 = n.camel → n.camel = n.plain) :
    (n.find? members).map Prod.snd = x := by
  rw [Name.find?]
  cases camel : Json.last? members n.camel with
  | none =>
    rw [found]
    cases x <;> rfl
  | some v =>
    obtain ⟨m, first, rfl⟩ := Option.map_eq_some_iff.1 camel
    have named : m.1 = n.camel := by simpa using List.find?_some first
    have same := others m (List.mem_reverse.1 (List.mem_of_find?_eq_some first)) named
    rw [← same, camel] at found
    exact found

theorem Kind.toJson_ne_null (k : Kind) (x : k.Carrier) : (k.toJson x).toValue ≠ .null := by
  cases k <;> exact nofun

namespace Setting

variable {g : SettingGroup}

theorem plain_injective (f h : Setting g) (same : f.name.plain = h.name.plain) : f = h := by
  revert same
  cases f <;> cases h <;> decide

/-- The plain name of a setting is the camel case name of no other one. -/
theorem eq_of_plain_eq_camel (f h : Setting g) (same : f.name.plain = h.name.camel) : f = h := by
  revert same
  cases f <;> cases h <;> decide

/-- So a member under a plain name goes by a camel case name only where the two spellings agree. -/
theorem camel_eq_plain {f h : Setting g} {written : String} (plain : written = h.name.plain)
    (named : written = f.name.camel) : f.name.camel = f.name.plain := by
  rw [plain] at named
  cases eq_of_plain_eq_camel h f named
  exact named.symm

theorem readOptional_eq_ok {f : Setting g} {members : List (String × Value)}
    {x : Option f.kind.Carrier}
    (found : (f.name.find? members).map Prod.snd = x.map fun v => (f.kind.toJson v).toValue) :
    readOptional members f = .ok x := by
  rw [readOptional]
  split
  · next absent =>
    rw [absent] at found
    cases x with
    | none => rfl
    | some v => cases found
  · next null =>
    rw [null] at found
    cases x with
    | none => cases found
    | some v => exact (Kind.toJson_ne_null f.kind v (Option.some.inj found).symm).elim
  · next written =>
    rw [written] at found
    cases x with
    | none => cases found
    | some v =>
      cases found
      rw [readAt, Kind.read_toJson]
      rfl

theorem readRequired_eq_ok {origin : Origin} {f : Setting g} {members : List (String × Value)}
    {x : f.kind.Carrier}
    (found : (f.name.find? members).map Prod.snd = some (f.kind.toJson x).toValue) :
    readRequired origin members f = .ok x := by
  obtain ⟨⟨spelling, w⟩, written, rfl⟩ := Option.map_eq_some_iff.1 found
  rw [readRequired, written]
  change f.readAt origin spelling (f.kind.toJson x).toValue = _
  rw [readAt, Kind.read_toJson]

end Setting

namespace Overrides

variable {g : SettingGroup}

def dump (a : Overrides g) : List (String × Value) :=
  Json.toMembers a.toJson

theorem dump_eq (a : Overrides g) :
    a.dump = (Setting.all g).filterMap fun f =>
      ((a.get f).map fun v => (f.kind.toJson v).toValue).map fun v => (f.name.plain, v) := by
  rw [dump, Json.toMembers_eq, toJson, List.map_filterMap]
  congr 1
  funext f
  cases a.get f <;> rfl

theorem last?_dump (a : Overrides g) (f : Setting g) :
    Json.last? a.dump f.name.plain = (a.get f).map fun v => (f.kind.toJson v).toValue := by
  rw [dump_eq]
  exact Json.last?_filterMap (fun f : Setting g => f.name.plain)
    (fun f => (a.get f).map fun v => (f.kind.toJson v).toValue)
    (fun h _ same => Setting.plain_injective h f same) (Setting.mem_all f)

theorem exists_of_mem_dump {a : Overrides g} {m : String × Value} (written : m ∈ a.dump) :
    ∃ f : Setting g, m.1 = f.name.plain := by
  rw [dump_eq] at written
  obtain ⟨f, -, given⟩ := List.mem_filterMap.1 written
  obtain ⟨v, -, rfl⟩ := Option.map_eq_some_iff.1 given
  exact ⟨f, rfl⟩

/-- One dump after another is read as the later overrides laid over the earlier ones. -/
theorem read_dump_append (a b : Overrides g) : read (a.dump ++ b.dump) = .ok (a.overlay b) := by
  have each : ∀ f, Setting.readOptional (a.dump ++ b.dump) f = .ok ((a.overlay b).get f) := by
    intro f
    refine Setting.readOptional_eq_ok (Name.find?_plain ?_ ?_)
    · rw [Json.last?_append, last?_dump, last?_dump, get_overlay, Option.map_or]
    · intro m written named
      rcases List.mem_append.1 written with written | written
      · obtain ⟨h, plain⟩ := exists_of_mem_dump written
        exact Setting.camel_eq_plain plain named
      · obtain ⟨h, plain⟩ := exists_of_mem_dump written
        exact Setting.camel_eq_plain plain named
  rw [read, Setting.collect_eq_ok each]
  rfl

theorem read_dump (a : Overrides g) : read a.dump = .ok a := by
  have nothing : (empty : Overrides g).dump = [] := by
    rw [dump_eq]
    cases g <;> rfl
  have read := read_dump_append a empty
  rw [nothing, List.append_nil, overlay_empty] at read
  exact read

end Overrides

namespace Settings

variable {g : SettingGroup}

def dump (c : Settings g) : List (String × Value) :=
  Json.toMembers (c.toJson Name.plain)

theorem dump_eq (c : Settings g) :
    c.dump = (Setting.all g).map fun f => (f.name.plain, (f.kind.toJson (c.get f)).toValue) := by
  rw [dump, Json.toMembers_eq, toJson, List.map_map]
  rfl

theorem last?_dump (c : Settings g) (f : Setting g) :
    Json.last? c.dump f.name.plain = some (f.kind.toJson (c.get f)).toValue := by
  rw [dump_eq]
  exact Json.last?_map (fun f : Setting g => f.name.plain)
    (fun f => (f.kind.toJson (c.get f)).toValue)
    (fun h _ same => Setting.plain_injective h f same) (Setting.mem_all f)

theorem exists_of_mem_dump {c : Settings g} {m : String × Value} (written : m ∈ c.dump) :
    ∃ f : Setting g, m.1 = f.name.plain := by
  rw [dump_eq] at written
  obtain ⟨f, -, rfl⟩ := List.mem_map.1 written
  exact ⟨f, rfl⟩

/-- Dumped settings are read back after any members that go by other names. -/
theorem read_append_dump (c : Settings g) {front : List (String × Value)}
    (others : ∀ m ∈ front, ∀ f : Setting g, m.1 ≠ f.name.camel) (origin : Origin) :
    read origin (front ++ c.dump) = .ok c := by
  have each : ∀ f, Setting.readRequired origin (front ++ c.dump) f = .ok (c.get f) := by
    intro f
    refine Setting.readRequired_eq_ok (Name.find?_plain ?_ ?_)
    · exact Json.last?_append_right (c.last?_dump f)
    · intro m written named
      rcases List.mem_append.1 written with written | written
      · exact (others m written f named).elim
      · obtain ⟨h, plain⟩ := exists_of_mem_dump written
        exact Setting.camel_eq_plain plain named
  rw [read, Setting.collect_eq_ok each]
  rfl

theorem read_dump (c : Settings g) (origin : Origin) : read origin c.dump = .ok c := by
  have nothing : ∀ m ∈ ([] : List (String × Value)), ∀ f : Setting g, m.1 ≠ f.name.camel := nofun
  exact c.read_append_dump nothing origin

end Settings

namespace Record

def names : List Name :=
  [Lorebook.displayNameName, Lorebook.textName, Lorebook.keysName, Lorebook.contextName]

def ownArguments (r : Record) : List (String × Value) :=
  [(Lorebook.displayNameName.plain, .text r.displayName), (Lorebook.textName.plain, .text r.text),
   (Lorebook.keysName.plain, .list (r.keys.map .text)),
   (Lorebook.contextName.plain, .dict r.context.dump)]

def arguments (r : Record) : List (String × Value) :=
  r.ownArguments ++ r.entry.dump

theorem exists_name_of_mem {r : Record} {m : String × Value} (written : m ∈ r.ownArguments) :
    ∃ n ∈ names, m.1 = n.plain := by
  have listed : m.1 ∈ r.ownArguments.map Prod.fst := List.mem_map_of_mem written
  rw [show r.ownArguments.map Prod.fst = names.map Name.plain from rfl] at listed
  obtain ⟨n, own, same⟩ := List.mem_map.1 listed
  exact ⟨n, own, same.symm⟩

theorem name_apart {n : Name} (own : n ∈ names) (f : Setting .entry) :
    f.name.plain ≠ n.plain ∧ f.name.plain ≠ n.camel ∧ n.plain ≠ f.name.camel := by
  revert n
  cases f <;> decide

theorem camel_eq_plain {n h : Name} (own : n ∈ names) (other : h ∈ names)
    (same : h.plain = n.camel) : n.camel = n.plain := by
  have each : ∀ n ∈ names, ∀ h ∈ names, h.plain = n.camel → n.camel = n.plain := by decide
  exact each n own h other same

theorem find?_arguments {r : Record} {n : Name} {v : Value} (own : n ∈ names)
    (found : Json.last? r.ownArguments n.plain = some v) :
    (n.find? r.arguments).map Prod.snd = some v := by
  refine Name.find?_plain (Json.last?_append_left found ?_) ?_
  · intro m written named
    rw [Settings.dump_eq] at written
    obtain ⟨f, -, rfl⟩ := List.mem_map.1 written
    exact (name_apart own f).1 named
  · intro m written named
    rcases List.mem_append.1 written with written | written
    · obtain ⟨h, other, plain⟩ := exists_name_of_mem written
      exact camel_eq_plain own other (plain.symm.trans named)
    · rw [Settings.dump_eq] at written
      obtain ⟨f, -, rfl⟩ := List.mem_map.1 written
      exact ((name_apart own f).2.1 named).elim

theorem read_entry (r : Record) (origin : Origin) :
    Settings.read origin r.arguments = .ok r.entry := by
  refine r.entry.read_append_dump ?_ origin
  intro m written f named
  obtain ⟨n, own, plain⟩ := exists_name_of_mem written
  exact (name_apart own f).2.2 (plain.symm.trans named)

/-- A record is accepted as it is made: from its texts and keys, its settings dumped. -/
theorem read_arguments (r : Record) : read r.arguments = .ok r := by
  have displayName : Reading.required r.arguments Lorebook.displayNameName Reading.text =
      .ok r.displayName :=
    Reading.required_of_find? (find?_arguments (by decide) rfl) rfl
  have text : Reading.required r.arguments Lorebook.textName Reading.text = .ok r.text :=
    Reading.required_of_find? (find?_arguments (by decide) rfl) rfl
  have texts : Reading.items Reading.text 0 (r.keys.map .text) = .ok r.keys :=
    Reading.items_eq_ok .text (fun _ _ => rfl) 0
  have keys : Reading.optional r.arguments Lorebook.keysName [] (Reading.listOf Reading.text) =
      .ok r.keys :=
    Reading.optional_of_find? (find?_arguments (by decide) rfl) texts
  have context : Reading.required r.arguments Lorebook.contextName
      (Reading.record (Settings.read .document)) = .ok r.context :=
    Reading.required_of_find? (find?_arguments (by decide) rfl) (r.context.read_dump .document)
  rw [read, displayName, text, keys, context, r.read_entry .document]
  rfl

end Record

end LoreTree
