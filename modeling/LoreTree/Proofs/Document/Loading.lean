import LoreTree.Proofs.Document.Rewriting
import LoreTree.Proofs.Document.RoundTrip
import Mathlib.Logic.Relation
/-!
Loading a lorebook depends only on what the fields of its document hold. Rewriting the document gives
the same lorebook or the same faults, which may name a field in its other spelling.
-/

namespace LoreTree

section Camel

def fieldNames : List Name :=
  [Shape.lorebook, .settings, .record, .context].flatMap fun shape => shape.fields.map Prod.fst

def Step.inCamelCase : Step → Step
  | .name s => .name (((fieldNames.find? fun n => decide (n.Spells s)).map Name.camel).getD s)
  | .index n => .index n

def Fault.inCamelCase (f : Fault) : Fault :=
  { f with place := f.place.map Step.inCamelCase }

/-- The same reading, its faults naming the fields in camel case. -/
def Reading.inCamelCase (r : Reading α) : Reading α :=
  r.mapError (List.map Fault.inCamelCase)

theorem Shape.mem_fieldNames {shape : Shape} {f : Name × Shape} (field : f ∈ shape.fields) :
    f.1 ∈ fieldNames := by
  have name : f.1 ∈ shape.fields.map Prod.fst := List.mem_map_of_mem field
  cases shape with
  | lorebook | settings | record | context =>
    exact List.mem_flatMap.2 ⟨_, by decide, name⟩
  | records | other => cases field

theorem Step.inCamelCase_of_spells {n : Name} {s : String} (field : n ∈ fieldNames)
    (spelled : n.Spells s) : (Step.name s).inCamelCase = .name n.camel := by
  have each : ∀ n ∈ fieldNames, (Step.name n.camel).inCamelCase = .name n.camel ∧
      (Step.name n.plain).inCamelCase = .name n.camel := by
    decide +kernel
  rcases spelled with rfl | rfl
  · exact (each n field).1
  · exact (each n field).2

end Camel

namespace Reading

variable {α β : Type}

/-- Readings with the same result, or with the same faults up to the spelling of fields. -/
def Same (r r' : Reading α) : Prop :=
  inCamelCase r = inCamelCase r'

theorem Same.map {r r' : Reading α} (same : Same r r') (f : α → β) : Same (r.map f) (r'.map f) := by
  have inner : ∀ r : Reading α, inCamelCase (r.map f) = (inCamelCase r).map f := by
    intro r
    cases r <;> rfl
  rw [Same, inner, inner, same]

theorem Same.both {r r' : Reading α} {t t' : Reading β} (first : Same r r') (second : Same t t') :
    Same (r.both t) (r'.both t') := by
  have inner : ∀ (r : Reading α) (t : Reading β),
      inCamelCase (r.both t) = (inCamelCase r).both (inCamelCase t) := by
    intro r t
    cases r <;> cases t <;> simp [Reading.both, inCamelCase, Except.mapError]
  rw [Same, inner, inner, first, second]

theorem Same.under {r r' : Reading α} (same : Same r r') {step step' : Step}
    (steps : step.inCamelCase = step'.inCamelCase) :
    Same (under step r) (under step' r') := by
  have inner : ∀ (step : Step) (r : Reading α),
      inCamelCase (Reading.under step r) = Reading.under step.inCamelCase (inCamelCase r) := by
    intro step r
    cases r <;> simp [Reading.under, inCamelCase, Except.mapError, Fault.under, Fault.inCamelCase]
  rw [Same, inner, inner, steps, same]

/-- Lists that differ in one item are read as the same if that item is. -/
theorem Same.listOf {read : Value → Reading α} {v w : Value} (same : Same (read v) (read w))
    (front back : List Value) :
    Same (Reading.listOf read (.list (front ++ v :: back)))
      (Reading.listOf read (.list (front ++ w :: back))) := by
  have each : ∀ n, Same (items read n (front ++ v :: back)) (items read n (front ++ w :: back)) := by
    induction front with
    | nil => exact fun n => ((same.under rfl).both rfl).map _
    | cons x front ih => exact fun n => (Same.both rfl (ih (n + 1))).map _
  exact each 0

end Reading

def Reading.Agree (read : Value → Reading α) (v w : Value) : Prop :=
  Same (read v) (read w)

/-- Parts of a document are read alike by all that reads such parts. -/
def Shape.Agree : Shape → Value → Value → Prop
  | .lorebook => Reading.Agree (Reading.record Lorebook.read)
  | .settings => Reading.Agree (Reading.record (Lorebook.readSettings .document))
  | .records => Reading.Agree (Reading.listOf (Reading.record Record.read))
  | .record => Reading.Agree (Reading.record Record.read)
  | .context => Reading.Agree (Reading.record (@Settings.read .context .document))
  | .other => fun v w =>
    (∀ k : Kind, k.read .document v = k.read .document w) ∧
      Reading.Agree (Reading.listOf Reading.text) v w

theorem Shape.agree_refl (shape : Shape) (v : Value) : shape.Agree v v := by
  cases shape with
  | other => exact ⟨fun _ => rfl, rfl⟩
  | _ => rfl

section Fields

variable {α : Type} {shape : Shape} {f : Name × Shape} {members members' : List (String × Value)}

/-- Two objects hold a field alike. -/
inductive Alike (f : Name × Shape) (members members' : List (String × Value)) : Prop
  | absent (left : f.1.find? members = none) (right : f.1.find? members' = none)
  | held {s s' v v'} (left : f.1.find? members = some (s, v))
    (right : f.1.find? members' = some (s', v')) (spelled : f.1.Spells s) (spelled' : f.1.Spells s')
    (agree : f.2.Agree v v')

/-- Of a field that is held once that member is found. -/
theorem Name.find?_of_held {n : Name} (once : (n.held members).length ≤ 1) :
    n.find? members = (n.held members).head? := by
  -- a look-up under one spelling goes through the members that are held
  have found : ∀ s, n.Spells s →
      Json.last? members s = ((n.held members).find? (·.1 = s)).map Prod.snd := by
    intro s spelled
    have reversed : (n.held members).reverse = n.held members := by
      rcases eq_nil_or_singleton once with none | ⟨m, single⟩
      · rw [none, List.reverse_nil]
      · rw [single, List.reverse_singleton]
    rw [Json.last?, ← reversed, held, ← List.filter_reverse, List.find?_filter]
    congr 2
    funext m
    by_cases same : m.1 = s
    · simp [same, spelled]
    · simp [same]
  rw [find?, found n.camel (.inl rfl), found n.plain (.inr rfl)]
  rcases eq_nil_or_singleton once with none | ⟨⟨s, v⟩, single⟩
  · rw [none]
    rfl
  · have member : (s, v) ∈ n.held members := by rw [single]; exact List.mem_cons_self
    have spelled : n.Spells s := of_decide_eq_true (List.mem_filter.1 member).2
    rw [single]
    by_cases camel : s = n.camel
    · simp [camel]
    · have plain := spelled.resolve_left camel
      subst plain
      simp [camel]

theorem Step.inCamelCase_eq {n : Name} {s s' : String} (field : n ∈ fieldNames)
    (spelled : n.Spells s) (spelled' : n.Spells s') :
    (Step.name s).inCamelCase = (Step.name s').inCamelCase := by
  rw [inCamelCase_of_spells field spelled, inCamelCase_of_spells field spelled']

theorem Alike.required {read : Value → Reading α} (alike : Alike f members members')
    (field : f.1 ∈ fieldNames) (follows : ∀ {v w}, f.2.Agree v w → Reading.Agree read v w) :
    Reading.Same (Reading.required members f.1 read) (Reading.required members' f.1 read) := by
  cases alike with
  | absent left right =>
    simp only [Reading.required, left, right]
    rfl
  | held left right spelled spelled' agree =>
    simp only [Reading.required, left, right]
    exact (follows agree).under (Step.inCamelCase_eq field spelled spelled')

theorem Alike.optional {read : Value → Reading α} {absent : α} (alike : Alike f members members')
    (field : f.1 ∈ fieldNames) (follows : ∀ {v w}, f.2.Agree v w → Reading.Agree read v w) :
    Reading.Same (Reading.optional members f.1 absent read)
      (Reading.optional members' f.1 absent read) := by
  cases alike with
  | absent left right =>
    simp only [Reading.optional, left, right]
    rfl
  | held left right spelled spelled' agree =>
    simp only [Reading.optional, left, right]
    exact (follows agree).under (Step.inCamelCase_eq field spelled spelled')

end Fields

section Settings

variable {g : SettingGroup} {members members' : List (String × Value)}

theorem Reading.inCamelCase_collect {β : Setting g → Type}
    (read : (f : Setting g) → Except Fault (β f)) :
    inCamelCase (Setting.collect read) =
      Setting.collect fun f => (read f).mapError Fault.inCamelCase := by
  have kept : ∀ f, ((read f).mapError Fault.inCamelCase).toOption = (read f).toOption := by
    intro f
    cases read f <;> rfl
  by_cases all : ∀ f, (read f).toOption.isSome
  · have all' : ∀ f, ((read f).mapError Fault.inCamelCase).toOption.isSome := by
      simpa only [kept] using all
    rw [Setting.collect, Setting.collect, dif_pos all, dif_pos all']
    exact congrArg Except.ok (funext fun f => by simp only [kept])
  · have all' : ¬∀ f, ((read f).mapError Fault.inCamelCase).toOption.isSome := by
      simpa only [kept] using all
    rw [Setting.collect, Setting.collect, dif_neg all, dif_neg all']
    simp only [inCamelCase, Except.mapError, List.map_filterMap]
    congr 2
    funext f
    cases read f <;> rfl

theorem Alike.readRequired {f : Setting g} (field : f.name ∈ fieldNames)
    (alike : Alike (f.name, .other) members members') :
    (Setting.readRequired .document members f).mapError Fault.inCamelCase =
      (Setting.readRequired .document members' f).mapError Fault.inCamelCase := by
  cases alike with
  | absent left right => simp only [Setting.readRequired, left, right]
  | @held s s' v v' left right spelled spelled' agree =>
    have place : ∀ rule, Fault.inCamelCase ⟨rule, [.name s]⟩ = Fault.inCamelCase ⟨rule, [.name s']⟩ := by
      intro rule
      simp [Fault.inCamelCase, Step.inCamelCase_eq field spelled spelled']
    simp only [Setting.readRequired, left, right, Setting.readAt, agree.1 f.kind]
    cases f.kind.read .document v' with
    | ok x => rfl
    | error rule => simp [Except.mapError, place]

theorem Settings.same_read
    (each : ∀ f : Setting g, f.name ∈ fieldNames ∧ Alike (f.name, .other) members members') :
    Reading.Same (@read g .document members) (@read g .document members') := by
  have same : (fun f : Setting g =>
      (Setting.readRequired .document members f).mapError Fault.inCamelCase) =
      fun f => (Setting.readRequired .document members' f).mapError Fault.inCamelCase :=
    funext fun f => (each f).2.readRequired (each f).1
  have collected : Reading.Same
      (Setting.collect (Setting.readRequired .document members : (f : Setting g) → _))
      (Setting.collect (Setting.readRequired .document members')) := by
    rw [Reading.Same, Reading.inCamelCase_collect, Reading.inCamelCase_collect, same]
  exact collected.map _

end Settings

namespace Shape

variable {shape : Shape} {members members' : List (String × Value)} {v w : Value}

theorem Agree.text (agree : Shape.other.Agree v w) : Reading.Agree Reading.text v w :=
  congrArg (fun r => Reading.inCamelCase (Reading.ofRule r)) (agree.1 .text)

theorem Agree.integer (agree : Shape.other.Agree v w) : Reading.Agree Reading.integer v w :=
  congrArg (fun r => Reading.inCamelCase (Reading.ofRule r)) (agree.1 .integer)

theorem Agree.flag (agree : Shape.other.Agree v w) :
    Reading.Agree (Reading.flag .document) v w :=
  congrArg (fun r => Reading.inCamelCase (Reading.ofRule r)) (agree.1 .flag)

theorem agree_lorebook (each : ∀ f ∈ Shape.lorebook.fields, Alike f members members') :
    Shape.lorebook.Agree (.dict members) (.dict members') := by
  have version := each (Lorebook.versionName, .other) (by decide)
  have order := each (Lorebook.settingsName, .settings) (by decide)
  have records := each (Lorebook.recordsName, .records) (by decide)
  refine Reading.Same.map (Reading.Same.both ?_ (Reading.Same.both ?_ ?_)) _
  · exact version.optional (by decide) fun h => h.integer
  · exact order.optional (by decide) id
  · exact records.optional (by decide) id

theorem agree_settings (each : ∀ f ∈ Shape.settings.fields, Alike f members members') :
    Shape.settings.Agree (.dict members) (.dict members') :=
  (each (Lorebook.orderName, .other) (by decide)).optional (by decide) fun h => h.flag

theorem agree_context (each : ∀ f ∈ Shape.context.fields, Alike f members members') :
    Shape.context.Agree (.dict members) (.dict members') := by
  refine Settings.same_read fun f => ?_
  have field : (f.name, Shape.other) ∈ Shape.context.fields :=
    List.mem_map.2 ⟨f, Setting.mem_all f, rfl⟩
  exact ⟨mem_fieldNames field, each _ field⟩

theorem agree_record (each : ∀ f ∈ Shape.record.fields, Alike f members members') :
    Shape.record.Agree (.dict members) (.dict members') := by
  have displayName := each (Lorebook.displayNameName, .other) (by decide)
  have text := each (Lorebook.textName, .other) (by decide)
  have keys := each (Lorebook.keysName, .other) (by decide)
  have context := each (Lorebook.contextName, .context) (by decide)
  refine Reading.Same.map (Reading.Same.both ?_ (Reading.Same.both ?_ (Reading.Same.both ?_
    (Reading.Same.both ?_ ?_)))) _
  · exact displayName.required (by decide) fun h => h.text
  · exact text.required (by decide) fun h => h.text
  · exact keys.optional (by decide) And.right
  · exact context.required (by decide) id
  · refine Settings.same_read fun f => ?_
    have field : (f.name, Shape.other) ∈ Shape.record.fields :=
      List.mem_append_right _ (List.mem_map.2 ⟨f, Setting.mem_all f, rfl⟩)
    exact ⟨mem_fieldNames field, each _ field⟩

theorem agree_dict (each : ∀ f ∈ shape.fields, Alike f members members') :
    shape.Agree (.dict members) (.dict members') := by
  cases shape with
  | lorebook => exact agree_lorebook each
  | settings => exact agree_settings each
  | records => rfl
  | record => exact agree_record each
  | context => exact agree_context each
  | other => exact ⟨fun k => by cases k <;> rfl, rfl⟩

theorem agree_list (same : shape.item.Agree v w) (front back : List Value) :
    shape.Agree (.list (front ++ v :: back)) (.list (front ++ w :: back)) := by
  cases shape with
  | records => exact Reading.Same.listOf same front back
  | other => exact ⟨fun k => by cases k <;> rfl, same.text.listOf front back⟩
  | _ => rfl

end Shape

section Documents

variable {shape : Shape} {members members' : List (String × Json.Document)}

theorem Json.Document.toValue_object (members : List (String × Document)) :
    (object members).value.toValue = .dict (members.map fun m => (m.1, m.2.value.toValue)) := by
  rw [value_object, Json.toValue, toMembers_eq, List.map_map]
  rfl

theorem Json.Document.toValue_array (items : List Document) :
    (array items).value.toValue = .list (items.map fun d => d.value.toValue) := by
  rw [value_array, Json.toValue, toValues_eq, List.map_map]
  rfl

/-- Documents of one shape are read alike. -/
def Shape.AgreeOn (shape : Shape) (d d' : Json.Document) : Prop :=
  shape.Agree d.value.toValue d'.value.toValue

theorem Shape.Matches.alike {f : Name × Shape} (matched : shape.Matches AgreeOn members members')
    (once : shape.Once members) (once' : shape.Once members') (field : f ∈ shape.fields) :
    Alike f (members.map fun m => (m.1, m.2.value.toValue))
      (members'.map fun m => (m.1, m.2.value.toValue)) := by
  have found : ∀ {ms : List (String × Json.Document)}, shape.Once ms →
      f.1.find? (ms.map fun m => (m.1, m.2.value.toValue)) =
        (f.1.held ms).head?.map fun m => (m.1, m.2.value.toValue) := by
    intro ms few
    have mapped := f.1.held_map (fun d : Json.Document => d.value.toValue) ms
    have image : (f.1.held (ms.map fun m => (m.1, m.2.value.toValue))).length ≤ 1 := by
      rw [mapped, List.length_map]
      exact few f field
    rw [Name.find?_of_held image, mapped, List.head?_map]
  have spelled : ∀ {ms : List (String × Json.Document)} {m}, m ∈ f.1.held ms → f.1.Spells m.1 :=
    fun member => of_decide_eq_true (List.mem_filter.1 member).2
  have pair := matched f field
  cases left : f.1.held members with
  | nil =>
    rw [left] at pair
    have right := List.forall₂_nil_left_iff.1 pair
    exact .absent (by rw [found once, left]; rfl) (by rw [found once', right]; rfl)
  | cons m rest =>
    rw [left] at pair
    obtain ⟨m', rest', agree, -, right⟩ := List.forall₂_cons_left_iff.1 pair
    have member : m ∈ f.1.held members := by rw [left]; exact List.mem_cons_self
    have member' : m' ∈ f.1.held members' := by rw [right]; exact List.mem_cons_self
    exact .held (by rw [found once, left]; rfl) (by rw [found once', right]; rfl) (spelled member)
      (spelled member') agree

theorem Json.Document.Rewrites.agree {b : Json.Bounds} {depth : Nat} {d d' : Json.Document}
    (step : d.Rewrites b shape depth d') (proper : d.value.isProper shape = true) :
    d'.value.isProper shape = true ∧ shape.AgreeOn d d' := by
  refine step.isProper_related (fun shape d => shape.agree_refl _) ?_ ?_ proper
  · intro shape members members' once once' matched
    rw [Shape.AgreeOn, toValue_object, toValue_object]
    exact Shape.agree_dict fun f field => matched.alike once once' field
  · intro shape front back d d' same
    rw [Shape.AgreeOn, toValue_array, toValue_array, List.map_append, List.map_append, List.map_cons,
      List.map_cons]
    exact Shape.agree_list same _ _

end Documents

namespace Lorebook

variable {s t : Json.Source}

theorem ofText_eq (s : Json.Source) : ofText s.text =
    if s.document.fits bounds 0 then ofJson s.document.value
    else .error [⟨.documentUnreadable, []⟩] := by
  rw [ofText, s.ofString?_text, (s.document.reads_tokens bounds).ofTokens?]
  cases s.document.fits bounds 0 <;> rfl

theorem ofText_eq_of_tokens (same : s.document.tokens = t.document.tokens) :
    ofText s.text = ofText t.text := by
  rw [ofText, ofText, s.ofString?_text, t.ofString?_text, same]

/-- One step keeps a document proper and its reading the same. -/
theorem same_of_rewrites (step : s.Rewrites bounds t)
    (proper : s.document.value.isProper .lorebook = true) :
    t.document.value.isProper .lorebook = true ∧ Reading.Same (ofText s.text) (ofText t.text) := by
  cases step with
  | document step =>
    obtain ⟨proper', agree⟩ := step.agree proper
    refine ⟨proper', ?_⟩
    rw [ofText_eq, ofText_eq, ← step.fits_eq]
    by_cases fits : s.document.fits bounds 0 = true
    · rw [if_pos fits, if_pos fits]
      exact agree
    · rw [if_neg fits, if_neg fits]
      rfl
  | blanks same =>
    have tokens := Json.Source.tokens_eq_of_withoutBlanks same
    rw [← Json.Source.value_eq_of_tokens tokens, ofText_eq_of_tokens tokens]
    exact ⟨proper, rfl⟩

end Lorebook

/-- Rewriting a proper document in any number of steps changes nothing but the spelling of the fields
that faults name: the same lorebook is loaded, or the same faults are found in the same order. -/
theorem loading_depends_on_fields {s t : Json.Source}
    (proper : s.document.value.isProper .lorebook = true)
    (rewritten : Relation.ReflTransGen (Json.Source.Rewrites Lorebook.bounds) s t) :
    (Lorebook.ofText s.text).inCamelCase = (Lorebook.ofText t.text).inCamelCase := by
  suffices kept : t.document.value.isProper .lorebook = true ∧
      (Lorebook.ofText s.text).inCamelCase = (Lorebook.ofText t.text).inCamelCase from kept.2
  induction rewritten with
  | refl => exact ⟨proper, rfl⟩
  | tail _ step ih =>
    obtain ⟨proper', same⟩ := ih
    obtain ⟨proper'', same'⟩ := Lorebook.same_of_rewrites step proper'
    exact ⟨proper'', same.trans same'⟩

section Sources

open Json

/-- A document as it is written from its value, in one of the layouts. -/
def writtenSource (l : Layout) (d : Document) (exact : d.value.isExact = true)
    (same : d.value.tokens = d.tokens) : Source where
  document := d
  text := d.value.toText l
  written := by rw [toText, String.toList_ofList, Token.ofChars?_write l exact, same]

/-- A flag that cannot be read, under a spelling of its name. -/
def flagMember (spelling : String) : String × Document :=
  ("settings", .object [(spelling, .text "maybe")])

def snakeSource : Source :=
  writtenSource .compact
    (.object [flagMember "order_by_key_locations", ("lorebook_version", .text "2")]) rfl rfl

def camelSource : Source :=
  writtenSource .compact
    (.object [flagMember "orderByKeyLocations", ("lorebook_version", .text "2")]) rfl rfl

def notedSource : Source :=
  writtenSource .compact
    (.object [flagMember "orderByKeyLocations", ("note", .array []), ("lorebook_version", .text "2")])
    rfl rfl

def turnedSource (l : Layout) : Source :=
  writtenSource l
    (.object [("lorebook_version", .text "2"), ("note", .array []), flagMember "orderByKeyLocations"])
    rfl rfl

theorem rewritten_turnedSource :
    Relation.ReflTransGen (Source.Rewrites Lorebook.bounds) snakeSource
      (turnedSource (.indented 2)) := by
  have respelled : Source.Rewrites Lorebook.bounds snakeSource camelSource := by
    refine .document (@Document.Rewrites.member _ _ _ [] _ _ _ _ ?_)
    exact @Document.Rewrites.respell _ _ _ [] [] (Lorebook.orderName, .other) _ _ _
      (by decide) (by decide) (by decide)
  have noted : Source.Rewrites Lorebook.bounds camelSource notedSource :=
    .document (@Document.Rewrites.insert _ _ _ [_] _ _ _ (by decide) rfl)
  have turned : Source.Rewrites Lorebook.bounds notedSource (turnedSource .compact) :=
    .document (.permute (List.reverse_perm _).symm)
  have spaced : Source.Rewrites Lorebook.bounds (turnedSource .compact)
      (turnedSource (.indented 2)) :=
    .blanks (by decide +kernel)
  exact (((Relation.ReflTransGen.single respelled).tail noted).tail turned).tail spaced

theorem loading_depends_on_fields_respelled :
    snakeSource.document.value.isProper .lorebook = true ∧
      Relation.ReflTransGen (Source.Rewrites Lorebook.bounds) snakeSource
        (turnedSource (.indented 2)) ∧
      Lorebook.ofText snakeSource.text =
        .error [⟨.flagUnreadable, [.name "settings", .name "order_by_key_locations"]⟩] ∧
      Lorebook.ofText (turnedSource (.indented 2)).text =
        .error [⟨.flagUnreadable, [.name "settings", .name "orderByKeyLocations"]⟩] ∧
      (Lorebook.ofText snakeSource.text).inCamelCase =
        (Lorebook.ofText (turnedSource (.indented 2)).text).inCamelCase := by
  refine ⟨rfl, rewritten_turnedSource, by decide +kernel, by decide +kernel, ?_⟩
  exact loading_depends_on_fields rfl rewritten_turnedSource

def emptySource : Source :=
  writtenSource .compact (.object []) rfl rfl

def numberSource (n : Int) : Source :=
  writtenSource .compact (.object [("note", .number (.ofInt n))]) rfl (by
    have whole : (Document.object [("note", .number (.ofInt n))]).value =
        .object [("note", .int n)] := by
      rw [← Numeral.toJson_ofInt n]
      rfl
    rw [whole]
    rfl)

theorem fits_numberSource (n : Int) : (numberSource n).document.fits Lorebook.bounds 0 =
    decide ((Decimal.ofInt n).length ≤ 4300) := by
  have member : (numberSource n).document = .object [("note", .number (.ofInt n))] := rfl
  rw [member, Document.fits_object]
  simp [Document.fits, Document.fold, Reader.within, Lorebook.bounds, Numeral.signedWhole_ofInt]

/-- A member that is larger than the reader allows makes a document unreadable even where nobody
reads it. -/
theorem not_loading_depends_on_fields :
    ¬ ∀ s t : Source, s.document.value.isProper .lorebook = true →
      Relation.ReflTransGen (Source.Rewrites {}) s t →
      (Lorebook.ofText s.text).inCamelCase = (Lorebook.ofText t.text).inCamelCase := by
  have apart : ∀ k, 4300 ≤ k →
      (Lorebook.ofText emptySource.text).inCamelCase ≠
        (Lorebook.ofText (numberSource (.ofNat (Nat.pow 10 k))).text).inCamelCase := by
    intro k many
    have digits := Nat.lt_of_le_of_lt many (Decimal.lt_length_digits_pow k)
    have long : ¬(numberSource (.ofNat (Nat.pow 10 k))).document.fits Lorebook.bounds 0 = true := by
      rw [fits_numberSource]
      exact mt of_decide_eq_true (Nat.not_le.2 digits)
    have short : emptySource.document.fits Lorebook.bounds 0 = true := rfl
    rw [Lorebook.ofText_eq, Lorebook.ofText_eq, if_pos short, if_neg long]
    nofun
  intro unchanged
  have inserted : Source.Rewrites {} emptySource (numberSource (.ofNat (Nat.pow 10 4300))) :=
    .document (@Document.Rewrites.insert _ _ _ [] [] _ _ (by decide) rfl)
  exact apart 4300 (Nat.le_refl _) (unchanged _ _ rfl (.single inserted))

end Sources

end LoreTree
