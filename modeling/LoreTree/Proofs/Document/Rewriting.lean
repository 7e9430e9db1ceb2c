import LoreTree.Lorebook
import LoreTree.Proofs.Document.Spacing
import Mathlib.Data.List.Perm.Basic
/-!
Rewriting the document of a lorebook. Members change their order, members that are no fields come in,
fields go from one spelling to the other; what an object holds for a field stays the same, if it holds
each field once.
-/

namespace LoreTree

def Name.Spells (n : Name) (s : String) : Prop :=
  s = n.camel ∨ s = n.plain

instance (n : Name) (s : String) : Decidable (n.Spells s) :=
  inferInstanceAs (Decidable (_ ∨ _))

/-- The members that go by a name, in either spelling. -/
def Name.held (n : Name) (members : List (String × α)) : List (String × α) :=
  members.filter fun m => decide (n.Spells m.1)

/-- What a part of the document of a lorebook stands for. -/
inductive Shape
  | lorebook
  | settings
  | records
  | record
  | context
  | other
  deriving DecidableEq

namespace Shape

/-- The fields of an object, each with what it holds. -/
def fields : Shape → List (Name × Shape)
  | .lorebook =>
    [(Lorebook.versionName, .other), (Lorebook.settingsName, .settings),
     (Lorebook.recordsName, .records)]
  | .settings => [(Lorebook.orderName, .other)]
  | .record =>
    [(Lorebook.displayNameName, .other), (Lorebook.textName, .other), (Lorebook.keysName, .other),
     (Lorebook.contextName, .context)] ++
    (Setting.all .entry).map fun f => (f.name, .other)
  | .context => (Setting.all .context).map fun f => (f.name, .other)
  | _ => []

/-- What the member of a name holds. -/
def member (shape : Shape) (name : String) : Shape :=
  ((shape.fields.find? fun f => decide (f.1.Spells name)).map Prod.snd).getD .other

def item : Shape → Shape
  | .records => .record
  | _ => .other

variable {shape : Shape} {f : Name × Shape} {s t : String}

theorem member_of_spells (field : f ∈ shape.fields) (spelled : f.1.Spells s) :
    shape.member s = f.2 := by
  have each : ∀ shape : Shape, ∀ f ∈ shape.fields,
      shape.member f.1.camel = f.2 ∧ shape.member f.1.plain = f.2 := by
    intro shape
    cases shape <;> decide +kernel
  rcases spelled with rfl | rfl
  · exact (each shape f field).1
  · exact (each shape f field).2

theorem member_of_unknown (unknown : ∀ f ∈ shape.fields, ¬f.1.Spells s) :
    shape.member s = .other := by
  have nothing : (shape.fields.find? fun f => decide (f.1.Spells s)) = none := by
    simpa using unknown
  rw [member, nothing]
  rfl

/-- No two fields of an object share a spelling. -/
theorem spells_iff (field : f ∈ shape.fields) (spelled : f.1.Spells s) (spelled' : f.1.Spells t) :
    ∀ h ∈ shape.fields, h.1.Spells s ↔ h.1.Spells t := by
  intro h other
  have each : ∀ shape : Shape, ∀ f ∈ shape.fields, ∀ h ∈ shape.fields,
      (h.1.Spells f.1.camel ↔ h.1.Spells f.1.plain) := by
    intro shape
    cases shape <;> decide +kernel
  rcases spelled with rfl | rfl <;> rcases spelled' with rfl | rfl
  · rfl
  · exact each shape f field h other
  · exact (each shape f field h other).symm
  · rfl

end Shape

section Held

variable {α β : Type} {shape : Shape} {R : Shape → α → α → Prop} {x y : α}
  {members members' front back : List (String × α)} {name name' : String}

theorem eq_nil_or_singleton {xs : List α} (few : xs.length ≤ 1) : xs = [] ∨ ∃ x, xs = [x] :=
  (Nat.le_one_iff_eq_zero_or_eq_one.1 few).imp List.length_eq_zero_iff.1 List.length_eq_one_iff.1

theorem Name.held_map (n : Name) (g : α → β) (members : List (String × α)) :
    n.held (members.map fun m => (m.1, g m.2)) =
      (n.held members).map fun m => (m.1, g m.2) :=
  List.filter_map ..

theorem Name.held_append (n : Name) (front back : List (String × α)) :
    n.held (front ++ back) = n.held front ++ n.held back :=
  List.filter_append ..

/-- For every field the members hold related parts. -/
def Shape.Matches (shape : Shape) (R : Shape → α → α → Prop) (members members' : List (String × α)) :
    Prop :=
  ∀ f ∈ shape.fields, List.Forall₂ (fun m m' => R f.2 m.2 m'.2) (f.1.held members) (f.1.held members')

def Shape.Once (shape : Shape) (members : List (String × α)) : Prop :=
  ∀ f ∈ shape.fields, (f.1.held members).length ≤ 1

instance (shape : Shape) (members : List (String × α)) : Decidable (shape.Once members) :=
  inferInstanceAs (Decidable (∀ f ∈ shape.fields, _))

theorem Shape.Once.of_matches (once : shape.Once members)
    (matched : shape.Matches R members members') : shape.Once members' := by
  intro f field
  rw [← (matched f field).length_eq]
  exact once f field

variable (refl : ∀ shape x, R shape x x)

include refl

theorem Shape.matches_of_held_eq
    (same : ∀ f ∈ shape.fields, f.1.held members = f.1.held members') :
    shape.Matches R members members' := by
  intro f field
  rw [← same f field]
  exact List.forall₂_same.2 fun m _ => refl f.2 m.2

theorem Shape.matches_of_perm (once : shape.Once members) (same : members.Perm members') :
    shape.Matches R members members' := by
  refine matches_of_held_eq refl fun f field => ?_
  have held : (f.1.held members).Perm (f.1.held members') := same.filter _
  -- a list of one member has one order
  rcases eq_nil_or_singleton (once f field) with none | ⟨m, single⟩
  · rw [none] at held ⊢
    exact held.nil_eq
  · rw [single] at held ⊢
    exact (List.perm_singleton.1 held.symm).symm

theorem Shape.matches_insert (unknown : ∀ f ∈ shape.fields, ¬f.1.Spells name) :
    shape.Matches R (front ++ back) (front ++ (name, x) :: back) := by
  refine matches_of_held_eq refl fun f field => ?_
  simp [Name.held, unknown f field]

theorem Shape.matches_replace (names : ∀ f ∈ shape.fields, f.1.Spells name ↔ f.1.Spells name')
    (parts : R (shape.member name) x y) :
    shape.Matches R (front ++ (name, x) :: back) (front ++ (name', y) :: back) := by
  intro f field
  have same : ∀ ms : List (String × α),
      List.Forall₂ (fun m m' => R f.2 m.2 m'.2) (f.1.held ms) (f.1.held ms) :=
    fun ms => List.forall₂_same.2 fun m _ => refl f.2 m.2
  have middle : List.Forall₂ (fun m m' => R f.2 m.2 m'.2) (f.1.held [(name, x)])
      (f.1.held [(name', y)]) := by
    by_cases spelled : f.1.Spells name
    · rw [member_of_spells field spelled] at parts
      simpa [Name.held, spelled, ← names f field] using parts
    · simp [Name.held, spelled, ← names f field]
  rw [← List.singleton_append, ← @List.singleton_append _ (name', y), Name.held_append,
    Name.held_append, Name.held_append, Name.held_append]
  exact List.rel_append (same front) (List.rel_append middle (same back))

end Held

namespace Json

mutual

/-- Every object holds each of its fields at most once, in one spelling. -/
def isProper (shape : Shape) : Json → Bool
  | .array items => itemsProper shape.item items
  | .object members => decide (shape.Once members) && membersProper shape members
  | _ => true

def itemsProper (shape : Shape) : List Json → Bool
  | [] => true
  | v :: vs => v.isProper shape && itemsProper shape vs

def membersProper (shape : Shape) : List (String × Json) → Bool
  | [] => true
  | (name, v) :: rest => v.isProper (shape.member name) && membersProper shape rest

end

theorem itemsProper_eq (shape : Shape) (items : List Json) :
    itemsProper shape items = items.all (isProper shape) := by
  induction items with
  | nil => rfl
  | cons v items ih => simp [itemsProper, ih]

theorem membersProper_eq (shape : Shape) (members : List (String × Json)) :
    membersProper shape members = members.all fun m => m.2.isProper (shape.member m.1) := by
  induction members with
  | nil => rfl
  | cons m members ih => simp [membersProper, ih]

mutual

/-- Where there are no fields everything is proper. -/
theorem isProper_other (v : Json) : v.isProper .other = true := by
  cases v with
  | array items => exact itemsProper_other items
  | object members =>
    have once : Shape.other.Once members := List.forall_mem_nil _
    exact Bool.and_eq_true_iff.2 ⟨decide_eq_true once, membersProper_other members⟩
  | _ => rfl

theorem itemsProper_other (items : List Json) : itemsProper .other items = true := by
  cases items with
  | nil => rfl
  | cons v items => exact Bool.and_eq_true_iff.2 ⟨isProper_other v, itemsProper_other items⟩

theorem membersProper_other (members : List (String × Json)) :
    membersProper .other members = true := by
  cases members with
  | nil => rfl
  | cons m members =>
    obtain ⟨name, v⟩ := m
    exact Bool.and_eq_true_iff.2 ⟨isProper_other v, membersProper_other members⟩

end

namespace Document

section Proper

variable {shape : Shape} {items : List Document} {members : List (String × Document)}

theorem isProper_array_iff : (array items).value.isProper shape = true ↔
    ∀ d ∈ items, d.value.isProper shape.item = true := by
  simp [isProper, itemsProper_eq]

theorem isProper_object_iff : (object members).value.isProper shape = true ↔
    shape.Once members ∧ ∀ m ∈ members, m.2.value.isProper (shape.member m.1) = true := by
  have once : shape.Once (members.map fun m => (m.1, m.2.value)) ↔ shape.Once members := by
    simp [Shape.Once, Name.held_map]
  simp [isProper, membersProper_eq, once]

end Proper

/-- One step of rewriting a part that stands inside of `depth` containers. A member that comes in is
no larger than the bounds allow there. -/
inductive Rewrites (b : Bounds) : Shape → Nat → Document → Document → Prop
  | permute {shape depth members members'} (same : members.Perm members') :
    Rewrites b shape depth (.object members) (.object members')
  | insert {shape depth front back name d} (unknown : ∀ f ∈ shape.fields, ¬f.1.Spells name)
    (fits : d.fits b (depth + 1) = true) :
    Rewrites b shape depth (.object (front ++ back)) (.object (front ++ (name, d) :: back))
  | respell {shape depth front back f name name' d} (field : f ∈ shape.fields)
    (spelled : f.1.Spells name) (spelled' : f.1.Spells name') :
    Rewrites b shape depth (.object (front ++ (name, d) :: back))
      (.object (front ++ (name', d) :: back))
  | member {shape depth front back name d d'}
    (inner : Rewrites b (shape.member name) (depth + 1) d d') :
    Rewrites b shape depth (.object (front ++ (name, d) :: back))
      (.object (front ++ (name, d') :: back))
  | item {shape depth front back d d'} (inner : Rewrites b shape.item (depth + 1) d d') :
    Rewrites b shape depth (.array (front ++ d :: back)) (.array (front ++ d' :: back))

namespace Rewrites

variable {b : Bounds} {shape : Shape} {depth : Nat} {d d' : Document}

theorem fits_eq (step : Rewrites b shape depth d d') : d.fits b depth = d'.fits b depth := by
  induction step with
  | permute same => simp [fits_object, same.all_eq]
  | insert unknown fits => simp [fits_object, fits]
  | respell => simp [fits_object]
  | member inner ih => simp [fits_object, ih]
  | item inner ih => simp [fits_array, ih]

/-- What is rewritten stays proper, and is related by every relation that goes from parts to wholes. -/
theorem isProper_related {R : Shape → Document → Document → Prop} (refl : ∀ shape d, R shape d d)
    (object : ∀ shape members members', shape.Once members → shape.Once members' →
      shape.Matches R members members' → R shape (.object members) (.object members'))
    (array : ∀ shape front back d d', R shape.item d d' →
      R shape (.array (front ++ d :: back)) (.array (front ++ d' :: back)))
    (step : Rewrites b shape depth d d') (proper : d.value.isProper shape = true) :
    d'.value.isProper shape = true ∧ R shape d d' := by
  -- for an object a match of the fields is enough: they are held as often then
  have whole : ∀ {shape members members'}, shape.Once members →
      shape.Matches R members members' →
      (∀ m ∈ members', m.2.value.isProper (shape.member m.1) = true) →
      (Document.object members').value.isProper shape = true ∧
        R shape (.object members) (.object members') := by
    intro shape members members' once matched each
    have once' := once.of_matches matched
    exact ⟨isProper_object_iff.2 ⟨once', each⟩, object _ _ _ once once' matched⟩
  induction step with
  | permute same =>
    obtain ⟨once, each⟩ := isProper_object_iff.1 proper
    refine whole once (Shape.matches_of_perm refl once same) fun m member => ?_
    exact each m (same.mem_iff.2 member)
  | insert unknown fits =>
    obtain ⟨once, each⟩ := isProper_object_iff.1 proper
    refine whole once (Shape.matches_insert refl unknown) ?_
    simp only [List.forall_mem_append, List.forall_mem_cons] at each ⊢
    rw [Shape.member_of_unknown unknown]
    exact ⟨each.1, isProper_other _, each.2⟩
  | respell field spelled spelled' =>
    obtain ⟨once, each⟩ := isProper_object_iff.1 proper
    have names := Shape.spells_iff field spelled spelled'
    refine whole once (Shape.matches_replace refl names (refl _ _)) ?_
    simp only [List.forall_mem_append, List.forall_mem_cons] at each ⊢
    rw [Shape.member_of_spells field spelled] at each
    rw [Shape.member_of_spells field spelled']
    exact each
  | member inner ih =>
    obtain ⟨once, each⟩ := isProper_object_iff.1 proper
    simp only [List.forall_mem_append, List.forall_mem_cons] at each
    obtain ⟨proper', part⟩ := ih each.2.1
    refine whole once (Shape.matches_replace refl (fun _ _ => Iff.rfl) part) ?_
    simp only [List.forall_mem_append, List.forall_mem_cons]
    exact ⟨each.1, proper', each.2.2⟩
  | item inner ih =>
    have each := isProper_array_iff.1 proper
    simp only [List.forall_mem_append, List.forall_mem_cons] at each
    obtain ⟨proper', part⟩ := ih each.2.1
    refine ⟨isProper_array_iff.2 ?_, array _ _ _ _ _ part⟩
    simp only [List.forall_mem_append, List.forall_mem_cons]
    exact ⟨each.1, proper', each.2.2⟩

end Rewrites

end Document

/-- One step of rewriting a text: its document is rewritten, or its blanks outside of texts are. -/
inductive Source.Rewrites (b : Bounds) : Source → Source → Prop
  | document {s t} (step : s.document.Rewrites b .lorebook 0 t.document) : Rewrites b s t
  | blanks {s t}
    (same : withoutBlanks .outside s.text.toList = withoutBlanks .outside t.text.toList) :
    Rewrites b s t

end Json

end LoreTree
