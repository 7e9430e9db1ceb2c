import LoreTree.Proofs.Document.Blanks
import LoreTree.Proofs.Document.Decoding
import LoreTree.Proofs.Document.Parsing
/-!
A lorebook is read back from its own text in every layout, as long as the reader takes the integers
in it: it refuses those that take more than 4300 characters, a minus sign among them.
-/

namespace LoreTree

theorem Decimal.lt_length_digits_pow (k : Nat) : k < (digits (Nat.pow 10 k)).length := by
  by_contra few
  rcases Nat.eq_zero_or_pos k with rfl | some_k
  · exact digits_ne_nil _ (List.length_eq_zero_iff.1 (Nat.le_zero.1 (Nat.not_lt.1 few)))
  · exact Nat.lt_irrefl _ ((length_digits_le_iff some_k).1 (Nat.not_lt.1 few))

section Integers

def Kind.integers : (k : Kind) → k.Carrier → List Int
  | .integer, n => [n]
  | _, _ => []

variable {g : SettingGroup}

def Settings.integers (c : Settings g) : List Int :=
  (Setting.all g).flatMap fun f => f.kind.integers (c.get f)

def Record.integers (r : Record) : List Int :=
  r.context.integers ++ r.entry.integers

/-- All integers that the document of a lorebook holds. -/
def Lorebook.integers (l : Lorebook) : List Int :=
  l.version :: l.records.flatMap Record.integers

theorem Kind.isExact_toJson (k : Kind) (x : k.Carrier) : (k.toJson x).isExact = true := by
  cases k <;> rfl

theorem Settings.exact_toJson (c : Settings g) :
    Json.membersExact (c.toJson Name.camel) = true := by
  simp [Json.membersExact_eq, toJson, Kind.isExact_toJson]

theorem Record.isExact_toJson (r : Record) : r.toJson.isExact = true := by
  have entry := r.entry.exact_toJson
  have context := r.context.exact_toJson
  rw [Json.membersExact_eq] at entry context
  simp [toJson, Json.isExact, Json.membersExact_eq, Json.itemsExact_eq] at entry context ⊢
  exact ⟨context, entry⟩

theorem Lorebook.isExact_toJson (l : Lorebook) : l.toJson.isExact = true := by
  simp [toJson, Json.isExact, Json.membersExact, Json.itemsExact_eq, Record.isExact_toJson]

variable {b : Json.Bounds} {depth : Nat}

def Json.Bounds.take (b : Json.Bounds) (n : Int) : Bool :=
  Json.Reader.within b.whole (Decimal.ofInt n).length

theorem Kind.fits_toJson (deep : Json.Reader.within b.depth depth = true) (k : Kind)
    (x : k.Carrier) : (k.toJson x).fits b depth = (k.integers x).all b.take := by
  cases k <;> simp [toJson, Json.fits, deep, integers, Json.Bounds.take]

theorem Settings.fit_toJson (deep : Json.Reader.within b.depth depth = true) (c : Settings g) :
    Json.membersFit b depth (c.toJson Name.camel) = c.integers.all b.take := by
  simp [Json.membersFit_eq, toJson, integers, Kind.fits_toJson deep, List.all_flatMap,
    Function.comp_def]

theorem Record.fits_toJson (deep : ∀ d ≤ depth + 2, Json.Reader.within b.depth d = true)
    (r : Record) : r.toJson.fits b depth = r.integers.all b.take := by
  have here := deep depth (by omega)
  have next := deep (depth + 1) (by omega)
  have last := deep (depth + 2) (by omega)
  have keys : Json.itemsFit b (depth + 2) (r.keys.map .text) = true := by
    simp [Json.itemsFit_eq, Json.fits, last]
  have context := r.context.fit_toJson last
  have entry := r.entry.fit_toJson next
  rw [Json.membersFit_eq] at entry
  simp [toJson, Json.fits, Json.membersFit_eq _ (depth + 1), integers, here, next, keys, context,
    entry]

theorem Lorebook.fits_toJson (deep : ∀ d ≤ 4, Json.Reader.within b.depth d = true) (l : Lorebook) :
    l.toJson.fits b 0 = l.integers.all b.take := by
  have records : ∀ r : Record, r.toJson.fits b 2 = r.integers.all b.take :=
    fun r => r.fits_toJson deep
  have top := deep 0 (by omega)
  have middle := deep 1 (by omega)
  have low := deep 2 (by omega)
  simp [toJson, Json.fits, Json.membersFit, Json.itemsFit_eq, integers, top, middle, low, records,
    Json.Bounds.take, Function.comp_def]

end Integers

namespace Lorebook

theorem ofString?_toText {b : Json.Bounds} (deep : ∀ d ≤ 4, Json.Reader.within b.depth d = true)
    (l : Lorebook) (layout : Json.Layout) :
    Json.ofString? b (l.toText layout) = if l.integers.all b.take then some l.toJson else none := by
  rw [toText, Json.ofString?_toText b layout l.isExact_toJson, fits_toJson deep]

theorem ofText_toText (l : Lorebook) (layout : Json.Layout) :
    ofText (l.toText layout) =
      if ∀ n ∈ l.integers, (Decimal.ofInt n).length ≤ 4300 then .ok l
      else .error [⟨.documentUnreadable, []⟩] := by
  have deep : ∀ d ≤ 4, Json.Reader.within bounds.depth d = true := by decide
  have taken : l.integers.all bounds.take = true ↔
      ∀ n ∈ l.integers, (Decimal.ofInt n).length ≤ 4300 := by
    simp [Json.Bounds.take, Json.Reader.within, bounds]
  rw [ofText, ofString?_toText deep, ← if_congr taken rfl rfl]
  by_cases short : l.integers.all bounds.take = true
  · rw [if_pos short, if_pos short]
    exact l.ofJson_toJson
  · rw [if_neg short, if_neg short]

theorem ofText_of_long {l : Lorebook} {n : Nat} (member : .ofNat n ∈ l.integers)
    (long : 4300 < (Decimal.digits n).length) (layout : Json.Layout) :
    ofText (l.toText layout) = .error [⟨.documentUnreadable, []⟩] := by
  have refused : ¬∀ n ∈ l.integers, (Decimal.ofInt n).length ≤ 4300 := by
    intro short
    exact absurd (short _ member) (Nat.not_le.2 long)
  rw [ofText_toText, if_neg refused]

end Lorebook

/-- A lorebook comes back from its text in every layout unless an integer in it is too long for the
reader; a reader without bounds always gives it back. Layouts differ in blanks outside of texts only. -/
theorem documents_round_trip (l : Lorebook) (layout other : Json.Layout) :
    Lorebook.ofText (l.toText layout) =
        (if ∀ n ∈ l.integers, (Decimal.ofInt n).length ≤ 4300 then .ok l
        else .error [⟨.documentUnreadable, []⟩]) ∧
      (Json.ofString? ⟨none, none⟩ (l.toText layout)).map Lorebook.ofJson = some (.ok l) ∧
      Json.withoutBlanks .outside (l.toText layout).toList =
        Json.withoutBlanks .outside (l.toText other).toList := by
  refine ⟨l.ofText_toText layout, ?_, ?_⟩
  · have unbounded : ∀ d ≤ 4, Json.Reader.within (none : Option Nat) d = true := fun _ _ => rfl
    have taken : l.integers.all (Json.Bounds.take ⟨none, none⟩) = true :=
      List.all_eq_true.2 fun _ _ => rfl
    rw [Lorebook.ofString?_toText unbounded, if_pos taken, Option.map_some, l.ofJson_toJson]
  · have squeezed : ∀ layout, Json.withoutBlanks .outside (l.toText layout).toList =
        l.toJson.write .compact 0 := by
      intro layout
      rw [Lorebook.toText, Json.toText, String.toList_ofList]
      exact Json.withoutBlanks_write layout 0 l.isExact_toJson
    rw [squeezed, squeezed]

/-- A version of 4301 digits is written but not read. -/
theorem long_version_not_read_back :
    Lorebook.ofText (Lorebook.toText .compact ⟨.ofNat (Nat.pow 10 4300), false, []⟩) ≠
      .ok ⟨.ofNat (Nat.pow 10 4300), false, []⟩ := by
  have refused : ∀ k, 4300 ≤ k →
      Lorebook.ofText (Lorebook.toText .compact ⟨.ofNat (Nat.pow 10 k), false, []⟩) ≠
        .ok ⟨.ofNat (Nat.pow 10 k), false, []⟩ := by
    intro k many
    have long := Nat.lt_of_le_of_lt many (Decimal.lt_length_digits_pow k)
    rw [Lorebook.ofText_of_long List.mem_cons_self long]
    nofun
  exact refused 4300 (Nat.le_refl 4300)

end LoreTree
