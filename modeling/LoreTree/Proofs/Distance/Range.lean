import LoreTree.Proofs.Distance
import LoreTree.Proofs.Double
import LoreTree.Proofs.Pattern.Gaps
/-!
How the ranges of distances behave. A range is a distance of itself, the bounds of a pair may stand in
either order, a number is a pair with zero, and greater bounds give a range that is no lower. So a
distance may be replaced by its range, and by its upper bound where only that counts.
-/

namespace LoreTree

namespace Value

mutual

def floats : Value → List Binary64
  | .float x => [x]
  | .list items => floatsAll items
  | .tuple items => floatsAll items
  | .dict members => floatsMembers members
  | _ => []

def floatsAll : List Value → List Binary64
  | [] => []
  | v :: vs => v.floats ++ floatsAll vs

def floatsMembers : List (String × Value) → List Binary64
  | [] => []
  | (_, v) :: rest => v.floats ++ floatsMembers rest

end

variable {v a b : Value} {n : Int}

theorem floats_of_pair (paired : v.pair? = some (a, b)) : v.floats = a.floats ++ b.floats := by
  unfold pair? at paired
  split at paired
  · cases paired
    rw [floats, floatsAll, floatsAll, floatsAll, List.append_nil]
  · cases paired
    rw [floats, floatsAll, floatsAll, floatsAll, List.append_nil]
  · cases paired

/-- A value that can be looked at gives the floor of its number, if it is one. -/
theorem floor_of_whole? {whole : Option Int} (looked : v.whole? = .ok whole) :
    v.number?.map Int.floor = whole := by
  have fits : ¬v.IsTooLarge := by
    intro large
    rw [large.whole?_eq] at looked
    cases looked
  rw [whole?_eq fits] at looked
  exact Except.ok.inj looked

theorem le_of_whole? {p q : ℚ} {m : Int} (first : a.whole? = .ok (some m)) (one : a.number? = some p)
    (second : b.whole? = .ok (some n)) (other : b.number? = some q) (le : p ≤ q) : m ≤ n := by
  have m_eq := floor_of_whole? first
  have n_eq := floor_of_whole? second
  rw [one] at m_eq
  rw [other] at n_eq
  cases m_eq
  cases n_eq
  exact Int.floor_le_floor le

theorem lt_of_whole? (doubles : ∀ x ∈ v.floats, x.IsDouble) (whole : v.whole? = .ok (some n)) :
    n.toNat < 2 ^ 1024 - 2 ^ 970 := by
  cases v with
  | int m =>
    rw [whole?] at whole
    split at whole
    · next read =>
      cases whole
      have size : n.toNat ≤ n.natAbs := by omega
      exact size.trans_lt ((Binary64.isSome_ofInt? n).1 read)
    · cases whole
  | float x =>
    have double : x.IsDouble := doubles x (by rw [floats]; exact List.mem_singleton_self x)
    exact double.floor_lt (Except.ok.inj whole)
  | _ => cases whole

theorem whole?_natural {n : Nat} (below : n < 2 ^ 1024 - 2 ^ 970) :
    (Value.int n).whole? = .ok (some n) := by
  have read : (Binary64.ofInt? n).isSome := (Binary64.isSome_ofInt? n).2 below
  rw [whole?, if_pos read]

end Value

namespace Proximity

namespace Range

variable {a b a' b' : Int}

theorem ext {r s : Range} (low : r.low = s.low) (high : r.high = s.high) : r = s := by
  obtain ⟨_, _, _⟩ := r
  obtain ⟨_, _, _⟩ := s
  cases low
  cases high
  rfl

theorem between_comm (a b : Int) : between a b = between b a :=
  ext (Nat.min_comm _ _) (Nat.max_comm _ _)

theorem zero_between (n : Int) : between 0 n = upTo n :=
  ext (Nat.zero_min _) (Nat.zero_max _)

theorem between_bounds (r : Range) : between r.low r.high = r :=
  ext (Nat.min_eq_left r.low_le_high) (Nat.max_eq_right r.low_le_high)

theorem between_mono (first : a ≤ a') (second : b ≤ b') :
    (between a b).low ≤ (between a' b').low ∧ (between a b).high ≤ (between a' b').high :=
  ⟨min_le_min (Int.toNat_le_toNat first) (Int.toNat_le_toNat second),
    max_le_max (Int.toNat_le_toNat first) (Int.toNat_le_toNat second)⟩

/-- A range as a distance: the pair of its bounds. -/
def value (r : Range) : Value :=
  .tuple [.int r.low, .int r.high]

end Range

/-- A pair of numbers, and one whose bounds are the same or greater. -/
inductive Raises : Value → Value → Prop
  | pair {v w a b a' b' : Value} {p q p' q' : ℚ} : v.pair? = some (a, b) → w.pair? = some (a', b') →
      a.number? = some p → b.number? = some q → a'.number? = some p' → b'.number? = some q' →
      p ≤ p' → q ≤ q' → Raises v w

variable {v w a b : Value} {m n : Int} {r r' : Range}

theorem range_of_whole (whole : v.whole? = .ok (some n)) : range v = .ok (.upTo n) := by
  rw [range, whole]
  rfl

theorem range_of_wholes (paired : v.pair? = some (a, b)) (first : a.whole? = .ok (some m))
    (second : b.whole? = .ok (some n)) : range v = .ok (.between m n) := by
  rw [range_of_pair paired, first, second]
  rfl

/-- A pair has a range only if both of its elements are numbers. -/
theorem wholes_of_range (paired : v.pair? = some (a, b)) (accepted : range v = .ok r) :
    ∃ m n, a.whole? = .ok (some m) ∧ b.whole? = .ok (some n) ∧ r = .between m n := by
  rw [range_of_pair paired] at accepted
  obtain ⟨first, looked, accepted⟩ := bind_eq_ok.1 accepted
  cases first with
  | none => cases accepted
  | some m =>
    obtain ⟨second, looked', accepted⟩ := bind_eq_ok.1 accepted
    cases second with
    | none => cases accepted
    | some n =>
      cases accepted
      exact ⟨m, n, looked, looked', rfl⟩

theorem whole_of_range {q : ℚ} (number : v.number? = some q) (accepted : range v = .ok r) :
    ∃ n, v.whole? = .ok (some n) ∧ r = .upTo n := by
  obtain ⟨whole, looked, accepted⟩ := bind_eq_ok.1 accepted
  have floor := Value.floor_of_whole? looked
  rw [number] at floor
  cases floor
  cases accepted
  exact ⟨⌊q⌋, looked, rfl⟩

theorem shape_of_range (accepted : range v = .ok r) :
    (∃ q, v.number? = some q) ∨ ∃ a b, v.pair? = some (a, b) := by
  cases number : v.number? with
  | some q => exact .inl ⟨q, rfl⟩
  | none =>
    obtain ⟨whole, looked, accepted⟩ := bind_eq_ok.1 accepted
    have floor := Value.floor_of_whole? looked
    rw [number] at floor
    cases floor
    cases paired : v.pair? with
    | some pair => exact .inr ⟨pair.1, pair.2, rfl⟩
    | none =>
      rw [paired] at accepted
      cases accepted

theorem high_lt (doubles : ∀ x ∈ v.floats, x.IsDouble) (accepted : range v = .ok r) :
    r.high < 2 ^ 1024 - 2 ^ 970 := by
  obtain ⟨q, number⟩ | ⟨a, b, paired⟩ := shape_of_range accepted
  · obtain ⟨n, whole, rfl⟩ := whole_of_range number accepted
    exact Value.lt_of_whole? doubles whole
  · obtain ⟨m, n, first, second, rfl⟩ := wholes_of_range paired accepted
    rw [Value.floats_of_pair paired, List.forall_mem_append] at doubles
    exact max_lt (Value.lt_of_whole? doubles.1 first) (Value.lt_of_whole? doubles.2 second)

theorem range_value (readable : r.high < 2 ^ 1024 - 2 ^ 970) : range r.value = .ok r := by
  have low := Value.whole?_natural (r.low_le_high.trans_lt readable)
  rw [range_of_wholes rfl low (Value.whole?_natural readable), r.between_bounds]

theorem range_int_high (readable : r.high < 2 ^ 1024 - 2 ^ 970) :
    range (.int r.high) = .ok (.upTo r.high) :=
  range_of_whole (Value.whole?_natural readable)

theorem range_swap (paired : v.pair? = some (a, b)) (swapped : w.pair? = some (b, a))
    (accepted : range v = .ok r) : range w = .ok r := by
  obtain ⟨m, n, first, second, rfl⟩ := wholes_of_range paired accepted
  rw [range_of_wholes swapped second first, Range.between_comm]

theorem range_zero_pair {q : ℚ} (number : v.number? = some q) (paired : w.pair? = some (.int 0, v))
    (accepted : range v = .ok r) : range w = .ok r := by
  obtain ⟨n, whole, rfl⟩ := whole_of_range number accepted
  rw [range_of_wholes paired rfl whole, Range.zero_between]

theorem range_mono (raises : Raises v w) (accepted : range v = .ok r) (accepted' : range w = .ok r') :
    r.low ≤ r'.low ∧ r.high ≤ r'.high := by
  obtain ⟨paired, paired', a_number, b_number, a_number', b_number', a_le, b_le⟩ := raises
  obtain ⟨m, n, first, second, rfl⟩ := wholes_of_range paired accepted
  obtain ⟨m', n', first', second', rfl⟩ := wholes_of_range paired' accepted'
  exact Range.between_mono (Value.le_of_whole? first a_number first' a_number' a_le)
    (Value.le_of_whole? second b_number second' b_number' b_le)

end Proximity

namespace Operator

/-- What an operator makes of two phrases once it has its options. -/
def joined (op : Operator) (o : Options) (left right : Value) : Except Failure Value := do
  (← op.configure o).call [left, right]

variable {v left right : Value} {r : Proximity.Range} {f g : Fragment}

theorem joined_of_range (accepted : Proximity.range v = .ok r) (s left right : Value) :
    near.joined ⟨v, s⟩ left right = (within r.low r.high s.isTrue).call [left, right] ∧
      beyond.joined ⟨v, s⟩ left right = (past r.high s.isTrue).call [left, right] := by
  obtain ⟨nearby, away⟩ := configure_of_range accepted s
  rw [joined, joined, nearby, away]
  exact ⟨rfl, rfl⟩

theorem call_relation (presence : Presence) (gap : Gap) (first : (Phrase.ofValue left).compile = .ok f)
    (second : (Phrase.ofValue right).compile = .ok g) :
    (relation presence gap).call [left, right] = .ok (.fragment (.relate presence gap f g)) := by
  rw [call, first, second]
  rfl

end Operator

/-- The ranges of distances whose floats are numbers of the format. Reading a range again, swapping the
bounds of a pair and writing a number as a pair with zero change nothing, greater bounds lower no
bound, and operators give the same pattern for a distance, for its range, and past it for its upper
bound; the pattern counts from the lower bound to the upper one. -/
theorem ranges_stand_for_distances (v : Value) (doubles : ∀ x ∈ v.floats, x.IsDouble)
    {r : Proximity.Range} (accepted : Proximity.range v = .ok r) :
    r.low ≤ r.high ∧
    Proximity.range r.value = .ok r ∧
    (∀ a b w, v.pair? = some (a, b) → w.pair? = some (b, a) → Proximity.range w = .ok r) ∧
    (∀ q w, v.number? = some q → w.pair? = some (.int 0, v) ∨ w.pair? = some (v, .int 0) →
      Proximity.range w = .ok r) ∧
    (∀ w r', Proximity.Raises v w → Proximity.range w = .ok r' →
      r.low ≤ r'.low ∧ r.high ≤ r'.high) ∧
    ∀ s left right,
      Operator.near.joined ⟨v, s⟩ left right = Operator.near.joined ⟨r.value, s⟩ left right ∧
      Operator.beyond.joined ⟨v, s⟩ left right =
        Operator.beyond.joined ⟨.int r.high, s⟩ left right ∧
      ∀ f g, (Phrase.ofValue left).compile = .ok f → (Phrase.ofValue right).compile = .ok g →
        let nearby := Gap.words r.low r.high s.isTrue
        let reached := Gap.words 0 r.high s.isTrue
        (Operator.near.joined ⟨v, s⟩ left right = .ok (.fragment (.relate .present nearby f g)) ∧
          Pattern.expression? nearby.chars = some (.ofGap nearby)) ∧
        Operator.beyond.joined ⟨v, s⟩ left right = .ok (.fragment (.relate .absent reached f g)) ∧
          Pattern.expression? reached.chars = some (.ofGap reached) := by
  have readable := Proximity.high_lt doubles accepted
  have again := Proximity.range_value readable
  refine ⟨r.low_le_high, again, ?_, ?_, ?_, ?_⟩
  · exact fun a b w paired swapped => Proximity.range_swap paired swapped accepted
  · rintro q w number (before | after)
    · exact Proximity.range_zero_pair number before accepted
    · have before : (Value.tuple [.int 0, v]).pair? = some (.int 0, v) := rfl
      exact Proximity.range_swap before after (Proximity.range_zero_pair number before accepted)
  · exact fun w r' raises accepted' => Proximity.range_mono raises accepted accepted'
  · intro s left right
    obtain ⟨nearby, away⟩ := Operator.joined_of_range accepted s left right
    obtain ⟨nearby', -⟩ := Operator.joined_of_range again s left right
    obtain ⟨-, away'⟩ := Operator.joined_of_range (Proximity.range_int_high readable) s left right
    refine ⟨nearby.trans nearby'.symm, away.trans away'.symm, ?_⟩
    intro f g first second
    refine ⟨⟨?_, Pattern.expression?_words r.low_le_high s.isTrue⟩, ?_,
      Pattern.expression?_words (Nat.zero_le _) s.isTrue⟩
    · exact nearby.trans (Operator.call_relation _ _ first second)
    · exact away.trans (Operator.call_relation _ _ first second)

theorem ranges_stand_for_distances_fraction :
    let x := Binary64.finite false (5 * 2 ^ 50) (-51)
    let v := Value.tuple [.float x, .int (-3)]
    Declaration.float? "2.5" = some x ∧ (∀ y ∈ v.floats, y.IsDouble) ∧
      Proximity.range v = .ok (.between 2 (-3)) ∧
      Proximity.range (.tuple [.int 0, .int 2]) = .ok (.between 2 (-3)) ∧
      Proximity.range (.list [.int (-3), .float x]) = .ok (.between 2 (-3)) ∧
      Operator.near.joined ⟨v, .bool true⟩ (.text "a") (.text "b") =
        Operator.near.joined ⟨.tuple [.int 0, .int 2], .bool true⟩ (.text "a") (.text "b") := by
  intro x v
  have read : Declaration.float? "2.5" = some x := by decide
  have doubles : ∀ y ∈ v.floats, y.IsDouble := by
    intro y member
    cases List.mem_singleton.1 member
    exact Declaration.isDouble_float? read
  have accepted : Proximity.range v = .ok (.between 2 (-3)) := rfl
  obtain ⟨-, again, swapped, -, -, joined⟩ := ranges_stand_for_distances v doubles accepted
  exact ⟨read, doubles, accepted, again, swapped _ _ _ rfl rfl, (joined _ _ _).1⟩

end LoreTree
