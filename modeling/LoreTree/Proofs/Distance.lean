import LoreTree.Proofs.Magnitude
import LoreTree.Proofs.Success
import LoreTree.Proximity
/-!
What values mean as distances. A finite number and a pair of finite numbers stand for a range; every
other value is refused as no distance. Numbers are taken through the type of the floats on the way,
so an integer beyond all floats is neither read nor refused; and a refusal shows the value, so one
with an integer in it that is too long to be shown fails in its place.
-/

namespace LoreTree

/-- The exact value of a finite number. Flags are no numbers. -/
def Value.number? : Value → Option ℚ
  | .int n => some n
  | .float x => x.value?
  | _ => none

/-- An integer of more than 4300 digits, or a value with one somewhere in it. -/
inductive Value.HoldsLong : Value → Prop
  | int {n : Int} : 10 ^ 4300 ≤ n.natAbs → HoldsLong (.int n)
  | list {items : List Value} {v : Value} : v ∈ items → v.HoldsLong → HoldsLong (.list items)
  | tuple {items : List Value} {v : Value} : v ∈ items → v.HoldsLong → HoldsLong (.tuple items)
  | dict {members : List (String × Value)} {m : String × Value} : m ∈ members → m.2.HoldsLong →
      HoldsLong (.dict members)

/-- An integer that is rounded to 2 ^ 1024 or beyond, as no float is. -/
inductive Value.IsTooLarge : Value → Prop
  | int {n : Int} : 2 ^ 1024 - 2 ^ 970 ≤ n.natAbs → IsTooLarge (.int n)

namespace Value

theorem isShowable_int (n : Int) : (int n).isShowable = true ↔ n.natAbs < 10 ^ 4300 := by
  have length (k : Nat) (some_k : 0 < k) :
      (Decimal.digits n.natAbs).length ≤ k ↔ n.natAbs < 10 ^ k :=
    Decimal.length_digits_le_iff some_k
  rw [isShowable, decide_eq_true_iff]
  exact length 4300 (by decide)

mutual

theorem isShowable_iff (v : Value) : v.isShowable = true ↔ ¬v.HoldsLong := by
  cases v with
  | int n =>
    rw [isShowable_int, ← Nat.not_le]
    refine not_congr ⟨.int, ?_⟩
    rintro ⟨long⟩
    exact long
  | list items =>
    rw [isShowable, allShowable_iff]
    refine ⟨fun short held => ?_, fun short v member long => short (.list member long)⟩
    cases held with
    | list member long => exact short _ member long
  | tuple items =>
    rw [isShowable, allShowable_iff]
    refine ⟨fun short held => ?_, fun short v member long => short (.tuple member long)⟩
    cases held with
    | tuple member long => exact short _ member long
  | dict members =>
    rw [isShowable, membersShowable_iff]
    refine ⟨fun short held => ?_, fun short m member long => short (.dict member long)⟩
    cases held with
    | dict member long => exact short _ member long
  | null | bool | float | text | native | fragment | operator => exact iff_of_true rfl nofun

theorem allShowable_iff (items : List Value) :
    allShowable items = true ↔ ∀ v ∈ items, ¬v.HoldsLong := by
  cases items with
  | nil => exact iff_of_true rfl (List.forall_mem_nil _)
  | cons v items =>
    rw [allShowable, Bool.and_eq_true, isShowable_iff v, allShowable_iff items,
      List.forall_mem_cons]

theorem membersShowable_iff (members : List (String × Value)) :
    membersShowable members = true ↔ ∀ m ∈ members, ¬m.2.HoldsLong := by
  cases members with
  | nil => exact iff_of_true rfl (List.forall_mem_nil _)
  | cons m members =>
    obtain ⟨name, v⟩ := m
    rw [membersShowable, Bool.and_eq_true, isShowable_iff v, membersShowable_iff members,
      List.forall_mem_cons]

end

variable {v : Value}

theorem showing_of_short (short : ¬v.HoldsLong) (failure : Value → Failure) :
    Failure.showing failure v = failure v :=
  if_pos (v.isShowable_iff.2 short)

theorem showing_of_long (long : v.HoldsLong) (failure : Value → Failure) :
    Failure.showing failure v = .notShowable :=
  if_neg (mt v.isShowable_iff.1 (not_not_intro long))

theorem IsTooLarge.whole?_eq (large : v.IsTooLarge) : v.whole? = .error .tooLarge := by
  obtain @⟨n, beyond⟩ := large
  have unread : ¬(Binary64.ofInt? n).isSome := mt (Binary64.isSome_ofInt? n).1 (Nat.not_lt.2 beyond)
  rw [whole?, if_neg unread]

theorem whole?_eq (fits : ¬v.IsTooLarge) : v.whole? = .ok (v.number?.map Int.floor) := by
  cases v with
  | int n =>
    have read : (Binary64.ofInt? n).isSome :=
      (Binary64.isSome_ofInt? n).2 (Nat.lt_of_not_le fun beyond => fits (.int beyond))
    rw [whole?, if_pos read, number?, Option.map_some, Int.floor_intCast]
  | float x => exact congrArg Except.ok x.floor?_eq
  | _ => rfl

theorem whole?_of_pair {a b : Value} (paired : v.pair? = some (a, b)) : v.whole? = .ok none := by
  cases v with
  | list | tuple => rfl
  | _ => cases paired

end Value

namespace Proximity

/-- What a distance stands for: a number is an upper bound, and a pair has its bounds in either order.
Bounds are rounded down, and below zero they count as zero. -/
inductive Spans : Value → (low high : Nat) → Prop
  | number {v : Value} {q : ℚ} : v.number? = some q → Spans v 0 ⌊q⌋.toNat
  | pair {v a b : Value} {p q : ℚ} : v.pair? = some (a, b) → a.number? = some p →
      b.number? = some q → Spans v (min ⌊p⌋.toNat ⌊q⌋.toNat) (max ⌊p⌋.toNat ⌊q⌋.toNat)

/-- A distance that is an integer beyond all floats, or a pair in which one is looked at: the second
bound is looked at only after a number. -/
inductive MeetsTooLarge : Value → Prop
  | number {v : Value} : v.IsTooLarge → MeetsTooLarge v
  | first {v a b : Value} : v.pair? = some (a, b) → a.IsTooLarge → MeetsTooLarge v
  | second {v a b : Value} {p : ℚ} : v.pair? = some (a, b) → a.number? = some p → b.IsTooLarge →
      MeetsTooLarge v

variable {v a b : Value}

theorem range_of_number {q : ℚ} (fits : ¬v.IsTooLarge) (number : v.number? = some q) :
    range v = .ok (.upTo ⌊q⌋) := by
  rw [range, Value.whole?_eq fits, number]
  rfl

theorem range_of_pair (paired : v.pair? = some (a, b)) :
    range v = do
      match ← a.whole? with
      | none => throw (.showing .notADistance v)
      | some low =>
        match ← b.whole? with
        | none => throw (.showing .notADistance v)
        | some high => return .between low high := by
  rw [range, Value.whole?_of_pair paired, paired]
  rfl

/-- Everything that is looked at decides: the first integer beyond all floats, or else the first value
that is no number. -/
theorem range_of_meetsTooLarge (meets : MeetsTooLarge v) : range v = .error .tooLarge := by
  cases meets with
  | number large =>
    rw [range, large.whole?_eq]
    rfl
  | first paired large =>
    rw [range_of_pair paired, large.whole?_eq]
    rfl
  | @second a b p paired number large =>
    rw [range_of_pair paired]
    by_cases fits : a.IsTooLarge
    · rw [fits.whole?_eq]
      rfl
    · rw [Value.whole?_eq fits, number, large.whole?_eq]
      rfl

theorem not_meetsTooLarge_of_pair (paired : v.pair? = some (a, b)) (first : ¬a.IsTooLarge)
    (second : ¬b.IsTooLarge) : ¬MeetsTooLarge v := by
  intro meets
  cases meets with
  | number large =>
    cases large
    cases paired
  | first paired' large =>
    cases paired.symm.trans paired'
    exact first large
  | second paired' _ large =>
    cases paired.symm.trans paired'
    exact second large

theorem range_of_spans {low high : Nat} (fits : ¬MeetsTooLarge v) (spans : Spans v low high) :
    ∃ r, range v = .ok r ∧ r.low = low ∧ r.high = high := by
  cases spans with
  | @number q number =>
    exact ⟨.upTo ⌊q⌋, range_of_number (fun large => fits (.number large)) number, rfl, rfl⟩
  | @pair a b p q paired first second =>
    refine ⟨.between ⌊p⌋ ⌊q⌋, ?_, rfl, rfl⟩
    rw [range_of_pair paired, Value.whole?_eq fun large => fits (.first paired large), first,
      Value.whole?_eq fun large => fits (.second paired first large), second]
    rfl

theorem range_of_not_spans (fits : ¬MeetsTooLarge v) (foreign : ∀ low high, ¬Spans v low high) :
    range v = .error (.showing .notADistance v) := by
  have no_number : v.number? = none :=
    Option.eq_none_iff_forall_not_mem.2 fun q number => foreign _ _ (.number number)
  cases paired : v.pair? with
  | none =>
    rw [range, Value.whole?_eq fun large => fits (.number large), no_number, paired]
    rfl
  | some pair =>
    obtain ⟨a, b⟩ := pair
    rw [range_of_pair paired, Value.whole?_eq fun large => fits (.first paired large)]
    cases first : a.number? with
    | none => rfl
    | some p =>
      have no_second : b.number? = none :=
        Option.eq_none_iff_forall_not_mem.2 fun q second => foreign _ _ (.pair paired first second)
      rw [Value.whole?_eq fun large => fits (.second paired first large), no_second]
      rfl

/-- A distance has no range, and neither of the operators that take one accepts it. -/
def Fails (v : Value) (f : Failure) : Prop :=
  range v = .error f ∧ ∀ s, Operator.near.configure ⟨v, s⟩ = .error f ∧
    Operator.beyond.configure ⟨v, s⟩ = .error f

end Proximity

namespace Operator

variable {v : Value}

theorem configure_of_range {r : Proximity.Range} (accepted : Proximity.range v = .ok r) (s : Value) :
    near.configure ⟨v, s⟩ = .ok (within r.low r.high s.isTrue) ∧
      beyond.configure ⟨v, s⟩ = .ok (past r.high s.isTrue) := by
  rw [configure, configure, accepted]
  exact ⟨rfl, rfl⟩

theorem fails_of_range {f : Failure} (refused : Proximity.range v = .error f) :
    Proximity.Fails v f := by
  refine ⟨refused, fun s => ?_⟩
  rw [configure, configure, refused]
  exact ⟨rfl, rfl⟩

end Operator

/-- Both operators that take a distance take exactly what stands for a range, and refuse everything
else with the value itself, as long as no integer beyond all floats is looked at and no integer has to
be shown that is too long for that. Either of these is a failure of another kind. -/
theorem distances_span_ranges (v : Value) :
    (¬Proximity.MeetsTooLarge v →
      (∀ low high, Proximity.Spans v low high →
        (∃ r, Proximity.range v = .ok r ∧ r.low = low ∧ r.high = high) ∧
        ∀ s, Operator.near.configure ⟨v, s⟩ = .ok (.within low high s.isTrue) ∧
          Operator.beyond.configure ⟨v, s⟩ = .ok (.past high s.isTrue)) ∧
      ((∀ low high, ¬Proximity.Spans v low high) →
        (¬v.HoldsLong → Proximity.Fails v (.notADistance v)) ∧
        (v.HoldsLong → Proximity.Fails v .notShowable))) ∧
    (Proximity.MeetsTooLarge v → Proximity.Fails v .tooLarge) := by
  refine ⟨fun fits => ⟨?_, ?_⟩, ?_⟩
  · intro low high spans
    obtain ⟨r, accepted, rfl, rfl⟩ := Proximity.range_of_spans fits spans
    exact ⟨⟨r, accepted, rfl, rfl⟩, Operator.configure_of_range accepted⟩
  · intro foreign
    have refused := Operator.fails_of_range (Proximity.range_of_not_spans fits foreign)
    refine ⟨fun short => ?_, fun long => ?_⟩
    · rwa [Value.showing_of_short short] at refused
    · rwa [Value.showing_of_long long] at refused
  · intro meets
    exact Operator.fails_of_range (Proximity.range_of_meetsTooLarge meets)

/-- A pair of a fraction and a negative bound, a pair with a flag in it, a pair with an integer in it
that is too long to be shown, and an integer beyond all floats. -/
theorem distances_span_ranges_mixed :
    (Proximity.Spans (.tuple [.float (.finite false 5 (-1)), .int (-3)]) 0 2 ∧
      ∃ r, Proximity.range (.tuple [.float (.finite false 5 (-1)), .int (-3)]) = .ok r ∧
        r.low = 0 ∧ r.high = 2) ∧
    ((∀ low high, ¬Proximity.Spans (.list [.int 1, .bool true]) low high) ∧
      Proximity.Fails (.list [.int 1, .bool true])
        (.notADistance (.list [.int 1, .bool true]))) ∧
    ((∀ low high, ¬Proximity.Spans (.list [.text "a", .int (10 ^ 4300 : Nat)]) low high) ∧
      Proximity.Fails (.list [.text "a", .int (10 ^ 4300 : Nat)]) .notShowable) ∧
    Proximity.MeetsTooLarge (.int (2 ^ 1024 : Nat)) ∧
      Proximity.Fails (.int (2 ^ 1024 : Nat)) .tooLarge := by
  have fits : ∀ n : Int, (Binary64.ofInt? n).isSome → ¬(Value.int n).IsTooLarge := by
    rintro n read ⟨beyond⟩
    exact Nat.not_lt.2 beyond ((Binary64.isSome_ofInt? n).1 read)
  have large : Proximity.MeetsTooLarge (.int (2 ^ 1024 : Nat)) := .number (.int (Nat.sub_le _ _))
  have bounds : Proximity.Spans (.tuple [.float (.finite false 5 (-1)), .int (-3)]) 0 2 := by
    have spans : Proximity.Spans (.tuple [.float (.finite false 5 (-1)), .int (-3)]) _ _ :=
      .pair rfl rfl rfl
    norm_num at spans
    exact spans
  have refused : ∀ low high, ¬Proximity.Spans (.list [.int 1, .bool true]) low high := by
    rintro low high (⟨⟨⟩⟩ | ⟨⟨⟩, -, ⟨⟩⟩)
  have refused_too (n : Nat) : ∀ low high, ¬Proximity.Spans (.list [.text "a", .int n]) low high := by
    rintro low high (⟨⟨⟩⟩ | ⟨⟨⟩, ⟨⟩, -⟩)
  have flag : ¬(Value.bool true).IsTooLarge := nofun
  have float : ¬(Value.float (.finite false 5 (-1))).IsTooLarge := nofun
  refine ⟨⟨bounds, ?_⟩, ⟨refused, ?_⟩, ⟨refused_too _, ?_⟩, large,
    (distances_span_ranges _).2 large⟩
  · have met : ¬Proximity.MeetsTooLarge (.tuple [.float (.finite false 5 (-1)), .int (-3)]) :=
      Proximity.not_meetsTooLarge_of_pair rfl float (fits (-3) rfl)
    exact (((distances_span_ranges _).1 met).1 0 2 bounds).1
  · have met : ¬Proximity.MeetsTooLarge (.list [.int 1, .bool true]) :=
      Proximity.not_meetsTooLarge_of_pair rfl (fits 1 rfl) flag
    have short : ¬(Value.list [.int 1, .bool true]).HoldsLong :=
      (Value.isShowable_iff _).1
        (by simp [Value.isShowable, Value.allShowable, Decimal.digits, Value.mostDigits])
    exact (((distances_span_ranges _).1 met).2 refused).1 short
  · have met (n : Nat) : ¬Proximity.MeetsTooLarge (.list [.text "a", .int n]) := by
      rintro (⟨⟨⟩⟩ | ⟨⟨⟩, ⟨⟩⟩ | ⟨⟨⟩, ⟨⟩, -⟩)
    have long : Value.HoldsLong (.list [.text "a", .int (10 ^ 4300 : Nat)]) :=
      .list (List.mem_cons_of_mem _ List.mem_cons_self) (.int (Nat.le_refl _))
    exact (((distances_span_ranges _).1 (met _)).2 (refused_too _)).2 long

/-- An integer beyond all floats stands for a range but has none. -/
theorem not_distances_span_ranges :
    ¬ ∀ v : Value,
      (∀ low high, Proximity.Spans v low high →
        ∃ r, Proximity.range v = .ok r ∧ r.low = low ∧ r.high = high) ∧
      ((∀ low high, ¬Proximity.Spans v low high) →
        Proximity.range v = .error (.notADistance v)) := by
  intro total
  have large : Proximity.MeetsTooLarge (.int (2 ^ 1024 : Nat)) := .number (.int (Nat.sub_le _ _))
  obtain ⟨r, accepted, -, -⟩ := (total (.int (2 ^ 1024 : Nat))).1 _ _ (.number rfl)
  rw [Proximity.range_of_meetsTooLarge large] at accepted
  cases accepted

end LoreTree
