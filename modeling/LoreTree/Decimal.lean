/-!
Decimal digits of natural numbers, written most significant first.
-/

namespace LoreTree.Decimal

def digit (n : Nat) : Char :=
  match n with
  | 0 => '0'
  | 1 => '1'
  | 2 => '2'
  | 3 => '3'
  | 4 => '4'
  | 5 => '5'
  | 6 => '6'
  | 7 => '7'
  | 8 => '8'
  | _ => '9'

def digitValue (c : Char) : Nat :=
  c.toNat - '0'.toNat

/-- The digits of a number, without leading zeros; zero is one digit. -/
def digits (n : Nat) : List Char :=
  if n < 10 then [digit n] else digits (n / 10) ++ [digit (n % 10)]
termination_by n

def value (ds : List Char) : Nat :=
  ds.foldl (fun n c => 10 * n + digitValue c) 0

def ofInt : Int → List Char
  | .ofNat n => digits n
  | .negSucc n => '-' :: digits (n + 1)

def intText (n : Int) : String :=
  String.ofList (ofInt n)

def natText (n : Nat) : String :=
  String.ofList (digits n)

theorem digitValue_digit : ∀ n < 10, digitValue (digit n) = n := by decide

theorem isDigit_digit : ∀ n < 10, (digit n).isDigit = true := by decide

theorem value_concat (ds : List Char) (c : Char) :
    value (ds ++ [c]) = 10 * value ds + digitValue c := by
  simp [value]

theorem value_digits (n : Nat) : value (digits n) = n := by
  fun_induction digits n with
  | case1 n h => simp [value, digitValue_digit n h]
  | case2 n h ih =>
    rw [value_concat, ih, digitValue_digit _ (Nat.mod_lt _ (by decide))]
    omega

theorem digits_isDigit (n : Nat) : ∀ c ∈ digits n, c.isDigit = true := by
  fun_induction digits n with
  | case1 n h => simp [isDigit_digit n h]
  | case2 n h ih =>
    intro c hc
    rcases List.mem_append.1 hc with hc | hc
    · exact ih c hc
    · rw [List.mem_singleton.1 hc]
      exact isDigit_digit _ (Nat.mod_lt _ (by decide))

theorem digits_ne_nil (n : Nat) : digits n ≠ [] := by
  fun_induction digits n with
  | case1 => simp
  | case2 => simp

theorem length_digits_le_iff {n k : Nat} (some_k : 0 < k) :
    (digits n).length ≤ k ↔ n < Nat.pow 10 k := by
  fun_induction digits n generalizing k with
  | case1 n small =>
    have least : Nat.pow 10 1 ≤ Nat.pow 10 k := Nat.pow_le_pow_right (by decide) some_k
    exact ⟨fun _ => Nat.lt_of_lt_of_le small least, fun _ => some_k⟩
  | case2 n large ih =>
    obtain ⟨k, rfl⟩ : ∃ j, k = j + 1 := ⟨k - 1, by omega⟩
    have step : n / 10 < Nat.pow 10 k ↔ n < Nat.pow 10 (k + 1) :=
      Nat.div_lt_iff_lt_mul (by decide)
    rw [List.length_append, List.length_singleton, Nat.add_le_add_iff_right, ← step]
    cases k with
    | zero =>
      have some_digit := List.length_pos_iff.2 (digits_ne_nil (n / 10))
      have some_quotient : 0 < n / 10 := Nat.div_pos (by omega) (by decide)
      exact iff_of_false (by omega) (by simpa using Nat.ne_of_gt some_quotient)
    | succ k => exact ih (Nat.succ_pos k)

end LoreTree.Decimal
