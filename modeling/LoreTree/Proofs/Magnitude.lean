import LoreTree.Binary64
import Mathlib.Data.Rat.Floor
import Mathlib.Tactic.Ring
/-!
What numbers are worth. A finite number has an exact value, and its floor is the floor of that value.
An integer can be read as a number exactly if it lies below the middle between the greatest finite
number and the power of two that would come next; the middle itself is rounded up.
-/

namespace LoreTree.Binary64

def value? : Binary64 → Option ℚ
  | .finite negative mantissa exponent =>
    some ((if negative then -(mantissa : ℚ) else mantissa) * 2 ^ exponent)
  | _ => none

theorem powerOf_two (e : Int) : powerOf 2 e = 2 ^ e.toNat := rfl

theorem signedAt_self (negative : Bool) (mantissa : Nat) (e : Int) :
    signedAt negative mantissa e e = if negative then -(mantissa : Int) else mantissa := by
  rw [signedAt, sub_self, powerOf_two]
  simp

theorem floor?_eq (x : Binary64) : x.floor? = x.value?.map Int.floor := by
  cases x with
  | nan => rfl
  | infinite => rfl
  | finite negative mantissa exponent =>
    rw [floor?, value?, Option.map_some]
    split
    · next below =>
      obtain ⟨k, rfl⟩ : ∃ k : Nat, exponent = -k := ⟨exponent.natAbs, by omega⟩
      have quotient : (if negative then -(mantissa : ℚ) else mantissa) * 2 ^ (-(k : Int)) =
          ((if negative then -(mantissa : Int) else mantissa : Int) : ℚ) / ((2 ^ k : Nat) : ℚ) := by
        rw [zpow_neg, zpow_natCast, div_eq_mul_inv]
        cases negative <;> simp
      rw [quotient, Rat.floor_intCast_div_natCast, signedAt_self, powerOf_two]
      simp
    · next above =>
      obtain ⟨k, rfl⟩ : ∃ k : Nat, exponent = k := ⟨exponent.toNat, by omega⟩
      have whole : (if negative then -(mantissa : ℚ) else mantissa) * 2 ^ (k : Int) =
          ((signedAt negative mantissa k 0 : Int) : ℚ) := by
        rw [zpow_natCast, signedAt, powerOf_two]
        cases negative <;> simp
      rw [whole, Int.floor_intCast]

/-- A quotient is rounded up past the half of a step, and at the half if that makes it even. -/
theorem nearestQuotient_eq (num den : Nat) :
    nearestQuotient num den = num / den + if den < 2 * (num % den) ∨
      den = 2 * (num % den) ∧ num / den % 2 = 1 then 1 else 0 := by
  simp only [nearestQuotient]
  split_ifs <;> omega

/-- So a quotient comes up to an even number from half a step below it. -/
theorem le_nearestQuotient {num den k : Nat} (positive : 0 < den) (even : k % 2 = 0)
    (some_k : 0 < k) : k ≤ nearestQuotient num den ↔ (2 * k - 1) * den ≤ 2 * num := by
  have parts : den * (num / den) + num % den = num := Nat.div_add_mod num den
  have small : num % den < den := Nat.mod_lt _ positive
  rw [nearestQuotient_eq]
  generalize num / den = q at *
  generalize num % den = r at *
  obtain below | rfl | above : k ≤ q ∨ k = q + 1 ∨ q + 2 ≤ k := by omega
  · have reached : (2 * k - 1) * den ≤ 2 * q * den := Nat.mul_le_mul_right den (by omega)
    have regrouped : 2 * q * den = 2 * (den * q) := by ring
    exact iff_of_true (by omega) (by omega)
  · have halfway : (2 * (q + 1) - 1) * den = 2 * (den * q) + den := by
      rw [show 2 * (q + 1) - 1 = 2 * q + 1 by omega]
      ring
    rw [halfway]
    split_ifs <;> omega
  · have beyond : (2 * q + 3) * den ≤ (2 * k - 1) * den := Nat.mul_le_mul_right den (by omega)
    have regrouped : (2 * q + 3) * den = 2 * (den * q) + 3 * den := by ring
    have rounded : ¬k ≤ q + if den < 2 * r ∨ den = 2 * r ∧ q % 2 = 1 then 1 else 0 := by
      split_ifs <;> omega
    exact iff_of_false rounded (by omega)

theorem mantissaLimit_eq : mantissaLimit = 2 ^ 53 := rfl

/-- The exponent of an integer is that of its leading bit, 52 places below it. -/
theorem exponentFor_natural {n : Nat} (some_n : n ≠ 0) : exponentFor n 1 = (n.log2 : Int) - 52 := by
  have leading : 2 ^ n.log2 ≤ n := Nat.log2_self_le some_n
  have long : mantissaLimit ≤ (scaled n 1 ((n.log2 : Int) - 53)).1 /
      (scaled n 1 ((n.log2 : Int) - 53)).2 := by
    rw [scaled, powerOf_two, powerOf_two, mantissaLimit_eq]
    split
    · next below =>
      rw [Nat.div_one]
      calc 2 ^ 53 = 2 ^ n.log2 * 2 ^ (-((n.log2 : Int) - 53)).toNat := by
            rw [← pow_add]
            congr 1
            omega
        _ ≤ n * 2 ^ (-((n.log2 : Int) - 53)).toNat := Nat.mul_le_mul_right _ leading
    · next above =>
      rw [one_mul, Nat.le_div_iff_mul_le (Nat.two_pow_pos _)]
      calc 2 ^ 53 * 2 ^ ((n.log2 : Int) - 53).toNat = 2 ^ n.log2 := by
            rw [← pow_add]
            congr 1
            omega
        _ ≤ n := leading
  have one_bit : (1 : Nat).log2 = 0 := rfl
  simp only [exponentFor, one_bit, Nat.cast_zero, sub_zero]
  rw [if_neg (Nat.not_lt.2 long), leastExponent]
  omega

/-- The mantissa of an integer, before it is found to have a bit too many. -/
def naturalMantissa (n : Nat) : Nat :=
  nearestQuotient (scaled n 1 ((n.log2 : Int) - 52)).1 (scaled n 1 ((n.log2 : Int) - 52)).2

theorem ofRatio_natural (negative : Bool) {n : Nat} (some_n : n ≠ 0) : ofRatio negative n 1 =
    let rounded : Nat × Int := if naturalMantissa n = mantissaLimit
      then (mantissaLimit / 2, (n.log2 : Int) - 52 + 1) else (naturalMantissa n, (n.log2 : Int) - 52)
    if greatestExponent < rounded.2 then .infinite negative
    else .finite negative rounded.1 rounded.2 := by
  rw [ofRatio, if_neg some_n, exponentFor_natural some_n]
  rfl

theorem isSome_ofInt?_iff {n : Int} (some_n : n.natAbs ≠ 0) : (ofInt? n).isSome ↔
    n.natAbs.log2 ≤ 1023 ∧ (naturalMantissa n.natAbs = mantissaLimit → n.natAbs.log2 ≤ 1022) := by
  rw [ofInt?, ofRatio_natural _ some_n, greatestExponent]
  by_cases full : naturalMantissa n.natAbs = mantissaLimit
  · simp only [if_pos full]
    split_ifs with above
    · exact iff_of_false Bool.false_ne_true (by omega)
    · exact iff_of_true rfl (by omega)
  · simp only [if_neg full]
    split_ifs with above
    · exact iff_of_false Bool.false_ne_true (by omega)
    · exact iff_of_true rfl (by omega)

theorem two_pow_eq_mul {k a b : Nat} (parts : k = a + b) : 2 ^ k = 2 ^ a * 2 ^ b := by
  rw [parts, pow_add]

theorem log2_lt_add {n a b : Nat} (some_n : n ≠ 0) : n.log2 < a + b ↔ n < 2 ^ a * 2 ^ b := by
  rw [← pow_add]
  exact Nat.log2_lt some_n

/-- Among the integers of 1024 bits, those of the last half step get a mantissa with a bit too many. -/
theorem naturalMantissa_eq_iff {n : Nat} (long : n.log2 = 1023) :
    naturalMantissa n = mantissaLimit ↔ 2 ^ 54 * 2 ^ 970 - 2 ^ 970 ≤ n := by
  have some_n : n ≠ 0 := by
    rintro rfl
    cases long
  have below : n < 2 ^ 54 * 2 ^ 970 := (log2_lt_add some_n).1 (by omega)
  have step : 2 ^ 971 = 2 ^ 1 * 2 ^ 970 := two_pow_eq_mul (by decide)
  have places : ((n.log2 : Int) - 52).toNat = 971 := by omega
  have scale : scaled n 1 ((n.log2 : Int) - 52) = (n, 2 * 2 ^ 970) := by
    rw [scaled, if_neg (by omega), powerOf_two, places, step, one_mul, pow_one]
  have positive : 0 < 2 ^ 970 := pow_pos two_pos 970
  rw [naturalMantissa, scale, mantissaLimit_eq]
  generalize 2 ^ 970 = u at *
  have most : n / (2 * u) < 2 ^ 53 := by
    rw [Nat.div_lt_iff_lt_mul (by omega)]
    omega
  have bounded : nearestQuotient n (2 * u) ≤ 2 ^ 53 := by
    rw [nearestQuotient_eq]
    split_ifs <;> omega
  rw [le_antisymm_iff, and_iff_right bounded, le_nearestQuotient (by omega) (by decide) (by decide)]
  omega

/-- An integer can be read as a number if it is not rounded to 2 ^ 1024 or beyond. -/
theorem isSome_ofInt? (n : Int) : (ofInt? n).isSome ↔ n.natAbs < 2 ^ 1024 - 2 ^ 970 := by
  have top : 2 ^ 1024 = 2 ^ 54 * 2 ^ 970 := two_pow_eq_mul (by decide)
  have positive : 0 < 2 ^ 970 := pow_pos two_pos 970
  rw [top]
  by_cases none_n : n.natAbs = 0
  · rw [Int.natAbs_eq_zero.1 none_n]
    refine iff_of_true rfl ?_
    rw [Int.natAbs_zero]
    omega
  rw [isSome_ofInt?_iff none_n]
  obtain short | long | longer :
      n.natAbs.log2 < 53 + 970 ∨ n.natAbs.log2 = 1023 ∨ ¬n.natAbs.log2 < 54 + 970 := by
    omega
  · have small := (log2_lt_add none_n).1 short
    exact iff_of_true ⟨by omega, fun _ => by omega⟩ (by omega)
  · rw [naturalMantissa_eq_iff long, long]
    omega
  · have large := mt (log2_lt_add none_n).2 longer
    exact iff_of_false (by omega) (by omega)

end LoreTree.Binary64
