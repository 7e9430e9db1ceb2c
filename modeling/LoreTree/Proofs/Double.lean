import LoreTree.Declaration
import LoreTree.Proofs.Magnitude
import Mathlib.Tactic.FieldSimp
import Mathlib.Tactic.Linarith
/-!
The numbers of the format. A finite one has a mantissa of 53 bits and an exponent between two bounds,
so its floor is an integer that can be read as a number again. Rounding gives no other numbers,
whatever is rounded, and so neither do the numbers in documents and declarations.
-/

namespace LoreTree

namespace Binary64

/-- The mantissa and the exponent of a finite number are those of the format. -/
def IsDouble : Binary64 → Prop
  | .finite _ mantissa exponent =>
    mantissa < mantissaLimit ∧ leastExponent ≤ exponent ∧ exponent ≤ greatestExponent
  | _ => True

theorem isDouble_zero (negative : Bool) : (zero negative).IsDouble :=
  ⟨by decide, by decide, by decide⟩

section Rounding

variable {num den k : Nat} {e f : Int}

theorem scaled_pos (positive : 0 < den) (e : Int) : 0 < (scaled num den e).2 := by
  rw [scaled]
  split
  · exact positive
  · rw [powerOf_two]
    exact Nat.mul_pos positive (Nat.two_pow_pos _)

theorem scaled_eq (positive : 0 < den) (e : Int) :
    ((scaled num den e).1 : ℚ) / (scaled num den e).2 = num / den / 2 ^ e := by
  have some_den : (den : ℚ) ≠ 0 := Nat.cast_ne_zero.2 positive.ne'
  rw [scaled]
  split
  · next below =>
    obtain ⟨k, rfl⟩ : ∃ k : Nat, e = -k := ⟨e.natAbs, by omega⟩
    rw [powerOf_two, neg_neg, Int.toNat_natCast, zpow_neg, zpow_natCast]
    push_cast
    field_simp
  · next above =>
    obtain ⟨k, rfl⟩ : ∃ k : Nat, e = k := ⟨e.toNat, by omega⟩
    rw [powerOf_two, Int.toNat_natCast, zpow_natCast]
    push_cast
    rw [div_div]

theorem div_zpow_le (above : e ≤ f) : (num : ℚ) / den / 2 ^ f ≤ num / den / 2 ^ e := by
  have nonneg : (0 : ℚ) ≤ num / den := by positivity
  exact div_le_div_of_nonneg_left nonneg (zpow_pos two_pos e)
    (zpow_le_zpow_right₀ one_le_two above)

/-- The leading bits of numerator and denominator bound a ratio. -/
theorem ratio_lt (positive : 0 < den) :
    (num : ℚ) / den < 2 ^ ((num.log2 : Int) - den.log2 + 1) := by
  have most : (num : ℚ) < 2 ^ (num.log2 + 1) := by exact_mod_cast Nat.lt_log2_self
  have least : (2 : ℚ) ^ den.log2 ≤ den := by exact_mod_cast Nat.log2_self_le positive.ne'
  have some_den : (0 : ℚ) < den := Nat.cast_pos.2 positive
  rw [div_lt_iff₀ some_den]
  calc (num : ℚ) < 2 ^ (num.log2 + 1) := most
    _ = 2 ^ ((num.log2 : Int) - den.log2 + 1) * 2 ^ den.log2 := by
        rw [← zpow_natCast, ← zpow_natCast, ← zpow_add₀ two_ne_zero]
        congr 1
        push_cast
        ring
    _ ≤ 2 ^ ((num.log2 : Int) - den.log2 + 1) * den :=
        mul_le_mul_of_nonneg_left least (zpow_pos two_pos _).le

/-- At the exponent that is chosen for a ratio, its mantissa has no more than 53 bits. -/
theorem scaled_exponentFor_lt (num : Nat) (positive : 0 < den) :
    (scaled num den (exponentFor num den)).1 <
      mantissaLimit * (scaled num den (exponentFor num den)).2 := by
  have mantissa : (num : ℚ) / den / 2 ^ exponentFor num den < mantissaLimit := by
    -- the least exponent may raise the one that is tried, and then the mantissa only gets shorter
    simp only [exponentFor]
    split
    · next short =>
      rw [Nat.div_lt_iff_lt_mul (scaled_pos positive _)] at short
      refine (div_zpow_le (le_max_right _ _)).trans_lt ?_
      rw [← scaled_eq positive, div_lt_iff₀ (Nat.cast_pos.2 (scaled_pos positive _))]
      exact_mod_cast short
    · refine (div_zpow_le (le_max_right _ _)).trans_lt ?_
      rw [div_lt_iff₀ (zpow_pos two_pos _)]
      refine (ratio_lt positive).trans_eq ?_
      rw [mantissaLimit_eq, Nat.cast_pow, Nat.cast_ofNat, ← zpow_natCast, ← zpow_add₀ two_ne_zero]
      congr 1
      push_cast
      ring
  rw [← scaled_eq positive, div_lt_iff₀ (Nat.cast_pos.2 (scaled_pos positive _))] at mantissa
  exact_mod_cast mantissa

theorem nearestQuotient_le (below : num < k * den) : nearestQuotient num den ≤ k := by
  have quotient : num / den < k := Nat.div_lt_of_lt_mul (Nat.mul_comm k den ▸ below)
  rw [nearestQuotient_eq]
  split_ifs <;> omega

end Rounding

theorem isDouble_ofRatio (negative : Bool) (num : Nat) {den : Nat} (positive : 0 < den) :
    (ofRatio negative num den).IsDouble := by
  have bounded := nearestQuotient_le (scaled_exponentFor_lt num positive)
  have least : leastExponent ≤ exponentFor num den := le_max_left _ _
  have half : mantissaLimit / 2 < mantissaLimit := by decide
  rw [ofRatio]
  split
  · exact isDouble_zero negative
  · simp only
    generalize nearestQuotient _ _ = m at bounded ⊢
    by_cases full : m = mantissaLimit
    · rw [if_pos full]
      split
      · trivial
      · next fits => exact ⟨half, least.trans (Int.le_add_one le_rfl), not_lt.1 fits⟩
    · rw [if_neg full]
      split
      · trivial
      · next fits => exact ⟨lt_of_le_of_ne bounded full, least, not_lt.1 fits⟩

theorem isDouble_ofScientific (negative : Bool) (n : Nat) (e : Int) :
    (ofScientific negative n e).IsDouble := by
  simp only [ofScientific]
  split_ifs
  · exact isDouble_zero negative
  · trivial
  · exact isDouble_zero negative
  · exact isDouble_ofRatio negative n (Nat.pow_pos (by decide))
  · exact isDouble_ofRatio negative _ one_pos

theorem IsDouble.value_lt {x : Binary64} (double : x.IsDouble) {q : ℚ} (value : x.value? = some q) :
    q < 2 ^ 1024 - 2 ^ 970 := by
  cases x with
  | nan => cases value
  | infinite => cases value
  | finite negative mantissa exponent =>
    obtain ⟨short, -, most⟩ := double
    cases value
    have bits : (mantissa : ℚ) ≤ 2 ^ 53 - 1 := by
      rw [le_sub_iff_add_le]
      exact_mod_cast Nat.succ_le_of_lt short
    have scale : (2 : ℚ) ^ exponent ≤ 2 * 2 ^ 970 := by
      rw [← pow_succ', ← zpow_natCast]
      exact zpow_le_zpow_right₀ one_le_two most
    have signed : (if negative then -(mantissa : ℚ) else mantissa) ≤ mantissa := by
      have nonneg : (0 : ℚ) ≤ mantissa := Nat.cast_nonneg _
      split <;> linarith
    have top : (2 : ℚ) ^ 1024 = 2 ^ 54 * 2 ^ 970 := by rw [← pow_add]
    have step (u : ℚ) (unit : 0 < u) : (2 ^ 53 - 1) * (2 * u) < 2 ^ 54 * u - u := by
      norm_num
      linarith
    calc (if negative then -(mantissa : ℚ) else mantissa) * 2 ^ exponent
        ≤ mantissa * 2 ^ exponent := mul_le_mul_of_nonneg_right signed (zpow_pos two_pos _).le
      _ ≤ (2 ^ 53 - 1) * (2 * 2 ^ 970) :=
          mul_le_mul bits scale (zpow_pos two_pos _).le (by norm_num)
      _ < 2 ^ 1024 - 2 ^ 970 := by
          rw [top]
          exact step _ (pow_pos two_pos 970)

/-- The floor of a number can be read as a number. -/
theorem IsDouble.floor_lt {x : Binary64} (double : x.IsDouble) {n : Int} (floor : x.floor? = some n) :
    n.toNat < 2 ^ 1024 - 2 ^ 970 := by
  rw [floor?_eq, Option.map_eq_some_iff] at floor
  obtain ⟨q, value, rfl⟩ := floor
  have below := double.value_lt value
  have top : 2 ^ 1024 = 2 ^ 54 * 2 ^ 970 := two_pow_eq_mul (by decide)
  have unit : 0 < 2 ^ 970 := pow_pos two_pos 970
  rw [Int.toNat_lt' (by omega), Int.floor_lt, Int.cast_natCast, Nat.cast_sub (by omega)]
  exact_mod_cast below

end Binary64

theorem Json.Numeral.isDouble_toBinary64 (n : Numeral) : n.toBinary64.IsDouble :=
  Binary64.isDouble_ofScientific _ _ _

theorem Declaration.isDouble_float? {s : String} {x : Binary64} (read : float? s = some x) :
    x.IsDouble := by
  simp only [float?] at read
  split_ifs at read
  · cases read
    trivial
  · cases read
    trivial
  · obtain ⟨n, -, rfl⟩ := Option.map_eq_some_iff.1 read
    exact n.isDouble_toBinary64

end LoreTree
