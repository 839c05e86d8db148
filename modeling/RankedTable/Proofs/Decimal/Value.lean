import Mathlib.Algebra.Order.Field.Power
import Mathlib.Tactic.NormNum
import RankedTable.Proofs.Binary64.Value
import RankedTable.Proofs.Decimal.Digits

/-!
# The number a decimal stands for

* `Decimal.value` — the number; infinities and NaN are given zero.
* `pow_adjusted_le`, `lt_pow_adjusted` — the adjusted exponent is the one of the leading digit.
* `fraction_natDigits` — a magnitude is its digits as a fraction, scaled.
* **`exactDecimal_value`** — the exact decimal of a double has the double's value.
* `adjusted_exactDecimal` — the leading digits of doubles lie between `10 ^ -324` and `10 ^ 308`.
-/

namespace RankedTable

namespace Decimal

/-- The number a decimal stands for. -/
def value : Decimal → ℚ
  | finite negative coefficient exponent =>
    (if negative then -1 else 1) * (coefficient * 10 ^ exponent)
  | _ => 0

/-! ## The leading digit -/

/-- A magnitude is the fraction that its digits spell, scaled to the place of the first one. -/
lemma fraction_natDigits (c : ℕ) (e : ℤ) :
    (c * 10 ^ e : ℚ) = fraction (natDigits c) * 10 ^ (adjusted c e + 1) := by
  have hlen : adjusted c e + 1 = e + (natDigits c).length := by
    rw [adjusted]
    ring
  rw [fraction, digitsValue_natDigits, hlen, zpow_add₀ (by norm_num), zpow_natCast]
  field_simp

lemma one_tenth_le_fraction {c : ℕ} (h : c ≠ 0) : 1 / 10 ≤ fraction (natDigits c) := by
  have hpos := length_natDigits_pos c
  have hle : (10 ^ ((natDigits c).length - 1) : ℚ) ≤ c := by exact_mod_cast pow_le_of_natDigits h
  have hsucc : (10 ^ (natDigits c).length : ℚ) = 10 ^ ((natDigits c).length - 1) * 10 := by
    rw [← pow_succ, Nat.sub_add_cancel hpos]
  rw [fraction, digitsValue_natDigits, div_le_div_iff₀ (by norm_num) (by positivity), hsucc]
  linarith

lemma pow_adjusted_le {c : ℕ} (h : c ≠ 0) (e : ℤ) : (10 : ℚ) ^ adjusted c e ≤ c * 10 ^ e := by
  have hfraction := one_tenth_le_fraction h
  calc (10 : ℚ) ^ adjusted c e = 1 / 10 * 10 ^ (adjusted c e + 1) := by
        rw [zpow_add_one₀ (by norm_num)]
        ring
    _ ≤ fraction (natDigits c) * 10 ^ (adjusted c e + 1) := by gcongr
    _ = c * 10 ^ e := (fraction_natDigits c e).symm

lemma lt_pow_adjusted (c : ℕ) (e : ℤ) : (c * 10 ^ e : ℚ) < 10 ^ (adjusted c e + 1) := by
  have hfraction := fraction_lt_one (allDigits_natDigits c)
  calc (c * 10 ^ e : ℚ) = fraction (natDigits c) * 10 ^ (adjusted c e + 1) := fraction_natDigits c e
    _ < 1 * 10 ^ (adjusted c e + 1) := by gcongr
    _ = 10 ^ (adjusted c e + 1) := one_mul _

end Decimal

namespace Binary64

/-! ## Doubles as decimals -/

/-- The magnitude of a double is a whole number times a power of ten: of the two prime factors of
ten, the missing one is supplied. -/
lemma exactDecimal_eq (negative : Bool) (m : ℕ) (e : ℤ) :
    ∃ (c : ℕ) (d : ℤ), exactDecimal negative m e = .finite negative c d ∧
      (c * 10 ^ d : ℚ) = m * 2 ^ e := by
  rw [exactDecimal]
  split_ifs with h
  · refine ⟨_, _, rfl, ?_⟩
    obtain ⟨k, rfl⟩ : ∃ k : ℕ, e = -k := ⟨e.natAbs, by omega⟩
    have hten : (10 : ℚ) ^ k = 5 ^ k * 2 ^ k := by
      rw [← mul_pow]
      norm_num
    simp only [Int.natAbs_neg, Int.natAbs_natCast, zpow_neg, zpow_natCast]
    push_cast
    rw [hten, show ((Nat.pow 5 k : ℕ) : ℚ) = 5 ^ k from Nat.cast_pow 5 k]
    field_simp
  · refine ⟨_, _, rfl, ?_⟩
    obtain ⟨k, rfl⟩ : ∃ k : ℕ, e = k := ⟨e.natAbs, by omega⟩
    simp

/-- **The exact decimal of a double has the double's value.** -/
theorem exactDecimal_value (negative : Bool) (m : ℕ) (e : ℤ) :
    value (.finite negative m e) = (((exactDecimal negative m e).value : ℚ) : WithTop ℚ) := by
  obtain ⟨c, d, heq, hvalue⟩ := exactDecimal_eq negative m e
  rw [heq, Decimal.value, hvalue, value]

lemma two_pow_1074_lt : (2 : ℚ) ^ 1074 < 10 ^ 324 := by
  have h : (2 : ℚ) ^ 179 < 10 ^ 54 := by norm_num
  calc (2 : ℚ) ^ 1074 = (2 ^ 179) ^ 6 := by rw [← pow_mul]
    _ < (10 ^ 54) ^ 6 := by gcongr
    _ = 10 ^ 324 := by rw [← pow_mul]

lemma two_pow_1024_lt : (2 : ℚ) ^ 1024 < 10 ^ 309 := by
  have h : (2 : ℚ) ^ 93 < 10 ^ 28 := by norm_num
  calc (2 : ℚ) ^ 1024 = (2 ^ 93) ^ 11 * 2 := by rw [← pow_mul, ← pow_succ]
    _ < (10 ^ 28) ^ 11 * 10 := by gcongr; norm_num
    _ = 10 ^ 309 := by rw [← pow_mul, ← pow_succ]

/-- Doubles are small enough, and unless zero large enough, for a leading digit's exponent of three
digits. -/
lemma adjusted_exactDecimal {m : ℕ} {e : ℤ} (h : IsCanonical m e) {c : ℕ} {d : ℤ}
    (hvalue : (c * 10 ^ d : ℚ) = m * 2 ^ e) :
    c ≠ 0 ∧ -324 ≤ Decimal.adjusted c d ∧ Decimal.adjusted c d ≤ 308 := by
  have hpos := h.value_pos
  have hone : (1 : ℚ) ≤ m := by exact_mod_cast h.pos
  have hm : (m : ℚ) ≤ 2 ^ 53 := by exact_mod_cast h.lt.le
  have hc : c ≠ 0 := by
    rintro rfl
    rw [← hvalue] at hpos
    simp at hpos
  refine ⟨hc, ?_, ?_⟩
  · have hlow : (10 : ℚ) ^ (-324 : ℤ) < 10 ^ (Decimal.adjusted c d + 1) := by
      calc (10 : ℚ) ^ (-324 : ℤ) < 1 * 2 ^ (-1074 : ℤ) := by
            rw [zpow_neg, zpow_neg, zpow_ofNat, zpow_ofNat, one_mul]
            exact inv_strictAnti₀ (by positivity) two_pow_1074_lt
        _ ≤ m * 2 ^ e := by
          gcongr
          · norm_num
          · exact h.low
        _ = c * 10 ^ d := hvalue.symm
        _ < 10 ^ (Decimal.adjusted c d + 1) := Decimal.lt_pow_adjusted c d
    have := (zpow_lt_zpow_iff_right₀ (by norm_num)).mp hlow
    omega
  · have hhigh : (10 : ℚ) ^ Decimal.adjusted c d < 10 ^ (309 : ℤ) := by
      calc (10 : ℚ) ^ Decimal.adjusted c d ≤ c * 10 ^ d := Decimal.pow_adjusted_le hc d
        _ = m * 2 ^ e := hvalue
        _ ≤ 2 ^ 53 * 2 ^ (971 : ℤ) := by
          gcongr
          · norm_num
          · exact h.high
        _ < 10 ^ (309 : ℤ) := by
          rw [zpow_ofNat, zpow_ofNat, ← pow_add]
          exact two_pow_1024_lt
    have := (zpow_lt_zpow_iff_right₀ (by norm_num)).mp hhigh
    omega

end Binary64

end RankedTable
