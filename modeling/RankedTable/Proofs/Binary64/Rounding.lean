import RankedTable.Proofs.Decimal.Value

/-!
# A double's decimal rounds back to the double

A decimal is rounded to the unit that leaves 53 bits, or to the least one.  For the exact value of
a double that unit is the double's own exponent, so the quotient is whole and nothing is rounded.

* `floorLog2_bounds` — `floorLog2` brackets a fraction between powers of two.
* `unit_eq` — the unit of rounding of a canonical magnitude is its exponent.
* **`nearestBits_exact`** — a fraction equal to a magnitude has the magnitude's bits.
* `magnitudeBits_exact` — so has a decimal equal to it.
* **`floatOfBits_magnitude`** — and those bits give the double back.
* `magnitudeBits_le`, `isNaN_floatOfBits` — rounding gives a number, or an infinity.
-/

namespace RankedTable

open Binary64 (IsCanonical magnitude)

/-! ## Powers of two around a fraction -/

/-- A whole number lies between the powers of two around its logarithm. -/
lemma log2_bounds {n : ℕ} (hn : n ≠ 0) :
    (2 : ℚ) ^ (n.log2 : ℤ) ≤ n ∧ (n : ℚ) < 2 ^ ((n.log2 : ℤ) + 1) := by
  have hle : 2 ^ n.log2 ≤ n := Nat.log2_self_le hn
  have hlt : n < 2 ^ (n.log2 + 1) := Nat.lt_log2_self
  constructor
  · rw [zpow_natCast]
    exact_mod_cast hle
  · rw [← Nat.cast_succ, zpow_natCast]
    exact_mod_cast hlt

lemma floorLog2_reached {n d : ℕ} (hd : d ≠ 0) (g : ℤ) :
    (if g < 0 then d ≤ n * Nat.pow 2 g.natAbs else d * Nat.pow 2 g.natAbs ≤ n) ↔
      (2 : ℚ) ^ g ≤ n / d := by
  have hdpos : (0 : ℚ) < d := by exact_mod_cast Nat.pos_of_ne_zero hd
  rw [le_div_iff₀ hdpos]
  split_ifs with hg
  · obtain ⟨k, rfl⟩ : ∃ k : ℕ, g = -k := ⟨g.natAbs, by omega⟩
    rw [Int.natAbs_neg, Int.natAbs_natCast, zpow_neg, zpow_natCast,
      inv_mul_le_iff₀ (by positivity), mul_comm]
    exact_mod_cast Iff.rfl
  · obtain ⟨k, rfl⟩ : ∃ k : ℕ, g = k := ⟨g.natAbs, by omega⟩
    rw [Int.natAbs_natCast, zpow_natCast, mul_comm]
    exact_mod_cast Iff.rfl

/-- **The bracket around a fraction.**  The logarithms of its two parts leave two candidates. -/
theorem floorLog2_bounds {n d : ℕ} (hn : n ≠ 0) (hd : d ≠ 0) :
    (2 : ℚ) ^ floorLog2 n d ≤ n / d ∧ (n / d : ℚ) < 2 ^ (floorLog2 n d + 1) := by
  have hdpos : (0 : ℚ) < d := by exact_mod_cast Nat.pos_of_ne_zero hd
  obtain ⟨hnle, hnlt⟩ := log2_bounds hn
  obtain ⟨hdle, hdlt⟩ := log2_bounds hd
  have hlower : (2 : ℚ) ^ ((n.log2 : ℤ) - d.log2 - 1) ≤ n / d := by
    rw [le_div_iff₀ hdpos]
    calc (2 : ℚ) ^ ((n.log2 : ℤ) - d.log2 - 1) * d
        ≤ 2 ^ ((n.log2 : ℤ) - d.log2 - 1) * 2 ^ ((d.log2 : ℤ) + 1) := by gcongr
      _ = 2 ^ (n.log2 : ℤ) := by
          rw [← zpow_add₀ (by norm_num)]
          congr 1
          ring
      _ ≤ n := hnle
  have hupper : (n / d : ℚ) < 2 ^ ((n.log2 : ℤ) - d.log2 + 1) := by
    rw [div_lt_iff₀ hdpos]
    calc (n : ℚ) < 2 ^ ((n.log2 : ℤ) + 1) := hnlt
      _ = 2 ^ ((n.log2 : ℤ) - d.log2 + 1) * 2 ^ (d.log2 : ℤ) := by
          rw [← zpow_add₀ (by norm_num)]
          congr 1
          ring
      _ ≤ 2 ^ ((n.log2 : ℤ) - d.log2 + 1) * d := by gcongr
  have hreached := floorLog2_reached (n := n) hd ((n.log2 : ℤ) - d.log2)
  rw [floorLog2]
  by_cases h : (2 : ℚ) ^ ((n.log2 : ℤ) - d.log2) ≤ n / d
  · simp only [hreached.mpr h, if_true]
    exact ⟨h, hupper⟩
  · simp only [mt hreached.mp h, if_false, sub_add_cancel]
    exact ⟨hlower, not_le.mp h⟩

/-- Only one power of two is in the bracket. -/
lemma exponent_unique {q : ℚ} {k l : ℤ} (hk : (2 : ℚ) ^ k ≤ q ∧ q < 2 ^ (k + 1))
    (hl : (2 : ℚ) ^ l ≤ q ∧ q < 2 ^ (l + 1)) : k = l := by
  have hkl := (zpow_lt_zpow_iff_right₀ (by norm_num : (1 : ℚ) < 2)).mp (hk.1.trans_lt hl.2)
  have hlk := (zpow_lt_zpow_iff_right₀ (by norm_num : (1 : ℚ) < 2)).mp (hl.1.trans_lt hk.2)
  omega

/-! ## Rounding what is a double already -/

/-- **The unit of rounding of a magnitude is its own exponent.** -/
lemma unit_eq {m : ℕ} {e : ℤ} (h : IsCanonical m e) {n d : ℕ} (hn : n ≠ 0) (hd : d ≠ 0)
    (hvalue : (n / d : ℚ) = m * 2 ^ e) : max (floorLog2 n d - 52) (-1074) = e := by
  have hbounds := floorLog2_bounds hn hd
  have hlog := log2_bounds (n := m) (by have := h.pos; omega)
  have hfloor : floorLog2 n d = m.log2 + e := by
    refine exponent_unique hbounds ?_
    rw [hvalue, add_right_comm, zpow_add₀ (by norm_num), zpow_add₀ (by norm_num)]
    constructor
    · gcongr
      exact hlog.1
    · gcongr
      exact hlog.2
  have hlow := h.low
  have hlog53 : m.log2 < 53 := (Nat.log2_lt (by have := h.pos; omega)).mpr h.lt
  rw [hfloor]
  rcases h.normal with hm | he
  · have hlog52 : 52 ≤ m.log2 := (Nat.le_log2 (by have := h.pos; omega)).mpr hm
    omega
  · omega

lemma roundDiv_mul (m d : ℕ) (hd : d ≠ 0) : roundDiv (m * d) d = m := by
  have hpos := Nat.pos_of_ne_zero hd
  rw [roundDiv]
  simp only [Nat.mul_mod_left, Nat.mul_div_cancel m hpos, mul_zero, hpos, if_true]

/-- **A fraction that is a double's magnitude has the magnitude's bits.** -/
theorem nearestBits_exact {m : ℕ} {e : ℤ} (h : IsCanonical m e) {n d : ℕ} (hn : n ≠ 0)
    (hd : d ≠ 0) (hvalue : (n / d : ℚ) = m * 2 ^ e) : nearestBits n d = magnitude m e := by
  have hdpos : (d : ℚ) ≠ 0 := by exact_mod_cast hd
  have hunit := unit_eq h hn hd hvalue
  have hfit : magnitude m e ≤ infinityBits := by
    have hlt := h.lt
    have hhigh := h.high
    simp only [magnitude, binadeBits, infinityBits]
    omega
  rw [div_eq_iff hdpos] at hvalue
  simp only [nearestBits, hunit, if_neg hn]
  rw [← min_eq_left hfit]
  congr 2
  split_ifs with he
  · obtain ⟨k, rfl⟩ : ∃ k : ℕ, e = -k := ⟨e.natAbs, by omega⟩
    have hscaled : n * Nat.pow 2 k = m * d := by
      rw [zpow_neg, zpow_natCast] at hvalue
      field_simp at hvalue
      exact_mod_cast hvalue
    rw [Int.natAbs_neg, Int.natAbs_natCast, hscaled, roundDiv_mul m d hd]
  · obtain ⟨k, rfl⟩ : ∃ k : ℕ, e = k := ⟨e.natAbs, by omega⟩
    have hscaled : n = m * (d * Nat.pow 2 k) := by
      rw [zpow_natCast] at hvalue
      have hnat : n = m * 2 ^ k * d := by exact_mod_cast hvalue
      rw [hnat, Nat.mul_assoc, Nat.mul_comm (2 ^ k) d]
      rfl
    have hne : d * Nat.pow 2 k ≠ 0 := Nat.mul_ne_zero hd (Nat.pow_pos (by decide)).ne'
    rw [Int.natAbs_natCast, hscaled, roundDiv_mul m _ hne]

/-- A decimal that is a double's magnitude has the magnitude's bits. -/
theorem magnitudeBits_exact {m : ℕ} {e : ℤ} (h : IsCanonical m e) {c : ℕ} {d : ℤ}
    (hvalue : (c * 10 ^ d : ℚ) = m * 2 ^ e) : Decimal.magnitudeBits c d = magnitude m e := by
  obtain ⟨hc, hlow, hhigh⟩ := Binary64.adjusted_exactDecimal h hvalue
  rw [Decimal.magnitudeBits, if_neg hc, if_neg (by omega), if_neg (by omega)]
  split_ifs with hd
  · obtain ⟨k, rfl⟩ : ∃ k : ℕ, d = -k := ⟨d.natAbs, by omega⟩
    rw [Int.natAbs_neg, Int.natAbs_natCast]
    refine nearestBits_exact h hc (Nat.pow_pos (by decide)).ne' ?_
    rw [← hvalue, show ((Nat.pow 10 k : ℕ) : ℚ) = 10 ^ k from Nat.cast_pow 10 k, zpow_neg,
      zpow_natCast, div_eq_mul_inv]
  · obtain ⟨k, rfl⟩ : ∃ k : ℕ, d = k := ⟨d.natAbs, by omega⟩
    rw [Int.natAbs_natCast]
    refine nearestBits_exact h (Nat.mul_ne_zero hc (Nat.pow_pos (by decide)).ne') one_ne_zero ?_
    rw [← hvalue, Nat.cast_mul, show ((Nat.pow 10 k : ℕ) : ℚ) = 10 ^ k from Nat.cast_pow 10 k,
      Nat.cast_one, div_one, zpow_natCast]

/-! ## From bits to doubles -/

lemma floatOfBits_of_toNat {x : Float} {negative : Bool} {n : ℕ}
    (h : x.toBits.toNat = (if negative then 2 ^ 63 else 0) + n) : floatOfBits negative n = x := by
  have hbits : (if negative then 0x8000000000000000 else 0) + n = x.toBits.toNat := h.symm
  rw [floatOfBits, hbits, UInt64.ofNat_toNat, ofBits_toBits]

/-- **A finite double is given back by the bits of its magnitude.** -/
theorem floatOfBits_magnitude {x : Float} {negative : Bool} {m : ℕ} {e : ℤ}
    (h : Binary64.ofFloat x = .finite negative m e) :
    floatOfBits negative (magnitude m e) = x :=
  floatOfBits_of_toNat (toNat_toBits_finite h)

theorem floatOfBits_infinity {x : Float} {negative : Bool}
    (h : Binary64.ofFloat x = .infinity negative) : floatOfBits negative infinityBits = x :=
  floatOfBits_of_toNat (toNat_toBits_infinity h)

/-! ## Nothing is rounded to NaN -/

lemma nearestBits_le (n d : ℕ) : nearestBits n d ≤ infinityBits := by
  rw [nearestBits]
  split_ifs
  · exact Nat.zero_le _
  · exact min_le_right _ _

lemma magnitudeBits_le (c : ℕ) (e : ℤ) : Decimal.magnitudeBits c e ≤ infinityBits := by
  rw [Decimal.magnitudeBits]
  split_ifs
  · exact Nat.zero_le _
  · exact le_rfl
  · exact Nat.zero_le _
  · exact nearestBits_le _ _
  · exact nearestBits_le _ _

/-- A magnitude up to that of infinity is none of NaN. -/
lemma isNaN_floatOfBits {n : ℕ} (h : n ≤ infinityBits) (negative : Bool) :
    (floatOfBits negative n).isNaN = false := by
  have hbound : n < 2 ^ 63 := lt_of_le_of_lt h (by decide)
  have hlt : (if negative then 2 ^ 63 else 0) + n < 2 ^ 64 := by
    split_ifs <;> omega
  have hbits : (UInt64.ofNat ((if negative then 0x8000000000000000 else 0) + n)).toNat =
      (if negative then 2 ^ 63 else 0) + n := UInt64.toNat_ofNat_of_lt' hlt
  have hmagnitude : ((if negative then 2 ^ 63 else 0) + n) % 2 ^ 63 = n := by
    split_ifs <;> omega
  have hnumber : Binary64.ofBits ((if negative then 2 ^ 63 else 0) + n) ≠ .nan :=
    ofBits_ne_nan (hmagnitude.symm ▸ h)
  rw [← hbits] at hnumber
  by_contra hnan
  refine hnumber ?_
  rw [← toBits_ofBits hnumber, ← ofFloat_eq_ofBits]
  exact Binary64.ofFloat_nan (by simpa [floatOfBits] using hnan)

end RankedTable
