import Mathlib.Data.List.DropRight
import RankedTable.Proofs.Decimal.Value
import RankedTable.Score

/-!
# The digits of encoded scores

For a number other than zero an encoding holds three digits of exponent and the significant
digits.  Those digits, read as one fraction, grow with the magnitude: within one exponent the
significant digits decide, and a larger exponent outweighs them all.

* `IsSignificand`, `scaled` — the exponents and digits in encodings, and the magnitude they mean.
* `fraction_significant` — dropping the zeros at the end keeps the magnitude.
* **`scaled_lt_iff`** — magnitudes compare as the texts that tell them.
* **`complement_lt_iff`** — the complement with its terminator reverses the order of texts.
-/

namespace RankedTable.Score

open Decimal (AllDigits NoTrailingZero fraction digitsValue)

/-! ## Significant digits -/

lemma significant_eq (c : ℕ) : significant c = List.rdropWhile (· == '0') (natDigits c) := rfl

lemma allDigits_significant (c : ℕ) : AllDigits (significant c) := by
  rw [significant_eq]
  exact (Decimal.allDigits_natDigits c).of_sublist (List.rdropWhile_prefix _ _).sublist

lemma noTrailingZero_significant (c : ℕ) : NoTrailingZero (significant c) := by
  intro h
  have hne : significant c ≠ [] := by
    rintro h0
    rw [h0] at h
    exact absurd h (by simp)
  have hlast := List.rdropWhile_last_not (· == '0') (natDigits c) hne
  rw [List.getLast?_eq_some_getLast hne, Option.some_inj] at h
  exact hlast (beq_iff_eq.mpr h)

/-- Zeros at the end do not change the fraction. -/
lemma fraction_significant (c : ℕ) : fraction (significant c) = fraction (natDigits c) := by
  have hsplit := List.rdropWhile_append_rtakeWhile (p := (· == '0')) (l := natDigits c)
  have hall : ∀ d ∈ List.rtakeWhile (· == '0') (natDigits c), d = '0' := by
    intro d hd
    have := @List.mem_rtakeWhile_imp _ (· == '0') (natDigits c) d hd
    exact beq_iff_eq.mp this
  have hzeros : fraction (List.rtakeWhile (· == '0') (natDigits c)) = 0 := by
    have hvalue : digitsValue (List.rtakeWhile (· == '0') (natDigits c)) = 0 := by
      rw [List.eq_replicate_of_mem hall]
      exact Nat.ofDigitChars_replicate_zero
    rw [fraction, hvalue, Nat.cast_zero, zero_div]
  conv_rhs => rw [← hsplit]
  rw [Decimal.fraction_append, hzeros, zero_div, add_zero, significant_eq]

/-! ## The exponent's digits -/

lemma toNat_digit : ∀ {d : ℕ}, d < 10 → (Char.ofNat (48 + d)).toNat = 48 + d := by
  decide

lemma allDigits_threeDigits (n : ℕ) : AllDigits (threeDigits n) := by
  intro c hc
  simp only [threeDigits, List.mem_cons, List.not_mem_nil, or_false] at hc
  rcases hc with rfl | rfl | rfl <;>
    rw [Decimal.isAsciiDigit_iff, toNat_digit (Nat.mod_lt _ (by decide))] <;> omega

lemma digitsValue_threeDigits {n : ℕ} (h : n < 1000) : digitsValue (threeDigits n) = n := by
  have ht : ∀ k, (Char.ofNat (48 + k % 10)).toNat = 48 + k % 10 :=
    fun k => toNat_digit (Nat.mod_lt k (by decide))
  rw [threeDigits, Decimal.digitsValue_cons, Decimal.digitsValue_cons,
    Decimal.digitsValue_singleton, ht, ht, ht]
  simp only [List.length_cons, List.length_nil]
  omega

/-! ## Magnitudes -/

/-- The exponents and digits that encodings have. -/
structure IsSignificand (biased : ℕ) (digits : List Char) : Prop where
  biased_lt : biased < 1000
  allDigits : AllDigits digits
  noTrailingZero : NoTrailingZero digits
  lead : 1 / 10 ≤ fraction digits

/-- The magnitude with this shifted exponent and these significant digits. -/
def scaled (biased : ℕ) (digits : List Char) : ℚ :=
  fraction digits * 10 ^ ((biased : ℤ) - bias + 1)

/-- The part of an encoding that tells the magnitude. -/
def body (biased : ℕ) (digits : List Char) : List Char :=
  threeDigits biased ++ digits

section Magnitudes

variable {b c : ℕ} {s t : List Char}

lemma IsSignificand.scaled_pos (h : IsSignificand b s) : 0 < scaled b s := by
  have hlead := h.lead
  have hpos : 0 < fraction s := by linarith
  rw [scaled]
  positivity

lemma IsSignificand.ne_nil (h : IsSignificand b s) : s ≠ [] := by
  rintro rfl
  have hlead := h.lead
  rw [Decimal.fraction_nil] at hlead
  norm_num at hlead

lemma allDigits_body (h : IsSignificand b s) : AllDigits (body b s) :=
  (allDigits_threeDigits b).append h.allDigits

lemma noTrailingZero_body (h : IsSignificand b s) : NoTrailingZero (body b s) := by
  rw [NoTrailingZero, body, List.getLast?_append_of_ne_nil _ h.ne_nil]
  exact h.noTrailingZero

lemma fraction_body (h : IsSignificand b s) :
    fraction (body b s) = (b + fraction s) / 1000 := by
  rw [body, Decimal.fraction_append, fraction, digitsValue_threeDigits h.biased_lt]
  simp only [threeDigits, List.length_cons, List.length_nil]
  ring

/-- A larger exponent outweighs the digits, and within one exponent the digits decide. -/
lemma scaled_lt_of_lt (hs : IsSignificand b s) (ht : IsSignificand c t)
    (h : b + fraction s < c + fraction t) : scaled b s < scaled c t := by
  have hs1 := Decimal.fraction_lt_one hs.allDigits
  have ht1 := Decimal.fraction_lt_one ht.allDigits
  have hs0 := Decimal.fraction_nonneg s
  have hlead := ht.lead
  have hle : b ≤ c := by
    have hlt : (b : ℚ) < c + 1 := by linarith
    exact Nat.lt_succ_iff.mp (by exact_mod_cast hlt)
  rcases hle.eq_or_lt with rfl | hbc
  · have hst : fraction s < fraction t := by linarith
    rw [scaled, scaled]
    gcongr
  · calc scaled b s < 1 * 10 ^ ((b : ℤ) - bias + 1) := by
          rw [scaled]
          gcongr
      _ = 1 / 10 * 10 ^ ((b : ℤ) - bias + 1 + 1) := by
          rw [zpow_add_one₀ (a := (10 : ℚ)) (by norm_num) ((b : ℤ) - bias + 1)]
          ring
      _ ≤ fraction t * 10 ^ ((c : ℤ) - bias + 1) := by
          gcongr
          · norm_num
          · omega
      _ = scaled c t := rfl

lemma scaled_eq_of_eq (hs : IsSignificand b s) (ht : IsSignificand c t)
    (h : b + fraction s = c + fraction t) : scaled b s = scaled c t := by
  have hs1 := Decimal.fraction_lt_one hs.allDigits
  have ht1 := Decimal.fraction_lt_one ht.allDigits
  have hs0 := Decimal.fraction_nonneg s
  have ht0 := Decimal.fraction_nonneg t
  have hbc : b < c + 1 := by
    have hlt : (b : ℚ) < c + 1 := by linarith
    exact_mod_cast hlt
  have hcb : c < b + 1 := by
    have hlt : (c : ℚ) < b + 1 := by linarith
    exact_mod_cast hlt
  obtain rfl : b = c := by omega
  have hst : fraction s = fraction t := by linarith
  rw [scaled, scaled, hst]

/-- **Magnitudes compare as the texts that tell them.** -/
theorem scaled_lt_iff (hs : IsSignificand b s) (ht : IsSignificand c t) :
    scaled b s < scaled c t ↔ body b s < body c t := by
  rw [Decimal.lt_iff_fraction_lt (allDigits_body hs) (allDigits_body ht) (noTrailingZero_body hs)
    (noTrailingZero_body ht), fraction_body hs, fraction_body ht,
    div_lt_div_iff_of_pos_right (by norm_num)]
  constructor
  · intro h
    rcases lt_trichotomy (b + fraction s) (c + fraction t) with hlt | heq | hgt
    · exact hlt
    · exact absurd h (scaled_eq_of_eq hs ht heq).not_lt
    · exact absurd h (scaled_lt_of_lt ht hs hgt).not_gt
  · exact scaled_lt_of_lt hs ht

end Magnitudes

/-! ## Complements -/

lemma complement_digit {c : Char} (h : Decimal.isAsciiDigit c = true) :
    (complement c).toNat = 105 - c.toNat := by
  have hc := Decimal.isAsciiDigit_iff.mp h
  rw [complement, if_pos hc]
  have hd : 105 - c.toNat = 48 + (57 - c.toNat) := by omega
  rw [hd, toNat_digit (by omega)]

/-- The complement of digits, ended by a character that sorts after all of them. -/
def terminated (digits : List Char) : List Char :=
  digits.map complement ++ ['~']

lemma terminated_lt_of_lt {s t : List Char} (hs : AllDigits s) (ht : AllDigits t) (h : s < t) :
    terminated t < terminated s := by
  induction h with
  | @nil d t =>
      have hd := complement_digit (ht d (List.mem_cons_self ..))
      refine List.Lex.rel ?_
      change (complement d).toNat < 126
      omega
  | @rel c s d t hcd =>
      have hc' := Decimal.isAsciiDigit_iff.mp (hs c (List.mem_cons_self ..))
      have hd' := Decimal.isAsciiDigit_iff.mp (ht d (List.mem_cons_self ..))
      have hc := complement_digit (hs c (List.mem_cons_self ..))
      have hd := complement_digit (ht d (List.mem_cons_self ..))
      have hlt : c.toNat < d.toNat := hcd
      refine List.Lex.rel ?_
      change (complement d).toNat < (complement c).toNat
      omega
  | @cons c s t _ ih =>
      exact List.Lex.cons (ih (fun e he => hs e (List.mem_cons_of_mem _ he))
        (fun e he => ht e (List.mem_cons_of_mem _ he)))

/-- **The complement with its terminator reverses the order of digits as text.** -/
theorem complement_lt_iff {s t : List Char} (hs : AllDigits s) (ht : AllDigits t) :
    terminated s < terminated t ↔ t < s := by
  constructor
  · intro h
    rcases lt_trichotomy t s with hlt | heq | hgt
    · exact hlt
    · rw [heq] at h
      exact absurd h (lt_irrefl _)
    · exact absurd h (terminated_lt_of_lt hs ht hgt).not_gt
  · exact terminated_lt_of_lt ht hs

end RankedTable.Score
