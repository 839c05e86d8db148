import Mathlib.Algebra.Order.Field.Power
import Mathlib.Algebra.Order.WithTop.Untop0
import Mathlib.Data.Rat.Cast.Order
import Mathlib.Order.WithBot
import Mathlib.Tactic.Linarith
import Mathlib.Tactic.NormNum
import Mathlib.Tactic.Positivity
import RankedTable.Proofs.Binary64.Bits

/-!
# Doubles compare as the numbers they stand for

Comparison of doubles is defined on their unpacked form: sign against sign, then exponent against
exponent, then mantissa against mantissa.  That this is the order of the numbers needs canonical
mantissas, for otherwise a larger exponent would not mean a larger number.

* `Binary64.value` — the number a double stands for, with both infinities.
* `IsCanonical.lt_iff` — magnitudes in canonical form compare by exponent, then by mantissa.
* **`lt_iff_value`**, **`le_iff_value`**, **`beq_iff_value`** — the comparisons of doubles are
  those of their values.
-/

namespace RankedTable
open Float.Model (Format UnpackedFloat)

namespace Binary64

/-- The number that a double stands for; NaN stands for none and is given zero. -/
def value : Binary64 → WithBot (WithTop ℚ)
  | nan => ((0 : ℚ) : WithTop ℚ)
  | infinity negative => if negative then ⊥ else ((⊤ : WithTop ℚ) : WithBot (WithTop ℚ))
  | zero _ => ((0 : ℚ) : WithTop ℚ)
  | finite negative mantissa exponent =>
    (((if negative then -1 else 1) * (mantissa * 2 ^ exponent) : ℚ) : WithTop ℚ)

/-! ## Magnitudes -/

/-- A canonical magnitude with a smaller exponent is smaller: the other one has its first bit
set. -/
lemma IsCanonical.lt_of_exponent_lt {m n : ℕ} {d e : ℤ} (hm : IsCanonical m d)
    (hn : IsCanonical n e) (h : d < e) : (m * 2 ^ d : ℚ) < n * 2 ^ e := by
  have hnormal : 2 ^ 52 ≤ n := by
    rcases hn.normal with h1 | h1
    · exact h1
    · have := hm.low
      omega
  have hlt := hm.lt
  calc (m * 2 ^ d : ℚ) < 2 ^ 53 * 2 ^ d := by
        gcongr
        exact_mod_cast hlt
    _ = 2 ^ 52 * 2 ^ (d + 1) := by
        rw [zpow_add_one₀ (by norm_num)]
        ring
    _ ≤ n * 2 ^ e := by
        gcongr
        · exact_mod_cast hnormal
        · norm_num
        · omega

/-- Canonical magnitudes compare by exponent, then by mantissa. -/
lemma IsCanonical.lt_iff {m n : ℕ} {d e : ℤ} (hm : IsCanonical m d) (hn : IsCanonical n e) :
    (m * 2 ^ d : ℚ) < n * 2 ^ e ↔ d < e ∨ d = e ∧ m < n := by
  constructor
  · intro h
    rcases lt_trichotomy d e with hd | hd | hd
    · exact Or.inl hd
    · subst hd
      refine Or.inr ⟨rfl, ?_⟩
      have := lt_of_mul_lt_mul_right h (by positivity)
      exact_mod_cast this
    · exact absurd (hn.lt_of_exponent_lt hm hd) (not_lt.mpr h.le)
  · rintro (hd | ⟨rfl, hmn⟩)
    · exact hm.lt_of_exponent_lt hn hd
    · gcongr

lemma compare_magnitudes {m n : ℕ} {d e : ℤ} (hm : IsCanonical m d) (hn : IsCanonical n e) :
    (compare d e).then (compare m n) = compare (m * 2 ^ d : ℚ) (n * 2 ^ e) := by
  rcases lt_trichotomy (m * 2 ^ d : ℚ) (n * 2 ^ e) with h | h | h
  · rw [compare_lt_iff_lt.mpr h]
    rcases (hm.lt_iff hn).mp h with h1 | ⟨rfl, h1⟩
    · simp [compare_lt_iff_lt.mpr h1]
    · simp [compare_lt_iff_lt.mpr h1]
  · have h1 := mt (hm.lt_iff hn).mpr h.not_lt
    have h2 := mt (hn.lt_iff hm).mpr h.not_gt
    have hd : d = e := by omega
    have hmn : m = n := by omega
    simp [hd, hmn]
  · rw [compare_gt_iff_gt.mpr h]
    rcases (hn.lt_iff hm).mp h with h1 | ⟨rfl, h1⟩
    · simp [compare_gt_iff_gt.mpr h1]
    · simp [compare_gt_iff_gt.mpr h1]

/-! ## Unpacked doubles -/

/-- Whether the mantissa and exponent of an unpacked double are canonical, if it has any. -/
def CanonicalParts : UnpackedFloat → Prop
  | .finite _ m e _ => IsCanonical m e
  | _ => True

lemma canonicalParts_unpack (x : Float) : CanonicalParts x.toModel.unpack := by
  cases h : x.toModel.unpack with
  | finite s m e pos =>
      have hview : Binary64.ofFloat x = .finite (isMinus s) m e := by
        rw [ofFloat_eq_ofUnpacked, h]
        rfl
      exact ofFloat_canonical hview
  | _ => trivial

lemma IsCanonical.value_pos {m : ℕ} {e : ℤ} (h : IsCanonical m e) : (0 : ℚ) < m * 2 ^ e := by
  have := h.pos
  positivity

/-- Numbers compare as they do among themselves. -/
lemma compare_coe (p q : ℚ) :
    compare ((p : WithTop ℚ) : WithBot (WithTop ℚ)) ((q : WithTop ℚ)) = compare p q := by
  rcases lt_trichotomy p q with h | h | h
  · rw [compare_lt_iff_lt.mpr h, compare_lt_iff_lt]
    exact_mod_cast h
  · rw [h, compare_eq_iff_eq.mpr rfl, compare_eq_iff_eq.mpr rfl]
  · rw [compare_gt_iff_gt.mpr h, compare_gt_iff_gt]
    exact_mod_cast h

lemma compare_neg (p q : ℚ) : compare (-p) (-q) = (compare p q).swap := by
  rcases lt_trichotomy p q with h | h | h
  · rw [compare_lt_iff_lt.mpr h, Ordering.swap, compare_gt_iff_gt]
    linarith
  · rw [h, compare_eq_iff_eq.mpr rfl, compare_eq_iff_eq.mpr rfl, Ordering.swap]
  · rw [compare_gt_iff_gt.mpr h, Ordering.swap, compare_lt_iff_lt]
    linarith

/-- **The comparison of unpacked doubles is that of their values**, sign by sign. -/
theorem compare_unpacked {u v : UnpackedFloat} (hu : CanonicalParts u) (hv : CanonicalParts v)
    (nu : u ≠ .notANumber) (nv : v ≠ .notANumber) :
    u.compare v = some (compare (ofUnpacked u).value (ofUnpacked v).value) := by
  cases u with
  | notANumber => exact absurd rfl nu
  | infinity s =>
      cases v with
      | notANumber => exact absurd rfl nv
      | infinity t => cases s <;> cases t <;> rfl
      | zero t => cases s <;> rfl
      | finite t n e hn => cases s <;> cases t <;> rfl
  | zero s =>
      cases v with
      | notANumber => exact absurd rfl nv
      | infinity t => cases t <;> rfl
      | zero t => rfl
      | finite t n e hn =>
          have h := hv.value_pos
          simp only [ofUnpacked, value, compare_coe]
          cases t with
          | negative => rw [compare_gt_iff_gt.mpr (by simpa [isMinus] using h)]; rfl
          | positive => rw [compare_lt_iff_lt.mpr (by simpa [isMinus] using h)]; rfl
  | finite s m d hm =>
      have h := hu.value_pos
      cases v with
      | notANumber => exact absurd rfl nv
      | infinity t => cases s <;> cases t <;> rfl
      | zero t =>
          simp only [ofUnpacked, value, compare_coe]
          cases s with
          | negative => rw [compare_lt_iff_lt.mpr (by simpa [isMinus] using h)]; rfl
          | positive => rw [compare_gt_iff_gt.mpr (by simpa [isMinus] using h)]; rfl
      | finite t n e hn =>
          have h' := hv.value_pos
          simp only [ofUnpacked, value, compare_coe]
          cases s <;> cases t <;>
            simp only [isMinus, if_true, if_false, one_mul, neg_one_mul, Bool.false_eq_true]
          · rw [compare_neg, ← compare_magnitudes hu hv]; rfl
          · rw [compare_lt_iff_lt.mpr (by linarith)]; rfl
          · rw [compare_gt_iff_gt.mpr (by linarith)]; rfl
          · rw [← compare_magnitudes hu hv]; rfl

lemma unpack_ne_notANumber {x : Float} (h : x.isNaN = false) :
    x.toModel.unpack ≠ .notANumber := by
  intro h0
  rw [Float.isNaN, Float.Model.isNaN, h0] at h
  exact absurd h (by decide)

lemma ofFloat_ne_nan {x : Float} (h : x.isNaN = false) : ofFloat x ≠ nan := by
  have hne := unpack_ne_notANumber h
  rw [ofFloat_eq_ofUnpacked]
  cases hx : x.toModel.unpack with
  | notANumber => exact absurd hx hne
  | _ => simp [ofUnpacked]

lemma ofFloat_nan {x : Float} (h : x.isNaN = true) : ofFloat x = nan := by
  rw [ofFloat_eq_ofUnpacked]
  rw [Float.isNaN, Float.Model.isNaN] at h
  cases hx : x.toModel.unpack with
  | notANumber => rfl
  | _ =>
      rw [hx] at h
      exact absurd h Bool.false_ne_true

theorem compare_value {x y : Float} (hx : x.isNaN = false) (hy : y.isNaN = false) :
    x.toModel.unpack.compare y.toModel.unpack =
      some (compare (ofFloat x).value (ofFloat y).value) :=
  compare_unpacked (canonicalParts_unpack x) (canonicalParts_unpack y) (unpack_ne_notANumber hx)
    (unpack_ne_notANumber hy)

/-! ## Doubles -/

theorem lt_iff_value {x y : Float} (hx : x.isNaN = false) (hy : y.isNaN = false) :
    x < y ↔ (ofFloat x).value < (ofFloat y).value := by
  have h : x < y ↔ (x.toModel.unpack.compare y.toModel.unpack == some .lt) = true :=
    decide_eq_true_iff
  rw [h, compare_value hx hy, beq_iff_eq, Option.some_inj, compare_lt_iff_lt]

theorem beq_iff_value {x y : Float} (hx : x.isNaN = false) (hy : y.isNaN = false) :
    (x == y) = true ↔ (ofFloat x).value = (ofFloat y).value := by
  have h : (x == y) = (x.toModel.unpack.compare y.toModel.unpack == some .eq) := rfl
  rw [h, compare_value hx hy, beq_iff_eq, Option.some_inj, compare_eq_iff_eq]

theorem le_iff_value {x y : Float} (hx : x.isNaN = false) (hy : y.isNaN = false) :
    x ≤ y ↔ (ofFloat x).value ≤ (ofFloat y).value := by
  have h : x ≤ y ↔ (x.toModel.unpack.compare y.toModel.unpack).any (·.isLE) = true :=
    decide_eq_true_iff
  rw [h, compare_value hx hy, Option.any_some, ← compare_le_iff_le]
  exact Ordering.isLE_iff_ne_gt

end Binary64
end RankedTable
