import RankedTable.Proofs.Score.Sum

/-!
# The sign of a zero that is a sum

Doubles have two zeros, and only one of them is given back by its encoding.  A sum of two doubles is
a multiple of the smallest magnitude that there is, so it is never rounded to zero, and a sum that
is exactly zero is the positive one unless both terms are negative zeros.

* `roundWithAccuracy_finite`, `round_finite` — a multiple of the smallest magnitude is not rounded
  to zero.
* `eq_negativeZero_of_pack` — nothing but negative zero is packed as such.
* **`negativeZero_of_add`** — a sum is negative zero only if both terms are.
* `eq_zero_of_beq` — the other zero is the literal one.
-/

namespace RankedTable

open Float.Model (Format UnpackedFloat totalExponent)
open Float.Model.UnpackedFloat

namespace Binary64

/-! ## Rounding -/

lemma mantissa_shiftRight (em : ExtendedMantissa) (k : ℕ) :
    (em >>> k).mantissa = em.mantissa / 2 ^ k := by
  induction k with
  | zero => exact (Nat.div_one _).symm
  | succ k ih =>
      change (em >>> k).mantissa / 2 = _
      rw [ih, Nat.div_div_eq_div_mul, ← Nat.pow_succ]

lemma mantissa_le_roundedMantissa (em : ExtendedMantissa) :
    em.mantissa ≤ em.roundedMantissa := by
  obtain ⟨m, roundBit, stickyBit⟩ := em
  cases roundBit <;> cases stickyBit
  · exact le_rfl
  · exact le_rfl
  · exact Nat.le_add_right _ _
  · exact Nat.le_add_right _ _

/-- Shifting a mantissa to its place keeps its first bit. -/
lemma shiftToTargetExponent_spec {m : ℕ} {e : ℤ} (hm : m ≠ 0) (he : -1074 ≤ e) :
    (shiftToTargetExponent .binary64 m e .exact).1.mantissa ≠ 0 ∧
      (shiftToTargetExponent .binary64 m e .exact).1.mantissa < 2 ^ 53 ∧
      -1074 ≤ (shiftToTargetExponent .binary64 m e .exact).2 := by
  have htarget : Format.binary64.targetExponent (totalExponent m e) =
      max ((m.log2 : ℤ) + e - 52) (-1074) := by
    change max ((m.log2 : ℤ) + 1 + e - 53) (-1074) = _
    omega
  have hmantissa : (shiftToTargetExponent .binary64 m e .exact).1.mantissa =
      m / 2 ^ (max ((m.log2 : ℤ) + e - 52) (-1074) - e).toNat := by
    rw [← htarget]
    exact mantissa_shiftRight _ _
  have hexponent : (shiftToTargetExponent .binary64 m e .exact).2 =
      e + ((max ((m.log2 : ℤ) + e - 52) (-1074) - e).toNat : ℤ) := by
    rw [← htarget]
    rfl
  have hshift : (max ((m.log2 : ℤ) + e - 52) (-1074) - e).toNat = m.log2 - 52 := by omega
  rw [hmantissa, hexponent, hshift]
  have hpos : 0 < 2 ^ (m.log2 - 52) := by positivity
  refine ⟨?_, ?_, by omega⟩
  · rw [← Nat.pos_iff_ne_zero, Nat.div_pos_iff]
    refine ⟨hpos, ?_⟩
    calc 2 ^ (m.log2 - 52) ≤ 2 ^ m.log2 := Nat.pow_le_pow_right (by decide) (Nat.sub_le _ _)
      _ ≤ m := Nat.log2_self_le hm
  · rw [Nat.div_lt_iff_lt_mul hpos, ← Nat.pow_add]
    calc m < 2 ^ (m.log2 + 1) := Nat.lt_log2_self
      _ ≤ 2 ^ (53 + (m.log2 - 52)) := Nat.pow_le_pow_right (by decide) (by omega)

lemma roundWithAccuracy_finite (sign : Sign) {m : ℕ} {e : ℤ} (hm : m ≠ 0) (he : -1074 ≤ e) :
    ∃ m' e' pos, m' < 2 ^ 53 ∧ -1074 ≤ e' ∧
      roundWithAccuracy .binary64 sign m e .exact = .finite sign m' e' pos := by
  obtain ⟨hne, -, hlow⟩ := shiftToTargetExponent_spec hm he
  have hrounded := mantissa_le_roundedMantissa (shiftToTargetExponent .binary64 m e .exact).1
  obtain ⟨hne', hlt', hlow'⟩ := shiftToTargetExponent_spec
    (m := (shiftToTargetExponent .binary64 m e .exact).1.roundedMantissa) (by omega) hlow
  exact ⟨_, _, Nat.pos_of_ne_zero hne', hlt', hlow', dif_neg hne'⟩

/-- **A multiple of the smallest magnitude is not rounded to zero.** -/
lemma round_finite (sign : Sign) {m : ℕ} {e : ℤ} (hm : m ≠ 0) (he : -1074 ≤ e) :
    ∃ m' e' pos, m' < 2 ^ 53 ∧ -1074 ≤ e' ∧
      UnpackedFloat.round .binary64 sign m e = .finite sign m' e' pos := by
  have htarget : -1074 ≤ Format.binary64.targetExponent (totalExponent m e) := le_max_right _ _
  refine roundWithAccuracy_finite sign ?_ ?_
  · rw [Nat.shiftLeft_eq]
    exact Nat.mul_ne_zero hm (by positivity)
  · omega

/-! ## Packing -/

/-- Whether a finite number has at most 53 bits and is a multiple of the smallest magnitude. -/
def HasPlace : UnpackedFloat → Prop
  | .finite _ m e _ => m < 2 ^ 53 ∧ -1074 ≤ e
  | _ => True

lemma hasPlace_unpack (x : Float) : HasPlace x.toModel.unpack := by
  have hparts := canonicalParts_unpack x
  cases hx : x.toModel.unpack with
  | finite s m e pos =>
      rw [hx] at hparts
      exact ⟨hparts.lt, hparts.low⟩
  | _ => trivial

/-- The fields of what is not zero are not those of a zero: its exponent is positive, or its
mantissa is. -/
lemma pack_finite_ne_packedZero (sign sign' : Sign) {m : ℕ} {e : ℤ} (pos : 0 < m)
    (hplace : HasPlace (.finite sign m e pos)) :
    UnpackedFloat.pack .binary64 (.finite sign m e pos) ≠ packedZero .binary64 sign' := by
  obtain ⟨hm, he⟩ := hplace
  have hbiased : (e + (Format.binary64.exponentBias : ℕ)
      + (Format.binary64.mantissaBitsWithoutImplicit : ℕ)).toNat = (e + 1075).toNat := by
    change (e + 1023 + 52).toNat = _
    congr 1
    ring
  intro hpack
  have hexponent := congrArg unpackExponent hpack
  have hmantissa := congrArg unpackMantissa hpack
  rw [packedZero, unpackExponent_packComponents] at hexponent
  rw [packedZero, unpackMantissa_packComponents] at hmantissa
  rw [UnpackedFloat.pack] at hexponent hmantissa
  simp only [hbiased] at hexponent hmantissa
  split_ifs at hexponent hmantissa with hlarge hnormal
  · rw [packedInfinity, unpackExponent_packComponents] at hexponent
    exact absurd hexponent (by decide)
  · have hsmall : (e + 1075).toNat < 2 ^ 11 := by
      change ¬2 ^ 11 ≤ _ at hlarge
      omega
    rw [unpackExponent_packComponents] at hexponent
    have hzero : (e + 1075).toNat % 2 ^ 11 = 0 := congrArg BitVec.toNat hexponent
    omega
  · have hsmall : m < 2 ^ 52 := by
      have hlog : m.log2 < 53 := (Nat.log2_lt pos.ne').mpr hm
      change ¬m.log2 + 1 = 53 at hnormal
      exact (Nat.log2_lt pos.ne').mp (by omega)
    rw [unpackMantissa_packComponents] at hmantissa
    have hzero : m % 2 ^ 52 = 0 := congrArg BitVec.toNat hmantissa
    omega

/-- Nothing but negative zero is packed as such. -/
lemma eq_negativeZero_of_pack {u : UnpackedFloat} (hplace : HasPlace u)
    (h : UnpackedFloat.pack .binary64 u = packedZero .binary64 .negative) :
    u = .zero .negative := by
  cases u with
  | notANumber => exact absurd h (by decide)
  | infinity s => cases s <;> exact absurd h (by decide)
  | zero s =>
      cases s with
      | negative => rfl
      | positive => exact absurd h (by decide)
  | finite s m e pos => exact absurd h (pack_finite_ne_packedZero s .negative pos hplace)

/-! ## Sums -/

/-- Two numbers other than zero have no negative zero as their sum: it is exact if it is small. -/
lemma normalize_spec (mantissa : ℤ) {e : ℤ} (he : -1074 ≤ e) :
    HasPlace (UnpackedFloat.normalize .binary64 mantissa e .positive) ∧
      UnpackedFloat.normalize .binary64 mantissa e .positive ≠ .zero .negative := by
  rw [UnpackedFloat.normalize]
  rcases lt_trichotomy mantissa 0 with h | rfl | h
  · rw [compare_lt_iff_lt.mpr h]
    obtain ⟨m', e', pos, hm, he', hround⟩ := round_finite .negative (by omega :
      (-mantissa).toNat ≠ 0) he
    dsimp only
    rw [hround]
    exact ⟨⟨hm, he'⟩, nofun⟩
  · exact ⟨trivial, nofun⟩
  · rw [compare_gt_iff_gt.mpr h]
    obtain ⟨m', e', pos, hm, he', hround⟩ := round_finite .positive (by omega :
      mantissa.toNat ≠ 0) he
    dsimp only
    rw [hround]
    exact ⟨⟨hm, he'⟩, nofun⟩

/-- A sum has its place among the doubles, and is negative zero only if both terms are. -/
lemma add_spec {u v : UnpackedFloat} (hu : HasPlace u) (hv : HasPlace v) :
    HasPlace (UnpackedFloat.add .binary64 u v) ∧
      (UnpackedFloat.add .binary64 u v = .zero .negative →
        u = .zero .negative ∧ v = .zero .negative) := by
  cases u with
  | notANumber => exact ⟨trivial, nofun⟩
  | infinity s =>
      cases v with
      | infinity t => cases s <;> cases t <;> exact ⟨trivial, nofun⟩
      | _ => exact ⟨trivial, nofun⟩
  | zero s =>
      cases v with
      | zero t => cases s <;> cases t <;> simp [UnpackedFloat.add, HasPlace]
      | notANumber => exact ⟨trivial, nofun⟩
      | infinity t => exact ⟨trivial, nofun⟩
      | finite t n f pos => exact ⟨hv, nofun⟩
  | finite s m e pos =>
      cases v with
      | notANumber => exact ⟨trivial, nofun⟩
      | infinity t => exact ⟨trivial, nofun⟩
      | zero t => exact ⟨hu, nofun⟩
      | finite t n f pos' =>
          obtain ⟨hplace, hne⟩ := normalize_spec
            (s.apply (decreaseExponent m e (min e f)).1 + t.apply (decreaseExponent n f (min e f)).1)
            (le_min hu.2 hv.2)
          exact ⟨hplace, fun h => absurd h hne⟩

lemma ofFloat_eq_negativeZero_iff {x : Float} :
    ofFloat x = .zero true ↔ x.toModel.unpack = .zero .negative := by
  rw [ofFloat_eq_ofUnpacked]
  cases x.toModel.unpack with
  | zero sign => cases sign <;> simp [ofUnpacked, isMinus]
  | _ => simp [ofUnpacked]

/-- **A sum of doubles is negative zero only if both terms are.** -/
theorem negativeZero_of_add {x y : Float} (h : ofFloat (x + y) = .zero true) :
    ofFloat x = .zero true ∧ ofFloat y = .zero true := by
  rw [ofFloat_eq_negativeZero_iff] at h
  rw [ofFloat_eq_negativeZero_iff, ofFloat_eq_negativeZero_iff]
  have hpack : UnpackedFloat.pack .binary64
      (UnpackedFloat.add .binary64 x.toModel.unpack y.toModel.unpack) =
        packedZero .binary64 .negative :=
    (unpack_eq_zero_iff_of_valid (x + y).toModel.valid).mp h
  obtain ⟨hplace, hterms⟩ := add_spec (hasPlace_unpack x) (hasPlace_unpack y)
  exact hterms (eq_negativeZero_of_pack hplace hpack)

/-- The zero that is not negative is the literal one. -/
lemma eq_zero_of_beq {x : Float} (hzero : (x == 0.0) = true) (hsign : ofFloat x ≠ .zero true) :
    x = 0.0 := by
  obtain ⟨negative, hx⟩ := (Score.beq_zero_iff (isNaN_of_beq hzero).1).mp hzero
  cases negative with
  | true => exact absurd hx hsign
  | false =>
      have hunpack : x.toModel.unpack = .zero .positive := by
        rw [ofFloat_eq_ofUnpacked] at hx
        cases hu : x.toModel.unpack with
        | zero sign =>
            rw [hu] at hx
            cases sign with
            | positive => rfl
            | negative => cases hx
        | _ =>
            rw [hu] at hx
            cases hx
      have hbits : x.toModel.toBits.toBitVec = packedZero .binary64 .positive :=
        (unpack_eq_zero_iff_of_valid x.toModel.valid).mp hunpack
      obtain ⟨⟨⟨bits⟩, valid⟩⟩ := x
      obtain rfl : bits = packedZero .binary64 .positive := hbits
      rfl

end Binary64

end RankedTable
