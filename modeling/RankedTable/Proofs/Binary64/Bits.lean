import Mathlib
import RankedTable.Binary64.Basic

/-!
# The fields of a double

`Binary64.ofFloat` looks at a double through its unpacked form.  The proofs about scores need
the same view in plain arithmetic: the bits of a double are a sign, eleven bits of a biased
exponent and a fraction of 52 bits, read off a natural number by division.

* `Binary64.ofBits` — what the double with given bits stands for, in natural-number arithmetic.
* **`ofFloat_eq_ofBits`** — the view of a double is the view of its bits.
* `Binary64.IsCanonical` — which mantissas and exponents finite doubles have.
* `ofFloat_canonical` — they have no others; `toNat_toBits` gives the bits back.
* **`ofBits_toBits`** — a double is the double of its bits.
* `toBits_ofBits` — a double has the bits that it was made of, unless they stand for no number.
-/

namespace RankedTable

open Float.Model (Format UnpackedFloat)
open Float.Model.UnpackedFloat (unpackMantissa unpackExponent unpackSign packComponents Sign)

/-! ## Fields as quotients and remainders -/

lemma toNat_unpackMantissa (b : BitVec Format.binary64.numBits) :
    (unpackMantissa b).toNat = b.toNat % 2 ^ 52 := by
  simp [unpackMantissa, BitVec.extractLsb]

lemma toNat_unpackExponent (b : BitVec Format.binary64.numBits) :
    (unpackExponent b).toNat = b.toNat / 2 ^ 52 % 2 ^ 11 := by
  simp [unpackExponent, BitVec.extractLsb, Nat.shiftRight_eq_div_pow]

lemma toNat_unpackSign (b : BitVec Format.binary64.numBits) :
    (unpackSign b).toNat = b.toNat / 2 ^ 63 := by
  have h : b.toNat < 2 ^ 64 := b.isLt
  simp [unpackSign, BitVec.extractLsb, Nat.shiftRight_eq_div_pow]
  omega

/-- The sign bit is set from half the range on. -/
lemma isMinus_unpackSign (b : BitVec Format.binary64.numBits) :
    isMinus (Sign.ofBitVec (unpackSign b)) = decide (2 ^ 63 ≤ b.toNat) := by
  have hlt : b.toNat < 2 ^ 64 := b.isLt
  have hs := toNat_unpackSign b
  by_cases hb : 2 ^ 63 ≤ b.toNat
  · have hne : unpackSign b ≠ 0#1 := by
      intro h0
      rw [h0, BitVec.toNat_zero] at hs
      omega
    rw [Sign.ofBitVec, if_neg hne, decide_eq_true hb]
    rfl
  · have heq : unpackSign b = 0#1 := by
      apply BitVec.eq_of_toNat_eq
      rw [hs, BitVec.toNat_zero]
      omega
    rw [Sign.ofBitVec, if_pos heq, decide_eq_false hb]
    rfl

/-- A fraction with the implicit bit in front of it. -/
lemma toNat_implicit_append (m : BitVec 52) : (1#1 ++ m).toNat = 2 ^ 52 + m.toNat := by
  rw [BitVec.toNat_append, ← Nat.shiftLeft_add_eq_or_of_lt m.isLt]
  simp [Nat.shiftLeft_eq]

/-- The bits of a sign. -/
def signBits (s : Sign) : ℕ :=
  if isMinus s then 2 ^ 63 else 0

lemma toNat_packComponents (s : Sign) (e : BitVec 11) (m : BitVec 52) :
    (packComponents Format.binary64 s e m).toNat = signBits s + e.toNat * 2 ^ 52 + m.toNat := by
  have he := e.isLt
  have hm := m.isLt
  have hse : (s.toBitVec ++ e).toNat = s.toBitVec.toNat * 2 ^ 11 + e.toNat := by
    rw [BitVec.toNat_append, ← Nat.shiftLeft_add_eq_or_of_lt e.isLt, Nat.shiftLeft_eq]
  have hall : (s.toBitVec ++ e ++ m).toNat = (s.toBitVec ++ e).toNat * 2 ^ 52 + m.toNat := by
    rw [BitVec.toNat_append, ← Nat.shiftLeft_add_eq_or_of_lt m.isLt, Nat.shiftLeft_eq]
  have hs : s.toBitVec.toNat * 2 ^ 63 = signBits s := by cases s <;> rfl
  calc (s.toBitVec ++ e ++ m).toNat
      = (s.toBitVec.toNat * 2 ^ 11 + e.toNat) * 2 ^ 52 + m.toNat := by rw [hall, hse]
    _ = s.toBitVec.toNat * 2 ^ 63 + e.toNat * 2 ^ 52 + m.toNat := by ring
    _ = signBits s + e.toNat * 2 ^ 52 + m.toNat := by rw [hs]

/-! ## The view of the bits -/

/-- What the double with these bits stands for. -/
def Binary64.ofBits (n : ℕ) : Binary64 :=
  let negative := decide (2 ^ 63 ≤ n)
  let biased : ℕ := n / 2 ^ 52 % 2 ^ 11
  let fraction : ℕ := n % 2 ^ 52
  if biased = 2047 then if fraction = 0 then .infinity negative else .nan
  else if biased = 0 then
    if fraction = 0 then .zero negative else .finite negative fraction (-1074)
  else .finite negative (2 ^ 52 + fraction) ((biased : ℤ) - 1075)

/-- The view of an unpacked double. -/
def Binary64.ofUnpacked : UnpackedFloat → Binary64
  | .notANumber => .nan
  | .infinity s => .infinity (isMinus s)
  | .zero s => .zero (isMinus s)
  | .finite s mantissa exponent _ => .finite (isMinus s) mantissa exponent

lemma ofFloat_eq_ofUnpacked (x : Float) :
    Binary64.ofFloat x = Binary64.ofUnpacked x.toModel.unpack := rfl

theorem ofUnpacked_unpack (b : BitVec Format.binary64.numBits) :
    Binary64.ofUnpacked (UnpackedFloat.unpack .binary64 b) = Binary64.ofBits b.toNat := by
  have hmax : unpackExponent b = -1#11 ↔ b.toNat / 2 ^ 52 % 2 ^ 11 = 2047 := by
    rw [← toNat_unpackExponent, BitVec.toNat_eq]
    exact Iff.rfl
  have hzero : unpackExponent b = 0#11 ↔ b.toNat / 2 ^ 52 % 2 ^ 11 = 0 := by
    rw [← toNat_unpackExponent, BitVec.toNat_eq]
    exact Iff.rfl
  have hfraction : unpackMantissa b = 0#52 ↔ b.toNat % 2 ^ 52 = 0 := by
    rw [← toNat_unpackMantissa, BitVec.toNat_eq]
    exact Iff.rfl
  simp only [UnpackedFloat.unpack, hmax, hzero, hfraction, Binary64.ofBits]
  split_ifs with h1 h2 h3 h4
  · rw [Binary64.ofUnpacked, isMinus_unpackSign]
  · rfl
  · rw [Binary64.ofUnpacked, isMinus_unpackSign]
  · rw [Binary64.ofUnpacked, isMinus_unpackSign, toNat_unpackMantissa, toNat_unpackExponent, h3]
    rfl
  · rw [Binary64.ofUnpacked, isMinus_unpackSign, toNat_implicit_append, toNat_unpackMantissa,
      toNat_unpackExponent]
    rfl

/-- **The view of a double is that of its bits.** -/
theorem ofFloat_eq_ofBits (x : Float) : Binary64.ofFloat x = Binary64.ofBits x.toBits.toNat := by
  rw [ofFloat_eq_ofUnpacked]
  exact ofUnpacked_unpack x.toBits.toBitVec

/-! ## Mantissas and exponents of finite doubles -/

/-- Which mantissas and exponents a finite double other than zero has: 53 bits with the first one
set, or fewer at the least exponent. -/
structure Binary64.IsCanonical (mantissa : ℕ) (exponent : ℤ) : Prop where
  pos : 0 < mantissa
  lt : mantissa < 2 ^ 53
  low : -1074 ≤ exponent
  high : exponent ≤ 971
  normal : 2 ^ 52 ≤ mantissa ∨ exponent = -1074

/-- The bits of a magnitude.  The mantissa's first bit carries into the biased exponent. -/
def Binary64.magnitude (mantissa : ℕ) (exponent : ℤ) : ℕ :=
  (exponent + 1074).toNat * binadeBits + mantissa

theorem ofBits_finite {n : ℕ} {negative : Bool} {m : ℕ} {e : ℤ} (hn : n < 2 ^ 64)
    (h : Binary64.ofBits n = .finite negative m e) :
    Binary64.IsCanonical m e ∧
      n = (if negative then 2 ^ 63 else 0) + Binary64.magnitude m e := by
  have hd : n / 2 ^ 52 % 2 ^ 11 < 2 ^ 11 := Nat.mod_lt _ (by decide)
  have hm : n % 2 ^ 52 < 2 ^ 52 := Nat.mod_lt _ (by decide)
  have hsign : n =
      (if 2 ^ 63 ≤ n then 2 ^ 63 else 0) + n / 2 ^ 52 % 2 ^ 11 * 2 ^ 52 + n % 2 ^ 52 := by
    split_ifs <;> omega
  simp only [Binary64.ofBits] at h
  split_ifs at h with h1 h2 h3 h4
  · injection h with hneg hmant hexp
    subst hneg hmant hexp
    refine ⟨⟨by omega, by omega, by omega, by omega, Or.inr rfl⟩, ?_⟩
    simp only [Binary64.magnitude, decide_eq_true_eq, show (-1074 + 1074 : ℤ).toNat = 0 from rfl]
    rw [h3] at hsign
    omega
  · injection h with hneg hmant hexp
    subst hneg hmant hexp
    refine ⟨⟨by omega, by omega, by omega, by omega, Or.inl (by omega)⟩, ?_⟩
    simp only [Binary64.magnitude, decide_eq_true_eq, binadeBits]
    omega

theorem ofFloat_canonical {x : Float} {negative : Bool} {m : ℕ} {e : ℤ}
    (h : Binary64.ofFloat x = .finite negative m e) : Binary64.IsCanonical m e := by
  rw [ofFloat_eq_ofBits] at h
  exact (ofBits_finite x.toBits.toNat_lt h).1

theorem toNat_toBits_finite {x : Float} {negative : Bool} {m : ℕ} {e : ℤ}
    (h : Binary64.ofFloat x = .finite negative m e) :
    x.toBits.toNat = (if negative then 2 ^ 63 else 0) + Binary64.magnitude m e := by
  rw [ofFloat_eq_ofBits] at h
  exact (ofBits_finite x.toBits.toNat_lt h).2

theorem toNat_toBits_infinity {x : Float} {negative : Bool}
    (h : Binary64.ofFloat x = .infinity negative) :
    x.toBits.toNat = (if negative then 2 ^ 63 else 0) + infinityBits := by
  have hn : x.toBits.toNat < 2 ^ 64 := x.toBits.toNat_lt
  rw [ofFloat_eq_ofBits] at h
  generalize x.toBits.toNat = n at *
  simp only [Binary64.ofBits] at h
  split_ifs at h with h1 h2
  injection h with hneg
  subst hneg
  simp only [decide_eq_true_eq, infinityBits]
  split_ifs <;> omega

/-! ## A double is the double of its bits -/

/-- Putting the fields of a word together again gives the word. -/
lemma packComponents_fields (b : BitVec Format.binary64.numBits) :
    packComponents Format.binary64 (Sign.ofBitVec (unpackSign b)) (unpackExponent b)
      (unpackMantissa b) = b := by
  have hb : b.toNat < 2 ^ 64 := b.isLt
  apply BitVec.eq_of_toNat_eq
  have h := toNat_packComponents (Sign.ofBitVec (unpackSign b)) (unpackExponent b)
    (unpackMantissa b)
  rw [toNat_unpackExponent, toNat_unpackMantissa, signBits, isMinus_unpackSign] at h
  rw [h]
  by_cases hs : 2 ^ 63 ≤ b.toNat
  · rw [if_pos (decide_eq_true hs)]
    omega
  · rw [if_neg (by simpa using hs)]
    omega

lemma pack_normal (s : Sign) {m : ℕ} {e : ℤ} (pos : 0 < m) (lower : 2 ^ 52 ≤ m)
    (upper : m < 2 ^ 53) (high : e ≤ 971) :
    UnpackedFloat.pack .binary64 (.finite s m e pos) =
      packComponents Format.binary64 s (BitVec.ofNat 11 (e + 1075).toNat) (BitVec.ofNat 52 m) := by
  have hlog : m.log2 = 52 := (Nat.log2_eq_iff (by omega)).mpr ⟨lower, upper⟩
  have hbiased : (e + (Format.binary64.exponentBias : ℕ)
      + (Format.binary64.mantissaBitsWithoutImplicit : ℕ)).toNat = (e + 1075).toNat := by
    change (e + 1023 + 52).toNat = _
    congr 1
    ring
  rw [UnpackedFloat.pack]
  simp only [hbiased, hlog]
  rw [if_neg (by change ¬2048 ≤ (e + 1075).toNat + 1; omega),
    if_pos (show 52 + 1 = Format.binary64.mantissaBits from rfl)]

lemma pack_subnormal (s : Sign) {m : ℕ} (pos : 0 < m) (upper : m < 2 ^ 52) :
    UnpackedFloat.pack .binary64 (.finite s m (-1074) pos) =
      packComponents Format.binary64 s 0#11 (BitVec.ofNat 52 m) := by
  have hlog : m.log2 < 52 := (Nat.log2_lt (by omega)).mpr upper
  rw [UnpackedFloat.pack]
  rw [if_neg (by decide), if_neg (by change ¬m.log2 + 1 = 53; omega)]

/-- Packing what was unpacked gives the word back; of the words that stand for no number just one
is valid. -/
theorem pack_unpack {b : BitVec Format.binary64.numBits} (valid : Format.binary64.Valid b) :
    UnpackedFloat.pack .binary64 (UnpackedFloat.unpack .binary64 b) = b := by
  have hexp : (unpackExponent b).toNat < 2 ^ 11 := (unpackExponent b).isLt
  have hmant : (unpackMantissa b).toNat < 2 ^ 52 := (unpackMantissa b).isLt
  have himplicit : (1#1 ++ unpackMantissa b).toNat = 2 ^ 52 + (unpackMantissa b).toNat :=
    toNat_implicit_append _
  have hself := packComponents_fields b
  simp only [UnpackedFloat.unpack]
  split_ifs with hmax hnone hzero hnone
  · rw [hmax, hnone] at hself
    exact hself
  · exact (valid.eq_packedNaN hmax hnone).symm
  · rw [hzero, hnone] at hself
    exact hself
  · have hpos : 0 < (unpackMantissa b).toNat := by
      rw [Nat.pos_iff_ne_zero]
      intro h0
      exact hnone (BitVec.eq_of_toNat_eq h0)
    have hexponent : ((unpackExponent b).toNat : ℤ) - ((Format.binary64.exponentBias : ℕ)
        + (Format.binary64.mantissaBitsWithoutImplicit : ℕ)) + 1 = -1074 := by
      rw [hzero]
      rfl
    rw [hzero] at hself
    simp only [hexponent]
    rw [pack_subnormal _ hpos hmant, BitVec.ofNat_toNat, BitVec.setWidth_eq]
    exact hself
  · have hmax' : (unpackExponent b).toNat ≠ 2047 := fun h => hmax (BitVec.eq_of_toNat_eq h)
    have hexponent : ((unpackExponent b).toNat : ℤ) - ((Format.binary64.exponentBias : ℕ)
        + (Format.binary64.mantissaBitsWithoutImplicit : ℕ)) = (unpackExponent b).toNat - 1075 :=
      rfl
    have hfield : BitVec.ofNat 52 (1#1 ++ unpackMantissa b).toNat = unpackMantissa b := by
      apply BitVec.eq_of_toNat_eq
      rw [himplicit, BitVec.toNat_ofNat]
      omega
    simp only [hexponent]
    rw [pack_normal _ (by omega) (by omega) (by omega) (by omega), hfield,
      show ((unpackExponent b).toNat - 1075 + 1075 : ℤ).toNat = (unpackExponent b).toNat by omega,
      BitVec.ofNat_toNat, BitVec.setWidth_eq]
    exact hself

theorem ofBits_toBits (x : Float) : Float.ofBits x.toBits = x := by
  obtain ⟨bits, valid⟩ := x
  have h : UnpackedFloat.pack .binary64 (UnpackedFloat.unpack .binary64 bits.toBitVec) =
      bits.toBitVec := pack_unpack valid
  simp only [Float.ofBits, Float.toBits, Float.Model.ofBits, Float.Model.pack, h]

/-- A double has the bits that it was made of, unless they stand for no number. -/
theorem toBits_ofBits {b : UInt64} (h : Binary64.ofBits b.toNat ≠ .nan) :
    (Float.ofBits b).toBits = b := by
  have hvalid : Format.binary64.Valid b.toBitVec := by
    refine ⟨fun hmax hfraction => absurd ?_ h⟩
    rw [← UInt64.toNat_toBitVec, ← ofUnpacked_unpack, UnpackedFloat.unpack, if_pos hmax,
      if_neg hfraction]
    rfl
  exact congrArg UInt64.ofBitVec (pack_unpack hvalid)

/-- Below infinity, whatever the sign, there are only numbers. -/
lemma ofBits_ne_nan {n : ℕ} (h : n % 2 ^ 63 ≤ infinityBits) : Binary64.ofBits n ≠ .nan := by
  intro hnan
  rw [infinityBits] at h
  simp only [Binary64.ofBits] at hnan
  split_ifs at hnan with hbiased hfraction
  omega

end RankedTable
