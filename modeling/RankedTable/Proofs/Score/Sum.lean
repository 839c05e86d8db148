import RankedTable.Proofs.Score.RoundTrip

/-!
# Sums of scores

An encoding keeps of zero no sign, so what is added to a stored score may differ from what would be
added to the score as it was written.  The sums are numerically the same.

* `isNaN_of_beq`, `beq_trans` — only numbers are numerically equal, and they are so transitively.
* **`beq_add`** — equal numbers have equal sums with a third.
-/

namespace RankedTable

open Float.Model (UnpackedFloat)

namespace Binary64

lemma toModel_add (x y : Float) : (x + y).toModel =
    .pack (UnpackedFloat.add .binary64 x.toModel.unpack y.toModel.unpack) := rfl

lemma unpack_of_zero {x : Float} {negative : Bool} (h : ofFloat x = .zero negative) :
    ∃ sign, x.toModel.unpack = .zero sign := by
  rw [ofFloat_eq_ofUnpacked] at h
  cases hx : x.toModel.unpack with
  | zero sign => exact ⟨sign, rfl⟩
  | _ =>
      rw [hx] at h
      cases h

/-- Only numbers are numerically equal to anything. -/
lemma isNaN_of_beq {x y : Float} (h : (x == y) = true) : x.isNaN = false ∧ y.isNaN = false := by
  have hcompare : (x == y) = (x.toModel.unpack.compare y.toModel.unpack == some .eq) := rfl
  rw [hcompare] at h
  constructor
  · rw [Float.isNaN, Float.Model.isNaN]
    cases hx : x.toModel.unpack with
    | notANumber =>
        rw [hx] at h
        cases h
    | _ => rfl
  · rw [Float.isNaN, Float.Model.isNaN]
    cases hy : y.toModel.unpack with
    | notANumber =>
        rw [hy] at h
        cases hx : x.toModel.unpack with
        | _ =>
            rw [hx] at h
            cases h
    | _ => rfl

lemma beq_refl {x : Float} (h : x.isNaN = false) : (x == x) = true :=
  (beq_iff_value h h).mpr rfl

lemma beq_trans {x y z : Float} (hxy : (x == y) = true) (hyz : (y == z) = true) :
    (x == z) = true := by
  obtain ⟨hx, hy⟩ := isNaN_of_beq hxy
  obtain ⟨-, hz⟩ := isNaN_of_beq hyz
  rw [beq_iff_value hx hz]
  exact ((beq_iff_value hx hy).mp hxy).trans ((beq_iff_value hy hz).mp hyz)

/-- Zeros have numerically the same sums, whatever their signs. -/
lemma beq_add_of_zero {x y d : Float} {negative negative' : Bool} (hx : ofFloat x = .zero negative)
    (hy : ofFloat y = .zero negative') (hsum : (x + d).isNaN = false) :
    (x + d == y + d) = true := by
  obtain ⟨s, hxs⟩ := unpack_of_zero hx
  obtain ⟨t, hyt⟩ := unpack_of_zero hy
  cases hd : d.toModel.unpack with
  | zero sign =>
      change (Float.Model.beq (x + d).toModel (y + d).toModel) = true
      rw [toModel_add, toModel_add, hxs, hyt, hd]
      cases s <;> cases t <;> cases sign <;> rfl
  | _ =>
      -- a zero added to anything else leaves it as it is
      have hmodel : (x + d).toModel = (y + d).toModel := by
        rw [toModel_add, toModel_add, hxs, hyt, hd]
        rfl
      have hsame : x + d = y + d := congrArg Float.ofModel hmodel
      rw [← hsame]
      exact beq_refl hsum

end Binary64

namespace Score

/-- **Equal numbers have equal sums with a third.** -/
theorem beq_add {x y d : Float} (h : (x == y) = true) (hsum : (x + d).isNaN = false) :
    (x + d == y + d) = true := by
  obtain ⟨hx, hy⟩ := Binary64.isNaN_of_beq h
  obtain ⟨s, hs, hsdecode⟩ := decode_encode hx
  obtain ⟨t, ht, htdecode⟩ := decode_encode hy
  have hzero : (x == 0.0) = true ↔ (y == 0.0) = true := by
    rw [Binary64.beq_iff_value hx (by decide), Binary64.beq_iff_value hy (by decide),
      (Binary64.beq_iff_value hx hy).mp h]
  by_cases hx0 : (x == 0.0) = true
  · obtain ⟨negative, hxz⟩ := (beq_zero_iff hx).mp hx0
    obtain ⟨negative', hyz⟩ := (beq_zero_iff hy).mp (hzero.mp hx0)
    exact Binary64.beq_add_of_zero hxz hyz hsum
  · -- of other doubles, which are given back by their encodings, equal ones are the same
    rw [if_neg hx0, (encode_eq_iff hs ht).mpr h, htdecode, if_neg (mt hzero.mpr hx0)] at hsdecode
    rw [← Except.ok.inj hsdecode]
    exact Binary64.beq_refl (Except.ok.inj hsdecode ▸ hsum)

end Score

end RankedTable
