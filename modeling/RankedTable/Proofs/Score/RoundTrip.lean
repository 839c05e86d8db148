import RankedTable.Proofs.Binary64.Rounding
import RankedTable.Proofs.Score.Order

/-!
# Encoded scores decode to what they encode

Decoding reads the shifted exponent and the digits back as a decimal of the same value.  For a
double that decimal need not be the exact one that was encoded: it has the same value in other
digits, which is enough, for rounding depends on the value alone.

* `decodeBody_body` — the digits of an encoding stand for the magnitude it means.
* `decodeDecimal_encodeDecimal` — a decimal is given back up to its representation.
* `decode_encode` — a double is given back, and zero without its sign.
* `isNaN_decode` — no text decodes to NaN, so every score that was read can be encoded again.
* **`encode_lossless`** — the two codecs lose nothing, and what they refuse.
-/

namespace RankedTable.Score

open Decimal (AllDigits NoTrailingZero fraction digitsValue)

/-! ## Reading an encoding -/

lemma isDigitLike_of_isAsciiDigit {c : Char} (h : Decimal.isAsciiDigit c = true) :
    Char.isDigitLike c = true := by
  have hc := Decimal.isAsciiDigit_iff.mp h
  rw [Char.isDigitLike, Char.decimalValue?_ascii hc.1 hc.2]
  rfl

/-- **The digits of an encoding are read as the magnitude it means.** -/
theorem decodeBody_body {b : ℕ} {s : List Char} (h : IsSignificand b s) (text : String)
    (negative : Bool) :
    ∃ c e, decodeBody text negative (body b s) = .ok (.finite negative c e) ∧
      (c * 10 ^ e : ℚ) = scaled b s := by
  have hne := h.ne_nil
  have hsdigits := h.allDigits
  have htake : (body b s).take 3 = threeDigits b := rfl
  have hdrop : (body b s).drop 3 = s := rfl
  have hall : ∀ {l : List Char}, AllDigits l → l.all Char.isDigitLike = true := fun hl =>
    List.all_eq_true.mpr fun c hc => isDigitLike_of_isAsciiDigit (hl c hc)
  have hread : readDigits (threeDigits b) = some b := by
    rw [Decimal.readDigits_eq (allDigits_threeDigits b), digitsValue_threeDigits h.biased_lt]
  -- a single digit is read with a zero behind the point, which changes the coefficient only
  obtain ⟨places, hplaces, hdigits, hfraction, hpos⟩ :
      ∃ places, (if s.length = 1 then s ++ ['0'] else s) = places ∧ AllDigits places ∧
        fraction places = fraction s ∧ 0 < places.length := by
    refine ⟨_, rfl, ?_, ?_, ?_⟩
    · split_ifs
      · exact hsdigits.append (by simp [AllDigits, Decimal.isAsciiDigit])
      · exact hsdigits
    · split_ifs
      · rw [Decimal.fraction_append]
        simp [fraction, digitsValue]
      · rfl
    · split_ifs
      · simp
      · exact List.length_pos_of_ne_nil hne
  refine ⟨digitsValue places, b - bias - (places.length - 1 : ℕ), ?_, ?_⟩
  · simp only [decodeBody, htake, hdrop, hread, hplaces, Decimal.readDigits_eq hdigits]
    rw [if_neg]
    simp [hne, hall hsdigits, hall (allDigits_threeDigits b)]
  · have hexponent : (b : ℤ) - bias + 1 =
        (b : ℤ) - bias - (places.length - 1 : ℕ) + (places.length : ℕ) := by omega
    rw [scaled, ← hfraction, fraction, hexponent, zpow_add₀ (by norm_num) _ (places.length : ℤ),
      zpow_natCast]
    field_simp

lemma complement_complement {c : Char} (h : Decimal.isAsciiDigit c = true) :
    complement (complement c) = c := by
  have hc := Decimal.isAsciiDigit_iff.mp h
  have hcomp := complement_digit h
  have hagain : Decimal.isAsciiDigit (complement c) = true :=
    Decimal.isAsciiDigit_iff.mpr (by omega)
  apply Char.toNat_inj.mp
  rw [complement_digit hagain, hcomp]
  omega

lemma map_complement_terminated {l : List Char} (h : AllDigits l) :
    (terminated l).getLast? = some '~' ∧ (terminated l).dropLast.map complement = l := by
  rw [terminated, List.getLast?_concat, List.dropLast_concat, List.map_map]
  refine ⟨rfl, ?_⟩
  conv_rhs => rw [← List.map_id l]
  exact List.map_congr_left fun c hc => complement_complement (h c hc)

/-- An encoding is decoded to a decimal of the same sign and magnitude. -/
lemma decodeDecimal_chars {c b : ℕ} (h : IsSignificand b (significant c)) (negative : Bool) :
    ∃ c' e', decodeDecimal (String.ofList (encodeChars negative c b)) =
        .ok (.finite negative c' e') ∧ (c' * 10 ^ e' : ℚ) = scaled b (significant c) := by
  obtain ⟨c', e', hbody, hvalue⟩ :=
    decodeBody_body h (String.ofList (encodeChars negative c b)) negative
  refine ⟨c', e', ?_, hvalue⟩
  rw [← hbody, decodeDecimal, String.toList_ofList]
  cases negative with
  | true =>
      obtain ⟨hlast, hmap⟩ := map_complement_terminated (allDigits_body h)
      have hchars : encodeChars true c b = '1' :: terminated (body b (significant c)) := rfl
      simp only [hchars, hlast, hmap, if_true]
  | false => rfl

/-! ## Decimals -/

/-- **An encodable decimal is given back by its encoding**, up to its representation. -/
theorem decodeDecimal_encodeDecimal {d : Decimal} (h : IsEncodable d) :
    ∃ t d', encodeDecimal d = .ok t ∧ decodeDecimal t = .ok d' ∧ d'.isFinite = true ∧
      d'.value = d.value := by
  cases d with
  | finite negative c e =>
      by_cases hc : c = 0
      · subst hc
        exact ⟨"2", .finite false 0 0, rfl, rfl, rfl, by simp [Decimal.value]⟩
      · obtain ⟨b, hb, hscaled, hencode⟩ := encodeDecimal_chars h hc
        obtain ⟨c', e', hdecode, hvalue⟩ := decodeDecimal_chars hb negative
        refine ⟨_, _, hencode, hdecode, rfl, ?_⟩
        rw [Decimal.value, Decimal.value, hvalue, hscaled]
  | infinity _ => exact h.elim
  | nan _ _ _ => exact h.elim

/-- The other decimals are refused, and the refusal names the decimal. -/
lemma encodeDecimal_error {d : Decimal} (h : ¬IsEncodable d) :
    encodeDecimal d = .error (if d.isFinite then .exponentOutOfRange d else .notFinite d) := by
  cases d with
  | finite negative c e =>
      have hc : c ≠ 0 := fun h0 => h fun hne => absurd h0 hne
      have hrange : ¬(0 ≤ Decimal.adjusted c e + bias ∧ Decimal.adjusted c e + bias ≤ 999) := by
        intro hr
        refine h fun _ => ?_
        rw [bias] at hr
        omega
      rw [encodeDecimal, if_neg hc, if_neg hrange]
      rfl
  | infinity _ => rfl
  | nan _ _ _ => rfl

/-! ## Doubles -/

lemma encodeChars_ne_singleton {negative : Bool} {c b : ℕ} {d : Char} (hd : d ≠ '1' ∧ d ≠ '3') :
    String.ofList (encodeChars negative c b) ≠ String.ofList [d] := by
  intro h
  have hchars := String.ofList_inj.mp h
  cases negative with
  | true => exact hd.1 (List.head_eq_of_cons_eq hchars).symm
  | false => exact hd.2 (List.head_eq_of_cons_eq hchars).symm

/-- Only a zero is numerically zero. -/
lemma beq_zero_iff {x : Float} (h : x.isNaN = false) :
    (x == 0.0) = true ↔ ∃ negative, Binary64.ofFloat x = .zero negative := by
  rw [Binary64.beq_iff_value h (by decide)]
  change _ = (((0 : ℚ) : WithTop ℚ) : WithBot (WithTop ℚ)) ↔ _
  cases hx : Binary64.ofFloat x with
  | nan => exact absurd hx (Binary64.ofFloat_ne_nan h)
  | infinity negative =>
      refine iff_of_false ?_ (by simp)
      cases negative with
      | true => exact (bot_lt_number 0).ne
      | false => exact (number_lt_top 0).ne'
  | zero negative => exact iff_of_true rfl ⟨negative, rfl⟩
  | finite negative m e =>
      refine iff_of_false ?_ (by simp)
      have hpos := (ofFloat_canonical hx).value_pos
      rw [Binary64.value, WithBot.coe_inj, WithTop.coe_inj]
      cases negative <;> simp [hpos.ne']

/-- A finite double other than zero is given back by its encoding. -/
lemma decode_encode_finite {x : Float} {negative : Bool} {m : ℕ} {e : ℤ}
    (hx : Binary64.ofFloat x = .finite negative m e) :
    ∃ t, encodeDecimal (Binary64.exactDecimal negative m e) = .ok t ∧ decode t = .ok x := by
  have hcanonical := ofFloat_canonical hx
  obtain ⟨c, d, heq, hvalue⟩ := Binary64.exactDecimal_eq negative m e
  obtain ⟨hc, hlow, hhigh⟩ := Binary64.adjusted_exactDecimal hcanonical hvalue
  have hencodable : IsEncodable (.finite negative c d) := fun _ => by omega
  obtain ⟨b, hb, hscaled, hencode⟩ := encodeDecimal_chars hencodable hc
  obtain ⟨c', d', hdecode, hvalue'⟩ := decodeDecimal_chars hb negative
  have hbits : Decimal.magnitudeBits c' d' = Binary64.magnitude m e :=
    magnitudeBits_exact hcanonical (by rw [hvalue', hscaled, hvalue])
  refine ⟨_, heq ▸ hencode, ?_⟩
  rw [decode, if_neg (encodeChars_ne_singleton (d := '4') (by decide)),
    if_neg (encodeChars_ne_singleton (d := '0') (by decide)), hdecode]
  change Except.ok (floatOfBits negative (Decimal.magnitudeBits c' d')) = _
  rw [hbits, floatOfBits_magnitude hx]

/-- **A double is given back by its encoding**; of zero the sign is lost. -/
theorem decode_encode {x : Float} (h : x.isNaN = false) :
    ∃ t, encode x = .ok t ∧ decode t = .ok (if (x == 0.0) = true then 0.0 else x) := by
  have hzero := beq_zero_iff h
  rw [encode]
  cases hx : Binary64.ofFloat x with
  | nan => exact absurd hx (Binary64.ofFloat_ne_nan h)
  | infinity negative =>
      rw [if_neg (by rw [hzero, hx]; simp), ← floatOfBits_infinity hx]
      refine ⟨_, rfl, ?_⟩
      cases negative <;> rfl
  | zero negative =>
      rw [if_pos (hzero.mpr ⟨negative, hx⟩)]
      exact ⟨_, rfl, rfl⟩
  | finite negative m e =>
      rw [if_neg (by rw [hzero, hx]; simp)]
      exact decode_encode_finite hx

/-- A text that encodes a double also encodes the double that it is decoded to. -/
theorem encode_decode {x : Float} {t : String} (ht : encode x = .ok t) :
    ∃ y, decode t = .ok y ∧ encode y = .ok t := by
  cases hnan : x.isNaN with
  | true =>
      rw [encode_nan hnan] at ht
      exact absurd ht (by simp)
  | false =>
      obtain ⟨t', ht', hdecode⟩ := decode_encode hnan
      obtain rfl : t' = t := by
        rw [ht] at ht'
        exact (Except.ok.inj ht').symm
      refine ⟨_, hdecode, ?_⟩
      split_ifs with hzero
      · obtain ⟨negative, hx⟩ := (beq_zero_iff hnan).mp hzero
        rw [← ht, encode, encode, hx]
        rfl
      · exact ht

/-! ## Both codecs -/

lemma decodeBody_isFinite {text : String} {negative : Bool} {chars : List Char} {d : Decimal}
    (h : decodeBody text negative chars = .ok d) : d.isFinite = true := by
  rw [decodeBody] at h
  dsimp only at h
  split_ifs at h
  all_goals
    split at h
    · cases h
    · split at h
      · cases h
      · rw [← Except.ok.inj h]
        rfl

lemma decodeDecimal_isFinite {text : String} {d : Decimal} (h : decodeDecimal text = .ok d) :
    d.isFinite = true := by
  rw [decodeDecimal] at h
  split at h
  · rw [← Except.ok.inj h]
    rfl
  · split_ifs at h
    exact decodeBody_isFinite h
  · exact decodeBody_isFinite h
  · cases h

/-- No text decodes to NaN. -/
lemma isNaN_decode {text : String} {x : Float} (h : decode text = .ok x) : x.isNaN = false := by
  rw [decode] at h
  split_ifs at h
  · rw [← Except.ok.inj h]
    exact isNaN_floatOfBits le_rfl _
  · rw [← Except.ok.inj h]
    exact isNaN_floatOfBits le_rfl _
  · cases hdecimal : decodeDecimal text with
    | error e =>
        rw [hdecimal] at h
        cases h
    | ok d =>
        rw [hdecimal] at h
        rw [← Except.ok.inj h]
        have hfinite := decodeDecimal_isFinite hdecimal
        cases d with
        | finite negative c e => exact isNaN_floatOfBits (magnitudeBits_le c e) _
        | _ => cases hfinite

/-- **Nothing is lost in an encoding.**  Doubles come back numerically, zero always as positive
zero; the texts of doubles are reproduced by what they are decoded to; decimals come back
numerically, but for those without an encoding, which are refused. -/
theorem encode_lossless :
    (∀ x : Float, x.isNaN = false →
      ∃ t y, encode x = .ok t ∧ decode t = .ok y ∧ (y == x) = true ∧
        ((x == 0.0) = true → y = 0.0)) ∧
    (∀ (x : Float) (t : String), encode x = .ok t → ∃ y, decode t = .ok y ∧ encode y = .ok t) ∧
    (∀ d : Decimal,
      (encodeDecimal d = .error (.notFinite d) ∨ encodeDecimal d = .error (.exponentOutOfRange d)) ↔
        ¬IsEncodable d) ∧
    (∀ d : Decimal, IsEncodable d →
      ∃ t d', encodeDecimal d = .ok t ∧ decodeDecimal t = .ok d' ∧ d'.isFinite = true ∧
        d'.value = d.value) := by
  refine ⟨?_, fun x t => encode_decode, ?_, fun d => decodeDecimal_encodeDecimal⟩
  · intro x hx
    obtain ⟨t, ht, hdecode⟩ := decode_encode hx
    refine ⟨t, _, ht, hdecode, ?_, ?_⟩
    · split_ifs with hzero
      · rw [Binary64.beq_iff_value (by decide) hx]
        exact ((Binary64.beq_iff_value hx (by decide)).mp hzero).symm
      · exact (Binary64.beq_iff_value hx hx).mpr rfl
    · intro hzero
      rw [if_pos hzero]
  · intro d
    constructor
    · rintro (h | h) henc
      · obtain ⟨t, d', ht, -⟩ := decodeDecimal_encodeDecimal henc
        rw [ht] at h
        exact absurd h (by simp)
      · obtain ⟨t, d', ht, -⟩ := decodeDecimal_encodeDecimal henc
        rw [ht] at h
        exact absurd h (by simp)
    · intro h
      have herror := encodeDecimal_error h
      split_ifs at herror with hfinite
      · exact Or.inr herror
      · exact Or.inl herror

/-- Negative zero, and `1e499`. -/
theorem encode_lossless_limits :
    (∃ t y, encode (-0.0) = .ok t ∧ decode t = .ok y ∧ (y == -0.0) = true ∧
      (((-0.0 : Float) == 0.0) = true → y = 0.0)) ∧
    (∃ y, decode "2" = .ok y ∧ encode y = .ok "2") ∧
    (∃ t d', encodeDecimal (.finite false 1 499) = .ok t ∧ decodeDecimal t = .ok d' ∧
      d'.isFinite = true ∧ d'.value = (Decimal.finite false 1 499).value) :=
  ⟨encode_lossless.1 _ (by decide), encode_lossless.2.1 0.0 _ rfl,
    encode_lossless.2.2.2 _ fun _ => by decide⟩

end RankedTable.Score
