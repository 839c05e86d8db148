import RankedTable.Proofs.Score.Significand

/-!
# Encoded scores sort as numbers

The first character of an encoding is its class: negative infinity, negative, zero, positive,
infinity.  Between classes it decides; within a class the digits do, complemented for negative
numbers, so that the larger magnitude comes first.

* `Codes` — which text a number has; `encode_codes`, `encodeDecimal_codes` — encodings are such.
* **`Codes.lt_iff`**, `Codes.eq_iff` — texts compare as the numbers do.
* `Codes.utf8_lt_iff` — and so do the bytes of the texts.
* `encode_lt_iff`, `encode_le_iff`, `encode_eq_iff` — the same for the encodings of doubles.
* **`encode_order_embedding`** — both codecs are total on their domains and embed the order.
-/

namespace RankedTable.Score

open Decimal (AllDigits NoTrailingZero fraction digitsValue)

/-! ## The text of a number -/

/-- Which text a number has. -/
inductive Codes : WithBot (WithTop ℚ) → List Char → Prop
  | bottom : Codes ⊥ ['0']
  | negative {b : ℕ} {s : List Char} (h : IsSignificand b s) :
      Codes ((-scaled b s : ℚ) : WithTop ℚ) ('1' :: terminated (body b s))
  | zero : Codes ((0 : ℚ) : WithTop ℚ) ['2']
  | positive {b : ℕ} {s : List Char} (h : IsSignificand b s) :
      Codes ((scaled b s : ℚ) : WithTop ℚ) ('3' :: body b s)
  | top : Codes (⊤ : WithTop ℚ) ['4']

lemma cons_lt_cons_self (c : Char) (s t : List Char) : c :: s < c :: t ↔ s < t := by
  rw [List.cons_lt_cons_iff]
  exact ⟨fun h => (h.resolve_left (lt_irrefl c)).2, fun h => Or.inr ⟨rfl, h⟩⟩

lemma bot_lt_number (q : ℚ) : (⊥ : WithBot (WithTop ℚ)) < (q : WithTop ℚ) :=
  WithBot.bot_lt_coe _

lemma number_lt_top (q : ℚ) : ((q : WithTop ℚ) : WithBot (WithTop ℚ)) < (⊤ : WithTop ℚ) :=
  WithBot.coe_lt_coe.mpr (WithTop.coe_lt_top q)

lemma number_lt_number (p q : ℚ) :
    ((p : WithTop ℚ) : WithBot (WithTop ℚ)) < (q : WithTop ℚ) ↔ p < q := by
  rw [WithBot.coe_lt_coe, WithTop.coe_lt_coe]

lemma lt_iff_of_class {c d : Char} {s t : List Char} {v w : WithBot (WithTop ℚ)} (hcd : c < d)
    (hvw : v < w) : c :: s < d :: t ↔ v < w :=
  iff_of_true (List.Lex.rel hcd) hvw

lemma lt_iff_of_class' {c d : Char} {s t : List Char} {v w : WithBot (WithTop ℚ)} (hcd : d < c)
    (hvw : w < v) : c :: s < d :: t ↔ v < w :=
  iff_of_false (lt_asymm (List.Lex.rel hcd)) hvw.not_gt

/-- **Texts compare as the numbers they stand for**: by the class, and within a class by the
digits. -/
theorem Codes.lt_iff {v w : WithBot (WithTop ℚ)} {s t : List Char} (hv : Codes v s)
    (hw : Codes w t) : s < t ↔ v < w := by
  cases hv with
  | bottom =>
      cases hw with
      | bottom => exact iff_of_false (lt_irrefl _) (lt_irrefl _)
      | top => exact lt_iff_of_class (by decide) (WithBot.bot_lt_coe _)
      | _ => exact lt_iff_of_class (by decide) (bot_lt_number _)
  | negative hb =>
      have hpos := hb.scaled_pos
      cases hw with
      | bottom => exact lt_iff_of_class' (by decide) (bot_lt_number _)
      | negative hc =>
          rw [cons_lt_cons_self, complement_lt_iff (allDigits_body hb) (allDigits_body hc),
            number_lt_number, neg_lt_neg_iff]
          exact (scaled_lt_iff hc hb).symm
      | zero => exact lt_iff_of_class (by decide) ((number_lt_number _ _).mpr (by linarith))
      | positive hc =>
          have hpos' := hc.scaled_pos
          exact lt_iff_of_class (by decide) ((number_lt_number _ _).mpr (by linarith))
      | top => exact lt_iff_of_class (by decide) (number_lt_top _)
  | zero =>
      cases hw with
      | bottom => exact lt_iff_of_class' (by decide) (bot_lt_number _)
      | negative hc =>
          have hpos := hc.scaled_pos
          exact lt_iff_of_class' (by decide) ((number_lt_number _ _).mpr (by linarith))
      | zero => exact iff_of_false (lt_irrefl _) (lt_irrefl _)
      | positive hc =>
          exact lt_iff_of_class (by decide) ((number_lt_number _ _).mpr hc.scaled_pos)
      | top => exact lt_iff_of_class (by decide) (number_lt_top _)
  | positive hb =>
      have hpos := hb.scaled_pos
      cases hw with
      | bottom => exact lt_iff_of_class' (by decide) (bot_lt_number _)
      | negative hc =>
          have hpos' := hc.scaled_pos
          exact lt_iff_of_class' (by decide) ((number_lt_number _ _).mpr (by linarith))
      | zero => exact lt_iff_of_class' (by decide) ((number_lt_number _ _).mpr hpos)
      | positive hc =>
          rw [cons_lt_cons_self, number_lt_number]
          exact (scaled_lt_iff hb hc).symm
      | top => exact lt_iff_of_class (by decide) (number_lt_top _)
  | top =>
      cases hw with
      | bottom => exact lt_iff_of_class' (by decide) (WithBot.bot_lt_coe _)
      | top => exact iff_of_false (lt_irrefl _) (lt_irrefl _)
      | _ => exact lt_iff_of_class' (by decide) (number_lt_top _)

/-- Equal numbers have equal texts, and only they do. -/
theorem Codes.eq_iff {v w : WithBot (WithTop ℚ)} {s t : List Char} (hv : Codes v s)
    (hw : Codes w t) : s = t ↔ v = w := by
  have hlt := hv.lt_iff hw
  have hgt := hw.lt_iff hv
  rcases lt_trichotomy s t with h | h | h
  · exact iff_of_false h.ne (hlt.mp h).ne
  · rcases lt_trichotomy v w with h1 | h1 | h1
    · exact absurd (hlt.mpr h1) (by rw [h]; exact lt_irrefl _)
    · exact iff_of_true h h1
    · exact absurd (hgt.mpr h1) (by rw [h]; exact lt_irrefl _)
  · exact iff_of_false h.ne' (hgt.mp h).ne'

/-! ## Bytes -/

/-- The bytes of a text. -/
def utf8 (text : String) : List UInt8 :=
  text.toUTF8.data.toList

lemma Codes.ascii {v : WithBot (WithTop ℚ)} {s : List Char} (h : Codes v s) :
    ∀ c ∈ s, c.toNat < 128 := by
  have hdigits : ∀ {b : ℕ} {s : List Char}, IsSignificand b s → ∀ c ∈ body b s, c.toNat < 128 := by
    intro b s hb c hc
    have := Decimal.isAsciiDigit_iff.mp (allDigits_body hb c hc)
    omega
  cases h with
  | negative hb =>
      intro c hc
      rcases List.mem_cons.mp hc with rfl | hc
      · decide
      rcases List.mem_append.mp hc with hc | hc
      · obtain ⟨d, hd, rfl⟩ := List.mem_map.mp hc
        have := complement_digit (allDigits_body hb d hd)
        omega
      · rw [List.mem_singleton.mp hc]
        decide
  | positive hb =>
      intro c hc
      rcases List.mem_cons.mp hc with rfl | hc
      · decide
      · exact hdigits hb c hc
  | _ =>
      intro c hc
      rw [List.mem_singleton.mp hc]
      decide

lemma utf8_of_ascii {text : String} (h : ∀ c ∈ text.toList, c.toNat < 128) :
    utf8 text = text.toList.map fun c => UInt8.ofNat c.toNat := by
  rw [utf8, String.toUTF8_eq_toByteArray, ← String.utf8Encode_toList, List.utf8Encode,
    List.toList_data_toByteArray, List.map_eq_flatMap]
  refine List.flatMap_congr fun c hc => ?_
  have hle : c.val.toNat ≤ 127 := Nat.lt_succ_iff.mp (h c hc)
  rw [String.utf8EncodeChar, if_pos hle]
  rfl

lemma map_lt_map {s t : List Char} (hs : ∀ c ∈ s, c.toNat < 128) (ht : ∀ c ∈ t, c.toNat < 128)
    (h : s < t) :
    s.map (fun c => UInt8.ofNat c.toNat) < t.map fun c => UInt8.ofNat c.toNat := by
  induction h with
  | nil => exact List.Lex.nil
  | @rel c s d t hcd =>
      have hc := hs c (List.mem_cons_self ..)
      have hd := ht d (List.mem_cons_self ..)
      refine List.Lex.rel ?_
      rw [UInt8.lt_iff_toNat_lt, UInt8.toNat_ofNat', UInt8.toNat_ofNat',
        Nat.mod_eq_of_lt (by omega), Nat.mod_eq_of_lt (by omega)]
      exact hcd
  | cons _ ih =>
      exact List.Lex.cons (ih (fun e he => hs e (List.mem_cons_of_mem _ he))
        (fun e he => ht e (List.mem_cons_of_mem _ he)))

theorem Codes.utf8_lt_iff {v w : WithBot (WithTop ℚ)} {s t : String} (hv : Codes v s.toList)
    (hw : Codes w t.toList) : utf8 s < utf8 t ↔ v < w := by
  have hs := hv.ascii
  have ht := hw.ascii
  rw [← hv.lt_iff hw, utf8_of_ascii hs, utf8_of_ascii ht]
  constructor
  · intro h
    rcases lt_trichotomy s.toList t.toList with hlt | heq | hgt
    · exact hlt
    · rw [heq] at h
      exact absurd h (List.lt_irrefl _)
    · exact absurd (map_lt_map ht hs hgt) (List.lt_asymm h)
  · exact map_lt_map hs ht

/-! ## Encodings -/

lemma isSignificand_significant {c : ℕ} (hc : c ≠ 0) {b : ℕ} (hb : b < 1000) :
    IsSignificand b (significant c) where
  biased_lt := hb
  allDigits := allDigits_significant c
  noTrailingZero := noTrailingZero_significant c
  lead := by
    rw [fraction_significant]
    exact Decimal.one_tenth_le_fraction hc

/-- Which decimals have an encoding: zero, and those whose leading digit's exponent fits three
digits once shifted. -/
def IsEncodable : Decimal → Prop
  | .finite _ c e => c ≠ 0 → -500 ≤ Decimal.adjusted c e ∧ Decimal.adjusted c e ≤ 499
  | _ => False

/-- The encoding of a decimal other than zero: its exponent, shifted, and its significant digits
tell its magnitude. -/
lemma encodeDecimal_chars {negative : Bool} {c : ℕ} {e : ℤ} (h : IsEncodable (.finite negative c e))
    (hc : c ≠ 0) :
    ∃ b, IsSignificand b (significant c) ∧ scaled b (significant c) = c * 10 ^ e ∧
      encodeDecimal (.finite negative c e) = .ok (String.ofList (encodeChars negative c b)) := by
  have hrange := h hc
  have hbiased : 0 ≤ Decimal.adjusted c e + bias ∧ Decimal.adjusted c e + bias ≤ 999 := by
    rw [bias]
    omega
  refine ⟨(Decimal.adjusted c e + bias).toNat, isSignificand_significant hc (by omega), ?_, ?_⟩
  · rw [scaled, fraction_significant, Decimal.fraction_natDigits, Int.toNat_of_nonneg hbiased.1,
      add_sub_cancel_right]
  · rw [encodeDecimal, if_neg hc, if_pos hbiased]

/-- **Encodable decimals are encoded**, by the text of their value. -/
theorem encodeDecimal_codes {d : Decimal} (h : IsEncodable d) :
    ∃ t, encodeDecimal d = .ok t ∧ Codes ((d.value : ℚ) : WithTop ℚ) t.toList := by
  cases d with
  | finite negative c e =>
      by_cases hc : c = 0
      · refine ⟨"2", by simp [encodeDecimal, hc], ?_⟩
        have hvalue : (Decimal.finite negative c e).value = 0 := by simp [Decimal.value, hc]
        rw [hvalue]
        exact Codes.zero
      · obtain ⟨b, hb, hscaled, hencode⟩ := encodeDecimal_chars h hc
        refine ⟨_, hencode, ?_⟩
        rw [String.toList_ofList, encodeChars, Decimal.value, ← hscaled]
        cases negative with
        | true =>
          rw [if_pos rfl, if_pos rfl, neg_one_mul]
          exact Codes.negative hb
        | false =>
          rw [if_neg (by decide), if_neg (by decide), one_mul]
          exact Codes.positive hb
  | infinity _ => exact h.elim
  | nan _ _ _ => exact h.elim

/-- **Every double but NaN is encoded**, by the text of its value. -/
theorem encode_codes {x : Float} (h : x.isNaN = false) :
    ∃ t, encode x = .ok t ∧ Codes (Binary64.ofFloat x).value t.toList := by
  rw [encode]
  cases hx : Binary64.ofFloat x with
  | nan => exact absurd hx (Binary64.ofFloat_ne_nan h)
  | infinity negative =>
      refine ⟨_, rfl, ?_⟩
      cases negative with
      | true => exact Codes.bottom
      | false => exact Codes.top
  | zero _ => exact ⟨_, rfl, Codes.zero⟩
  | finite negative m e =>
      obtain ⟨c, d, heq, hvalue⟩ := Binary64.exactDecimal_eq negative m e
      have hadjusted := Binary64.adjusted_exactDecimal (ofFloat_canonical hx) hvalue
      change ∃ t, encodeDecimal (Binary64.exactDecimal negative m e) = .ok t ∧ _
      rw [Binary64.exactDecimal_value, heq]
      have hencodable : IsEncodable (.finite negative c d) := fun _ => by omega
      exact encodeDecimal_codes hencodable

lemma encode_nan {x : Float} (h : x.isNaN = true) : encode x = .error .notANumber := by
  rw [encode, Binary64.ofFloat_nan h]

/-- What has an encoding is a number, and the encoding is its text. -/
lemma codes_of_encode {x : Float} {t : String} (h : encode x = .ok t) :
    x.isNaN = false ∧ Codes (Binary64.ofFloat x).value t.toList := by
  cases hnan : x.isNaN with
  | true =>
      rw [encode_nan hnan] at h
      simp at h
  | false =>
      obtain ⟨t', ht', hcodes⟩ := encode_codes hnan
      rw [h] at ht'
      obtain rfl := Except.ok.inj ht'
      exact ⟨rfl, hcodes⟩

section Compare

variable {x y : Float} {s t : String} (hx : encode x = .ok s) (hy : encode y = .ok t)

include hx hy

/-- Encodings compare as the doubles do. -/
lemma encode_lt_iff : s < t ↔ x < y := by
  obtain ⟨hxnan, hxcodes⟩ := codes_of_encode hx
  obtain ⟨hynan, hycodes⟩ := codes_of_encode hy
  rw [String.lt_iff_toList_lt, hxcodes.lt_iff hycodes, Binary64.lt_iff_value hxnan hynan]

lemma encode_le_iff : s ≤ t ↔ x ≤ y := by
  obtain ⟨hxnan, hxcodes⟩ := codes_of_encode hx
  obtain ⟨hynan, hycodes⟩ := codes_of_encode hy
  rw [← not_lt, encode_lt_iff hy hx, Binary64.lt_iff_value hynan hxnan,
    Binary64.le_iff_value hxnan hynan, not_lt]

/-- Doubles have one encoding just if they are numerically equal. -/
lemma encode_eq_iff : s = t ↔ (x == y) = true := by
  obtain ⟨hxnan, hxcodes⟩ := codes_of_encode hx
  obtain ⟨hynan, hycodes⟩ := codes_of_encode hy
  rw [← String.toList_inj, hxcodes.eq_iff hycodes, Binary64.beq_iff_value hxnan hynan]

lemma encode_utf8_lt_iff : utf8 s < utf8 t ↔ x < y := by
  obtain ⟨hxnan, hxcodes⟩ := codes_of_encode hx
  obtain ⟨hynan, hycodes⟩ := codes_of_encode hy
  rw [hxcodes.utf8_lt_iff hycodes, Binary64.lt_iff_value hxnan hynan]

end Compare

/-! ## The embedding -/

/-- **Encodings are order embeddings**: of two doubles, and of two decimals in range, the texts
exist and compare, character by character and byte by byte, as the numbers do. -/
theorem encode_order_embedding :
    (∀ x y : Float, x.isNaN = false → y.isNaN = false →
      ∃ s t, encode x = .ok s ∧ encode y = .ok t ∧ (s < t ↔ x < y) ∧ (utf8 s < utf8 t ↔ x < y) ∧
        (s = t ↔ (x == y) = true)) ∧
    (∀ x y : Decimal, IsEncodable x → IsEncodable y →
      ∃ s t, encodeDecimal x = .ok s ∧ encodeDecimal y = .ok t ∧ (s < t ↔ x.value < y.value) ∧
        (utf8 s < utf8 t ↔ x.value < y.value) ∧ (s = t ↔ x.value = y.value)) := by
  constructor
  · intro x y hx hy
    obtain ⟨s, hs, -⟩ := encode_codes hx
    obtain ⟨t, ht, -⟩ := encode_codes hy
    exact ⟨s, t, hs, ht, encode_lt_iff hs ht, encode_utf8_lt_iff hs ht, encode_eq_iff hs ht⟩
  · intro x y hx hy
    obtain ⟨s, hs, hsc⟩ := encodeDecimal_codes hx
    obtain ⟨t, ht, htc⟩ := encodeDecimal_codes hy
    refine ⟨s, t, hs, ht, ?_, ?_, ?_⟩
    · rw [String.lt_iff_toList_lt, hsc.lt_iff htc, number_lt_number]
    · rw [hsc.utf8_lt_iff htc, number_lt_number]
    · rw [← String.toList_inj, hsc.eq_iff htc, WithBot.coe_inj, WithTop.coe_inj]

/-- Minus infinity before the least double, and `0.5` equal to `0.50`. -/
theorem encode_order_embedding_extremes :
    (∃ s t, encode (Float.ofBits 0xfff0000000000000) = .ok s ∧
      encode (Float.ofBits 0xffefffffffffffff) = .ok t ∧
      (s < t ↔ Float.ofBits 0xfff0000000000000 < Float.ofBits 0xffefffffffffffff) ∧
      (utf8 s < utf8 t ↔ Float.ofBits 0xfff0000000000000 < Float.ofBits 0xffefffffffffffff) ∧
      (s = t ↔ (Float.ofBits 0xfff0000000000000 == Float.ofBits 0xffefffffffffffff) = true)) ∧
    (∃ s t, encodeDecimal (.finite false 5 (-1)) = .ok s ∧
      encodeDecimal (.finite false 50 (-2)) = .ok t ∧
      (s < t ↔ (Decimal.finite false 5 (-1)).value < (Decimal.finite false 50 (-2)).value) ∧
      (utf8 s < utf8 t ↔
        (Decimal.finite false 5 (-1)).value < (Decimal.finite false 50 (-2)).value) ∧
      (s = t ↔ (Decimal.finite false 5 (-1)).value = (Decimal.finite false 50 (-2)).value)) :=
  ⟨encode_order_embedding.1 _ _ (by decide) (by decide),
    encode_order_embedding.2 _ _ (fun _ => by decide) (fun _ => by decide)⟩

end RankedTable.Score
