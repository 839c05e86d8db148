import RankedTable.Proofs.Decimal.Value
import RankedTable.Proofs.Value.Order
import RankedTable.Value.Basic

/-!
# Whole numbers as values

A whole number is written as a sign and digits, without a power of ten.  Nothing of it is lost on
the way back, and in an index it stands where it stands among the whole numbers, however many digits
it has.

* `toList_toText_ofInt`, `toText_ofInt_injective` — the text of a whole number.
* `normalise?_signed`, `numeral?_digits` — such a text is read as it stands.
* **`parse?_ofInt`** — a whole number is read back, unless it has too many digits.
* `truncate_ofInt`, `value_ofInt` — it is its own whole part.
* `ofInt_inj`, **`hasMagnitude_ofInt`**, `sortText_ofInt` — whole numbers in an index.
* **`whole_lt_iff`**, `whole_eq_iff`, `whole_le_iff` — their texts compare as they do.
-/

namespace RankedTable

namespace Decimal

/-! ## The text of a whole number -/

/-- The digits of a whole number, behind its sign if it is negative. -/
lemma toList_toText_ofInt (n : ℤ) :
    (ofInt n).toText.toList =
      if n < 0 then '-' :: natDigits n.natAbs else natDigits n.natAbs := by
  have hlength := length_natDigits_pos n.natAbs
  have hplain : (0 : ℤ) ≤ 0 ∧ -6 ≤ adjusted n.natAbs 0 := by
    rw [adjusted]
    omega
  have hmagnitude : magnitudeText n.natAbs 0 = natDigits n.natAbs := by
    rw [magnitudeText, if_pos hplain]
    rfl
  rw [ofInt, toText, hmagnitude, String.toList_ofList]
  simp only [decide_eq_true_eq]

/-- Different whole numbers have different texts. -/
lemma toText_ofInt_injective {m n : ℤ} (h : (ofInt m).toText = (ofInt n).toText) : m = n := by
  have hdigits : ∀ {k l : ℕ}, natDigits k = natDigits l → k = l := by
    intro k l hkl
    rw [← digitsValue_natDigits k, hkl, digitsValue_natDigits]
  have hsign : ∀ {l : List Char} {k : ℕ}, '-' :: l ≠ natDigits k := by
    intro l k heq
    exact absurd (allDigits_natDigits k '-' (heq ▸ List.mem_cons_self ..)) (by decide)
  have hlists := congrArg String.toList h
  rw [toList_toText_ofInt, toList_toText_ofInt] at hlists
  split_ifs at hlists with hm hn hn
  · have := hdigits (List.cons.inj hlists).2
    omega
  · exact absurd hlists hsign
  · exact absurd hlists.symm hsign
  · have := hdigits hlists
    omega

/-! ## Reading it -/

/-- Whether a character is a digit or a minus sign. -/
def IsSigned (c : Char) : Prop :=
  isAsciiDigit c = true ∨ c = '-'

/-- Digits and signs are no blanks, and nothing else is written for them. -/
lemma IsSigned.plain {c : Char} (h : IsSigned c) :
    Char.isBlank c = false ∧ (c != '_') = true ∧ (asciiChar? c).map Char.toLower = some c := by
  have hplain : ∀ n, 48 ≤ n → n ≤ 57 → Char.isBlank (Char.ofNat n) = false ∧
      (Char.ofNat n != '_') = true ∧
      (asciiChar? (Char.ofNat n)).map Char.toLower = some (Char.ofNat n) := by
    decide
  rcases h with hdigit | rfl
  · obtain ⟨hlow, hhigh⟩ := isAsciiDigit_iff.mp hdigit
    simpa using hplain c.toNat hlow hhigh
  · decide

/-- A text without blanks at its ends is trimmed already. -/
lemma trim_eq_self {p : Char → Bool} {l : List Char} (h : ∀ c ∈ l, p c = false) :
    trim p l = l := by
  have hdrop : ∀ k : List Char, (∀ c ∈ k, p c = false) → k.dropWhile p = k := by
    intro k hk
    cases k with
    | nil => rfl
    | cons c k => exact List.dropWhile_cons_of_neg (by simp [hk c (List.mem_cons_self ..)])
  rw [trim, hdrop l h, hdrop l.reverse fun c hc => h c (List.mem_reverse.mp hc),
    List.reverse_reverse]

/-- A text of digits and signs is read as it stands. -/
lemma normalise?_signed {text : String} (h : ∀ c ∈ text.toList, IsSigned c) :
    normalise? text = some text.toList := by
  rw [normalise?, trim_eq_self fun c hc => (h c hc).plain.1,
    List.filter_eq_self.mpr fun c hc => (h c hc).plain.2.1]
  generalize text.toList = l at h ⊢
  induction l with
  | nil => rfl
  | cons c l ih =>
      rw [List.mapM_cons, (h c (List.mem_cons_self ..)).plain.2.2,
        ih fun d hd => h d (List.mem_cons_of_mem _ hd)]
      rfl

lemma splitSign_digits {l : List Char} (h : AllDigits l) : splitSign l = (false, l) := by
  rw [splitSign.eq_def]
  split
  · exact absurd (h '-' (List.mem_cons_self ..)) (by decide)
  · exact absurd (h '+' (List.mem_cons_self ..)) (by decide)
  · rfl

/-- Digits alone are a numeral, and no word. -/
lemma numeral?_digits {l : List Char} (h : AllDigits l) (hne : l ≠ []) (negative : Bool) :
    unsigned? negative l = some (finite negative (digitsValue l) 0) := by
  have htake : l.takeWhile isAsciiDigit = l := List.takeWhile_eq_self_iff.mpr h
  have hdrop : l.dropWhile isAsciiDigit = [] := List.dropWhile_eq_nil_iff.mpr h
  have hnumeral : numeral? negative l = some (finite negative (digitsValue l) 0) := by
    rw [numeral?, htake, hdrop]
    simp [hne, exponent?]
  rw [unsigned?.eq_def]
  split
  · exact absurd (h 'i' (List.mem_cons_self ..)) (by decide)
  · exact absurd (h 'i' (List.mem_cons_self ..)) (by decide)
  · exact absurd (h 'n' (List.mem_cons_self ..)) (by decide)
  · exact absurd (h 's' (List.mem_cons_self ..)) (by decide)
  · exact hnumeral

/-- **A whole number is read back from its text**, unless it has too many digits. -/
theorem parse?_ofInt (n : ℤ) :
    parse? (ofInt n).toText = if (ofInt n).isExact then some (ofInt n) else none := by
  have hdigits := allDigits_natDigits n.natAbs
  have hne : natDigits n.natAbs ≠ [] := List.ne_nil_of_length_pos (length_natDigits_pos _)
  have hsigned : ∀ c ∈ (ofInt n).toText.toList, IsSigned c := by
    intro c hc
    rw [toList_toText_ofInt] at hc
    split_ifs at hc
    · exact (List.mem_cons.mp hc).symm.imp_left (hdigits c)
    · exact .inl (hdigits c hc)
  have hsplit : splitSign (ofInt n).toText.toList = (decide (n < 0), natDigits n.natAbs) := by
    rw [toList_toText_ofInt]
    split_ifs with hneg
    · rw [splitSign, decide_eq_true hneg]
    · rw [splitSign_digits hdigits, decide_eq_false hneg]
  rw [parse?, normalise?_signed hsigned, Option.bind_eq_bind, Option.bind_some, hsplit]
  dsimp only
  rw [numeral?_digits hdigits hne, digitsValue_natDigits]
  rfl

/-! ## Its value -/

lemma truncate_ofInt (n : ℤ) : (ofInt n).truncate = .ok n := by
  have hwhole : wholePart n.natAbs 0 = n.natAbs := by
    rw [wholePart, if_neg (lt_irrefl 0)]
    split_ifs with hzero
    · exact hzero.symm
    · exact Nat.mul_one _
  rw [ofInt, truncate, hwhole]
  simp only [decide_eq_true_eq]
  split_ifs <;> exact congrArg Except.ok (by omega)

lemma value_ofInt (n : ℤ) : (ofInt n).value = n := by
  rw [ofInt, value, zpow_zero, mul_one]
  rcases lt_or_ge n 0 with hneg | hpos
  · obtain ⟨k, rfl⟩ : ∃ k : ℕ, n = -k := ⟨n.natAbs, by omega⟩
    rw [decide_eq_true hneg, Int.natAbs_neg, Int.natAbs_natCast]
    push_cast
    exact neg_one_mul _
  · obtain ⟨k, rfl⟩ : ∃ k : ℕ, n = k := ⟨n.natAbs, by omega⟩
    rw [decide_eq_false hpos.not_gt, Int.natAbs_natCast]
    push_cast
    exact one_mul _

/-- The leading digit of a word's number stands at the twentieth place at most. -/
lemma adjusted_word {n : ℤ} (h : n.natAbs < 2 ^ 64) :
    0 ≤ adjusted n.natAbs 0 ∧ adjusted n.natAbs 0 ≤ 19 := by
  have hpos := length_natDigits_pos n.natAbs
  have hle : (natDigits n.natAbs).length ≤ 20 :=
    (Nat.length_toDigits_le_iff (by decide) (by decide)).mpr (by omega)
  rw [adjusted]
  omega

lemma parse?_word {n : ℤ} (h : n.natAbs < 2 ^ 64) : parse? (ofInt n).toText = some (ofInt n) := by
  have hadjusted := adjusted_word h
  have hexact : (ofInt n).isExact = true := by
    rw [ofInt, isExact, Bool.and_eq_true, decide_eq_true_eq]
    refine ⟨by decide, ?_⟩
    split_ifs
    · decide
    · exact decide_eq_true (hadjusted.2.trans (by decide))
  rw [parse?_ofInt, if_pos hexact]

end Decimal

/-! ## Whole numbers in an index -/

/-- What is read from the text of a whole number is the number. -/
lemma Decimal.eq_ofInt_of_parse? {n : ℤ} {d : Decimal}
    (h : Decimal.parse? (Decimal.ofInt n).toText = some d) : d = Decimal.ofInt n := by
  rw [Decimal.parse?_ofInt] at h
  split_ifs at h
  exact (Option.some_inj.mp h).symm

lemma Value.ofInt_inj {m n : ℤ} : Value.ofInt m = Value.ofInt n ↔ m = n :=
  ⟨fun h => Decimal.toText_ofInt_injective (Value.number.inj h), congrArg Value.ofInt⟩

/-- A whole number in an index stands for itself. -/
lemma Value.hasMagnitude_ofInt {n : ℤ} {m : Magnitude} (h : (Value.ofInt n).HasMagnitude m) :
    m = .number n ∧ Decimal.parse? (Decimal.ofInt n).toText = some (Decimal.ofInt n) := by
  cases h with
  | number hdigits hd =>
      obtain rfl := Decimal.eq_ofInt_of_parse? hdigits
      exact ⟨congrArg Magnitude.number (Decimal.value_ofInt n), hdigits⟩

/-- Numbers that fit a word have a place in an index. -/
theorem Value.sortText_ofInt {n : ℤ} (h : n.natAbs < 2 ^ 64) :
    ∃ text, (Value.ofInt n).sortText = .ok text ∧ (Magnitude.number n).Spelled text := by
  have hadjusted := Decimal.adjusted_word h
  have hencodable : Score.IsEncodable (Decimal.ofInt n) := fun _ => by omega
  have hmagnitude := Value.HasMagnitude.number (Decimal.parse?_word h) hencodable
  rw [Decimal.value_ofInt] at hmagnitude
  exact sortText_of_hasMagnitude hmagnitude

namespace Magnitude.Spelled

variable {m n : ℤ} {s t : String} (hm : (number m).Spelled s) (hn : (number n).Spelled t)

include hm hn

/-- **The texts of whole numbers compare as the numbers do.** -/
theorem whole_lt_iff : s < t ↔ m < n :=
  (hm.lt_iff hn rfl).trans Int.cast_lt

lemma whole_eq_iff : s = t ↔ m = n := by
  rw [hm.eq_iff hn rfl, number.injEq, Int.cast_inj]

lemma whole_le_iff : s ≤ t ↔ m ≤ n := by
  rw [le_iff_lt_or_eq, le_iff_lt_or_eq, whole_lt_iff hm hn, whole_eq_iff hm hn]

end Magnitude.Spelled

end RankedTable
