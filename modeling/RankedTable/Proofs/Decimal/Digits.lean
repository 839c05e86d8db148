import Mathlib.Data.Nat.Digits.Defs
import Mathlib.Data.Rat.Cast.Order
import Mathlib.Data.String.Basic
import Mathlib.Tactic.FieldSimp
import Mathlib.Tactic.Linarith
import Mathlib.Tactic.Positivity
import RankedTable.Decimal.Parser

/-!
# Digits as text and as number

A run of digits has two readings: as a whole number, which is what a decimal's coefficient is, and
as a fraction `0.ddd`, which is what decides its place in the order of texts.  Read as fractions,
digits compare as text does, from the left, and zeros at the end do not matter; without those
zeros the fraction tells the digits.

* `AllDigits`, `fraction` — runs of ASCII digits, and `0.ddd`.
* `digitsValue_natDigits` — the digits of a number stand for it.
* `NoTrailingZero` — what is left once the zeros at the end are dropped.
* **`lt_iff_fraction_lt`** — texts of digits compare as their fractions.
-/

namespace RankedTable.Decimal

/-! ## Digits and whole numbers -/

lemma isAsciiDigit_iff {c : Char} : isAsciiDigit c = true ↔ 48 ≤ c.toNat ∧ c.toNat ≤ 57 := by
  simp [isAsciiDigit]

/-- Whether a text consists of digits. -/
def AllDigits (l : List Char) : Prop :=
  ∀ c ∈ l, isAsciiDigit c = true

lemma AllDigits.append {l k : List Char} (hl : AllDigits l) (hk : AllDigits k) :
    AllDigits (l ++ k) := by
  intro c hc
  rcases List.mem_append.mp hc with h | h
  · exact hl c h
  · exact hk c h

lemma AllDigits.of_sublist {l k : List Char} (h : List.Sublist l k) (hk : AllDigits k) :
    AllDigits l :=
  fun c hc => hk c (h.subset hc)

lemma digitsValue_append (l k : List Char) :
    digitsValue (l ++ k) = digitsValue l * 10 ^ k.length + digitsValue k := by
  have h := @Nat.ofDigitChars_eq_ofDigitChars_zero k (digitsValue l)
  have happend := @Nat.ofDigitChars_append 10 l k 0
  change digitsValue (l ++ k) = Nat.ofDigitChars 10 k (digitsValue l) at happend
  rw [happend, h, Nat.mul_comm]
  rfl

lemma digitsValue_singleton (c : Char) : digitsValue [c] = c.toNat - 48 := by
  simp [digitsValue]

lemma digitsValue_cons (c : Char) (l : List Char) :
    digitsValue (c :: l) = (c.toNat - 48) * 10 ^ l.length + digitsValue l := by
  rw [← List.singleton_append, digitsValue_append, digitsValue_singleton]

lemma digitsValue_lt : ∀ {l : List Char}, AllDigits l → digitsValue l < 10 ^ l.length
  | [], _ => by decide
  | c :: l, h => by
      have hc := isAsciiDigit_iff.mp (h c (List.mem_cons_self ..))
      have hl := digitsValue_lt (l := l) fun d hd => h d (List.mem_cons_of_mem _ hd)
      have hle : (c.toNat - 48) * 10 ^ l.length ≤ 9 * 10 ^ l.length :=
        Nat.mul_le_mul_right _ (by omega)
      rw [digitsValue_cons, List.length_cons, Nat.pow_succ]
      omega

/-- Digits of ASCII are read as the number they stand for. -/
lemma readDigits_eq {l : List Char} (h : AllDigits l) : readDigits l = some (digitsValue l) := by
  have hfold : ∀ (k : List Char) (n : ℕ), AllDigits k →
      k.foldlM (fun n c => (Char.decimalValue? c).map (10 * n + ·)) n =
        some (k.foldl (fun n c => 10 * n + (c.toNat - 48)) n) := by
    intro k
    induction k with
    | nil => intro n _; rfl
    | cons c k ih =>
        intro n hk
        have hc := isAsciiDigit_iff.mp (hk c (List.mem_cons_self ..))
        rw [List.foldlM_cons, Char.decimalValue?_ascii hc.1 hc.2]
        exact ih _ fun d hd => hk d (List.mem_cons_of_mem _ hd)
  exact hfold l 0 h

lemma allDigits_natDigits (n : ℕ) : AllDigits (natDigits n) := by
  intro c hc
  have h := Nat.isDigit_of_mem_toDigits (by decide) (by decide) hc
  rw [Char.isDigit_iff_toNat] at h
  exact isAsciiDigit_iff.mpr h

/-- The digits of a number stand for it. -/
theorem digitsValue_natDigits (n : ℕ) : digitsValue (natDigits n) = n :=
  Nat.ofDigitChars_ten_toDigits

lemma length_natDigits_pos (n : ℕ) : 0 < (natDigits n).length :=
  Nat.length_toDigits_pos

/-- The leading digit of a number other than zero is not zero. -/
lemma pow_le_of_natDigits {n : ℕ} (h : n ≠ 0) : 10 ^ ((natDigits n).length - 1) ≤ n := by
  by_cases hone : (natDigits n).length = 1
  · rw [hone]
    omega
  · have hpos := length_natDigits_pos n
    have hle := @Nat.length_toDigits_le_iff 10 n ((natDigits n).length - 1) (by decide) (by omega)
    by_contra hlt
    have := hle.mpr (not_le.mp hlt)
    change (natDigits n).length ≤ _ at this
    omega

/-! ## Digits and fractions -/

/-- The fraction with these digits after the point. -/
def fraction (l : List Char) : ℚ :=
  digitsValue l / 10 ^ l.length

lemma fraction_nil : fraction [] = 0 := by
  simp [fraction, digitsValue]

lemma fraction_append (l k : List Char) :
    fraction (l ++ k) = fraction l + fraction k / 10 ^ l.length := by
  rw [fraction, fraction, fraction, digitsValue_append, List.length_append, pow_add]
  push_cast
  field_simp

lemma fraction_cons (c : Char) (l : List Char) :
    fraction (c :: l) = ((c.toNat - 48 : ℕ) + fraction l) / 10 := by
  rw [← List.singleton_append, fraction_append, fraction, digitsValue_singleton]
  simp only [List.length_singleton, pow_one]
  ring

lemma fraction_nonneg (l : List Char) : 0 ≤ fraction l := by
  rw [fraction]
  positivity

lemma fraction_lt_one {l : List Char} (h : AllDigits l) : fraction l < 1 := by
  rw [fraction, div_lt_one (by positivity)]
  exact_mod_cast digitsValue_lt h

/-- No zero stands at the end; the empty text counts as such. -/
def NoTrailingZero (l : List Char) : Prop :=
  l.getLast? ≠ some '0'

lemma NoTrailingZero.tail {c : Char} {l : List Char} (h : NoTrailingZero (c :: l)) :
    NoTrailingZero l := by
  cases l with
  | nil => simp [NoTrailingZero]
  | cons d l => rwa [NoTrailingZero, List.getLast?_cons_cons] at h

lemma fraction_pos {c : Char} {l : List Char} (hd : AllDigits (c :: l))
    (h : NoTrailingZero (c :: l)) : 0 < fraction (c :: l) := by
  induction l generalizing c with
  | nil =>
      have hc := isAsciiDigit_iff.mp (hd c (List.mem_cons_self ..))
      have hne : c.toNat ≠ 48 := by
        intro h0
        exact h (congrArg some (Char.toNat_inj.mp h0))
      have hpos : 0 < c.toNat - 48 := by omega
      rw [fraction_cons, fraction_nil]
      positivity
  | cons d l ih =>
      have htail := ih (fun e he => hd e (List.mem_cons_of_mem _ he)) h.tail
      rw [fraction_cons]
      positivity

lemma fraction_lt_of_lt {s t : List Char} (hs : AllDigits s) (ht : AllDigits t)
    (hzero : NoTrailingZero t) (h : s < t) : fraction s < fraction t := by
  induction h with
  | nil =>
      rw [fraction_nil]
      exact fraction_pos ht hzero
  | @rel c s d t hcd =>
      have hc := isAsciiDigit_iff.mp (hs c (List.mem_cons_self ..))
      have hfs := fraction_lt_one fun e he => hs e (List.mem_cons_of_mem c he)
      have hft := fraction_nonneg t
      have hstep : (c.toNat - 48) + 1 ≤ d.toNat - 48 := by
        have : c.toNat < d.toNat := hcd
        omega
      have hstepQ : ((c.toNat - 48 : ℕ) : ℚ) + 1 ≤ (d.toNat - 48 : ℕ) := by exact_mod_cast hstep
      rw [fraction_cons, fraction_cons]
      linarith
  | @cons c s t _ ih =>
      have hst := ih (fun e he => hs e (List.mem_cons_of_mem _ he))
        (fun e he => ht e (List.mem_cons_of_mem _ he)) hzero.tail
      rw [fraction_cons, fraction_cons]
      linarith

/-- **Texts of digits compare as the fractions they spell**, unless zeros at the end hide in them:
`1` is before `10` as text, but both spell `0.1`. -/
theorem lt_iff_fraction_lt {s t : List Char} (hs : AllDigits s) (ht : AllDigits t)
    (hszero : NoTrailingZero s) (htzero : NoTrailingZero t) :
    s < t ↔ fraction s < fraction t := by
  constructor
  · exact fraction_lt_of_lt hs ht htzero
  · intro h
    rcases lt_trichotomy s t with hlt | heq | hgt
    · exact hlt
    · rw [heq] at h
      exact absurd h (lt_irrefl _)
    · exact absurd h (fraction_lt_of_lt ht hs hszero hgt).not_gt

end RankedTable.Decimal
