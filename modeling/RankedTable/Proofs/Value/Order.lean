import RankedTable.Proofs.Except
import RankedTable.Proofs.Score.RoundTrip
import RankedTable.Table.Basic

/-!
# Values of one kind sort as what they stand for

An index knows the texts of values only.  These sort as the values do: texts by their characters,
numbers as numbers whatever digits they were written with, and byte strings byte by byte.

* `hexBytes_lt_iff` — two digits per byte keep the order of byte strings.
* `Magnitude`, `Value.HasMagnitude` — what a value is compared by; sets, maps and nulls have none.
* `Magnitude.Below`, `Magnitude.AtMost` — the order within a kind.
* `sortText_of_hasMagnitude`, `hasMagnitude_of_sortText` — which values have a sort text.
* **`Magnitude.Spelled.lt_iff`**, `Magnitude.Spelled.eq_iff` — sort texts compare as magnitudes do.
-/

namespace RankedTable

/-! ## Byte strings in hexadecimal -/

lemma hexDigit_lt_iff : ∀ m < 16, ∀ n < 16, (hexDigit m < hexDigit n ↔ m < n) := by decide

lemma hexDigit_eq_iff : ∀ m < 16, ∀ n < 16, (hexDigit m = hexDigit n ↔ m = n) := by decide

/-- A byte becomes two digits, the high one first. -/
lemma toList_hexBytes_cons (b : UInt8) (bytes : Bytes) :
    (hexBytes (b :: bytes)).toList =
      hexDigit (b.toNat / 16) :: hexDigit (b.toNat % 16) :: (hexBytes bytes).toList := by
  have hhigh : b.toNat / 16 % 16 = b.toNat / 16 := Nat.mod_eq_of_lt (by
    have := b.toNat_lt
    omega)
  have hpair : hexPadded 2 b.toNat = [hexDigit (b.toNat / 16), hexDigit (b.toNat % 16)] := by
    change [hexDigit (b.toNat / 16 % 16), hexDigit (b.toNat / 1 % 16)] = _
    rw [hhigh, Nat.div_one]
  rw [hexBytes, String.toList_ofList, List.flatMap_cons, hpair, hexBytes, String.toList_ofList]
  rfl

/-- **Two digits per byte keep the order of byte strings.** -/
theorem hexBytes_lt_iff (a b : Bytes) : hexBytes a < hexBytes b ↔ a < b := by
  rw [String.lt_iff_toList_lt]
  induction a generalizing b with
  | nil =>
      cases b with
      | nil => exact iff_of_false (lt_irrefl _) (List.not_lt_nil _)
      | cons y ys =>
          rw [toList_hexBytes_cons]
          exact iff_of_true (List.nil_lt_cons _ _) (List.nil_lt_cons _ _)
  | cons x xs ih =>
      cases b with
      | nil => exact iff_of_false (List.not_lt_nil _) (List.not_lt_nil _)
      | cons y ys =>
          have hx := x.toNat_lt
          have hy := y.toNat_lt
          rw [toList_hexBytes_cons, toList_hexBytes_cons, List.cons_lt_cons_iff,
            List.cons_lt_cons_iff, List.cons_lt_cons_iff, ih,
            hexDigit_lt_iff _ (by omega) _ (by omega), hexDigit_eq_iff _ (by omega) _ (by omega),
            hexDigit_lt_iff _ (by omega) _ (by omega), hexDigit_eq_iff _ (by omega) _ (by omega),
            UInt8.lt_iff_toNat_lt, ← UInt8.toNat_inj]
          by_cases hrest : xs < ys <;> simp only [hrest, and_true, and_false, or_false] <;> omega

lemma hexBytes_eq_iff (a b : Bytes) : hexBytes a = hexBytes b ↔ a = b := by
  constructor
  · intro h
    have hab : ¬a < b := fun hlt => lt_irrefl _ (h ▸ (hexBytes_lt_iff a b).mpr hlt)
    have hba : ¬b < a := fun hlt => lt_irrefl _ (h ▸ (hexBytes_lt_iff b a).mpr hlt)
    by_contra hne
    exact hba (AscendingOrder.connected hab hne)
  · exact congrArg hexBytes

/-! ## Magnitudes -/

/-- What values are compared by. -/
inductive Magnitude where
  | text (s : String)
  | number (q : ℚ)
  | binary (bytes : Bytes)

/-- What a value is compared by: a text and a byte string by itself, a number by what it stands for,
if it has a score encoding. -/
inductive Value.HasMagnitude : Value → Magnitude → Prop
  | text (s : String) : HasMagnitude (.text s) (.text s)
  | number {digits : String} {d : Decimal} (hdigits : Decimal.parse? digits = some d)
      (hd : Score.IsEncodable d) : HasMagnitude (.number digits) (.number d.value)
  | binary (bytes : Bytes) : HasMagnitude (.binary bytes) (.binary bytes)

namespace Magnitude

/-- The kind of the values with a magnitude. -/
def kind : Magnitude → Value.Kind
  | text _ => .text
  | number _ => .number
  | binary _ => .binary

/-- Whether a magnitude is smaller than another of its kind. -/
def Below : Magnitude → Magnitude → Prop
  | text s, text t => s < t
  | number p, number q => p < q
  | binary a, binary b => a < b
  | _, _ => False

/-- Whether a magnitude is no larger than another of its kind. -/
def AtMost (m n : Magnitude) : Prop :=
  m.Below n ∨ m = n

/-- The text by which values of a magnitude sort. -/
def Spelled : Magnitude → String → Prop
  | text s, t => t = s
  | number q, t => Score.Codes ((q : ℚ) : WithTop ℚ) t.toList
  | binary bytes, t => t = hexBytes bytes

namespace Spelled

variable {m n : Magnitude} {s t : String}

/-- **The texts of one kind compare as the magnitudes do.** -/
theorem lt_iff (hm : m.Spelled s) (hn : n.Spelled t) (hkind : m.kind = n.kind) :
    s < t ↔ m.Below n := by
  cases m with
  | text a =>
      cases n with
      | text b => rw [hm, hn, Below]
      | _ => cases hkind
  | number p =>
      cases n with
      | number q => rw [String.lt_iff_toList_lt, Score.Codes.lt_iff hm hn, Score.number_lt_number,
          Below]
      | _ => cases hkind
  | binary a =>
      cases n with
      | binary b => rw [hm, hn, hexBytes_lt_iff, Below]
      | _ => cases hkind

lemma eq_iff (hm : m.Spelled s) (hn : n.Spelled t) (hkind : m.kind = n.kind) : s = t ↔ m = n := by
  cases m with
  | text a =>
      cases n with
      | text b => rw [hm, hn, text.injEq]
      | _ => cases hkind
  | number p =>
      cases n with
      | number q => rw [← String.toList_inj, Score.Codes.eq_iff hm hn, WithBot.coe_inj,
          WithTop.coe_inj, number.injEq]
      | _ => cases hkind
  | binary a =>
      cases n with
      | binary b => rw [hm, hn, hexBytes_eq_iff, binary.injEq]
      | _ => cases hkind

lemma le_iff (hm : m.Spelled s) (hn : n.Spelled t) (hkind : m.kind = n.kind) :
    s ≤ t ↔ m.AtMost n := by
  rw [le_iff_lt_or_eq, lt_iff hm hn hkind, eq_iff hm hn hkind, AtMost]

end Spelled

end Magnitude

/-! ## Sort texts -/

variable {v : Value} {m : Magnitude} {text : String}

lemma Value.HasMagnitude.kind_eq (h : v.HasMagnitude m) : m.kind = v.kind := by
  cases h <;> rfl

lemma Value.HasMagnitude.unique {n : Magnitude} (hm : v.HasMagnitude m) (hn : v.HasMagnitude n) :
    m = n := by
  cases hm with
  | number hdigits hd =>
      cases hn with
      | number hdigits' hd' => rw [Option.some_inj.mp (hdigits.symm.trans hdigits')]
  | _ =>
      cases hn
      rfl

/-- A value with a magnitude sorts by its text. -/
lemma sortText_of_hasMagnitude (h : v.HasMagnitude m) :
    ∃ text, v.sortText = .ok text ∧ m.Spelled text := by
  cases h with
  | text s => exact ⟨s, rfl, rfl⟩
  | number hdigits hd =>
      obtain ⟨t, ht, hcodes⟩ := Score.encodeDecimal_codes hd
      refine ⟨t, ?_, hcodes⟩
      rw [Value.sortText, hdigits]
      dsimp only
      rw [ht]
      rfl
  | binary bytes => exact ⟨hexBytes bytes, rfl, rfl⟩

/-- No other value has a sort text. -/
lemma hasMagnitude_of_sortText (h : v.sortText = .ok text) :
    ∃ m, v.HasMagnitude m ∧ m.Spelled text := by
  have hmagnitude : ∃ m, v.HasMagnitude m := by
    cases v with
    | text s => exact ⟨_, .text s⟩
    | number digits =>
        rw [Value.sortText] at h
        cases hdigits : Decimal.parse? digits with
        | none =>
            rw [hdigits] at h
            cases h
        | some d =>
            refine ⟨_, .number hdigits ?_⟩
            by_contra hd
            rw [hdigits] at h
            dsimp only at h
            rw [Score.encodeDecimal_error hd] at h
            cases h
    | binary bytes => exact ⟨_, .binary bytes⟩
    | _ => cases h
  obtain ⟨m, hm⟩ := hmagnitude
  obtain ⟨t, ht, hspelled⟩ := sortText_of_hasMagnitude hm
  obtain rfl : t = text := Except.ok.inj (ht.symm.trans h)
  exact ⟨m, hm, hspelled⟩

end RankedTable
