import Mathlib.Logic.Basic
import Mathlib.Tactic.SplitIfs
import RankedTable.Proofs.Except
import RankedTable.Table.Condition

/-!
# Conditions that raise an error

A condition on a missing value, or on a value of another kind than its operand's, simply does not
hold.  Other comparisons need the sort texts of the value and of all operands, in this order.

* `Value.Unsorted` — the values without a sort text.
* `Condition.Raises` — the conditions that cannot be answered for a value.
* **`sortText_error_iff`**, **`holds_error_iff`** — there are no others.
-/

namespace RankedTable

/-! ## Values -/

/-- The values that an index cannot order, and the error for each. -/
inductive Value.Unsorted : Value → Error → Prop
  | setMapOrNull {value : Value} (hkind : value.kind ∉ [Kind.text, .number, .binary]) :
      Unsorted value (.store (.unsortable value.kind))
  | malformed {digits : String} (hdigits : Decimal.parse? digits = none) :
      Unsorted (.number digits) .notADecimal
  | notFinite {digits : String} {d : Decimal} (hdigits : Decimal.parse? digits = some d)
      (hd : ∀ negative coefficient exponent, d ≠ .finite negative coefficient exponent) :
      Unsorted (.number digits) (.score (.notFinite d))
  | outOfRange {digits : String} {negative : Bool} {coefficient : Nat} {exponent : Int}
      (hdigits : Decimal.parse? digits = some (.finite negative coefficient exponent))
      (hcoefficient : coefficient ≠ 0)
      (hexponent : ¬(0 ≤ Decimal.adjusted coefficient exponent + Score.bias ∧
        Decimal.adjusted coefficient exponent + Score.bias ≤ 999)) :
      Unsorted (.number digits)
        (.score (.exponentOutOfRange (.finite negative coefficient exponent)))

/-- **A value has no sort text for these reasons, and for no other.** -/
theorem Value.sortText_error_iff {value : Value} {e : Error} :
    value.sortText = .error e ↔ value.Unsorted e := by
  constructor
  · intro h
    cases value with
    | text | binary => cases h
    | number digits =>
        rw [sortText] at h
        split at h
        · rename_i d hdigits
          cases d with
          | finite negative coefficient exponent =>
              rw [Score.encodeDecimal] at h
              dsimp only at h
              split_ifs at h with hzero hrange
              · cases h
              · cases h
              · cases h
                exact .outOfRange hdigits hzero hrange
          | _ =>
              cases h
              exact .notFinite hdigits (by simp)
        · cases h
          exact .malformed ‹_›
    | _ =>
        cases h
        exact .setMapOrNull (by simp [kind])
  · intro h
    cases h with
    | setMapOrNull hkind =>
        cases value with
        | text | number | binary => simp [kind] at hkind
        | _ => rfl
    | malformed hdigits => rw [sortText, hdigits]
    | @notFinite digits d hdigits hd =>
        rw [sortText, hdigits]
        cases d with
        | finite negative coefficient exponent => exact absurd rfl (hd _ _ _)
        | _ => rfl
    | outOfRange hdigits hcoefficient hexponent =>
        rw [sortText, hdigits]
        dsimp only
        rw [Score.encodeDecimal, if_neg hcoefficient, if_neg hexponent]
        rfl

/-! ## Conditions -/

/-- The conditions that cannot be compared with a value, and the error for each. -/
inductive Condition.Raises (condition : Condition) (value : Value) : Error → Prop
  | noOperand (hop : condition.op ∉ [Operator.present, .absent]) (hvalues : condition.values = []) :
      Raises condition value .missingOperand
  | value {first : Value} {rest : List Value} {e : Error}
      (hop : condition.op ∉ [Operator.present, .absent, .eq])
      (hvalues : condition.values = first :: rest) (hkind : value.kind = first.kind)
      (hvalue : value.Unsorted e) : Raises condition value e
  | operand {first : Value} {rest front back : List Value} {operand : Value} {text : String}
      {e : Error} (hop : condition.op ∉ [Operator.present, .absent, .eq])
      (hvalues : condition.values = first :: rest) (hkind : value.kind = first.kind)
      (htext : value.sortText = .ok text) (hsplit : first :: rest = front ++ operand :: back)
      (hfront : ∀ v ∈ front, ∃ t, v.sortText = .ok t) (hoperand : operand.Unsorted e) :
      Raises condition value e
  | noUpperBound {first : Value} {text low : String}
      (hop : condition.op ∉ [Operator.present, .absent, .eq, .ge, .le])
      (hvalues : condition.values = [first]) (hkind : value.kind = first.kind)
      (htext : value.sortText = .ok text) (hlow : first.sortText = .ok low) (hle : low ≤ text) :
      Raises condition value .missingOperand

lemma Operator.compare_error_iff {op : Operator} {text low : String} {operands : List String}
    {e : Error} : op.compare text (low :: operands) = .error e ↔
      op ∉ [Operator.ge, .le] ∧ operands = [] ∧ low ≤ text ∧ e = .missingOperand := by
  cases op with
  | ge | le => simp [compare]
  | _ =>
      by_cases hle : low ≤ text
      · cases operands <;> simp [compare, hle, eq_comm]
      · simp [compare, hle]

namespace Condition

variable {condition : Condition} {value first : Value} {rest : List Value} {e : Error}

/-- Values of one kind are compared by their texts, those of the operands taken in order. -/
lemma holds_comparison (hop : condition.op ∉ [Operator.present, .absent, .eq])
    (hvalues : condition.values = first :: rest) (hkind : value.kind = first.kind) :
    condition.holds (some value) =
      value.sortText.bind fun current =>
        ((first :: rest).mapM Value.sortText).bind (condition.op.compare current) := by
  obtain ⟨subject, op, values⟩ := condition
  subst hvalues
  cases op with
  | present | absent | eq => simp at hop
  | _ => exact if_neg (not_not.mpr hkind)

lemma compared_error_iff (hop : condition.op ∉ [Operator.present, .absent, .eq])
    (hvalues : condition.values = first :: rest) (hkind : value.kind = first.kind) :
    condition.holds (some value) = .error e ↔ condition.Raises value e := by
  rw [holds_comparison hop hvalues hkind]
  constructor
  · intro h
    rcases bind_eq_error.mp h with hvalue | ⟨text, htext, h⟩
    · exact .value hop hvalues hkind (Value.sortText_error_iff.mp hvalue)
    rcases bind_eq_error.mp h with hoperands | ⟨texts, htexts, h⟩
    · obtain ⟨front, operand, back, hsplit, hfront, hoperand⟩ := mapM_eq_error.mp hoperands
      exact .operand hop hvalues hkind htext hsplit hfront (Value.sortText_error_iff.mp hoperand)
    · rw [List.mapM_cons] at htexts
      obtain ⟨low, hlow, htexts⟩ := bind_eq_ok.mp htexts
      obtain ⟨others, hothers, htexts⟩ := bind_eq_ok.mp htexts
      obtain rfl : low :: others = texts := Except.ok.inj htexts
      obtain ⟨hbound, rfl, hle, rfl⟩ := Operator.compare_error_iff.mp h
      obtain rfl : rest = [] := by
        cases rest with
        | nil => rfl
        | cons second rest =>
            rw [List.mapM_cons] at hothers
            obtain ⟨_, -, hothers⟩ := bind_eq_ok.mp hothers
            obtain ⟨_, -, hothers⟩ := bind_eq_ok.mp hothers
            cases hothers
      exact .noUpperBound (by simp_all) hvalues hkind htext hlow hle
  · intro h
    cases h with
    | noOperand _ hvalues' => exact absurd (hvalues'.symm.trans hvalues) (by simp)
    | value _ _ _ hvalue => exact bind_eq_error.mpr (.inl (Value.sortText_error_iff.mpr hvalue))
    | operand _ hvalues' _ htext hsplit hfront hoperand =>
        rw [← hvalues, hvalues', hsplit]
        exact bind_eq_error.mpr (.inr ⟨_, htext, bind_eq_error.mpr (.inl
          (mapM_eq_error.mpr ⟨_, _, _, rfl, hfront, Value.sortText_error_iff.mpr hoperand⟩))⟩)
    | noUpperBound hbound hvalues' _ htext hlow hle =>
        rw [← hvalues, hvalues', List.mapM_cons, List.mapM_nil, htext, hlow]
        exact Operator.compare_error_iff.mpr ⟨by simp_all, rfl, hle, rfl⟩

lemma holds_noOperand (hop : condition.op ∉ [Operator.present, .absent])
    (hvalues : condition.values = []) :
    condition.holds (some value) = .error .missingOperand := by
  cases hop' : condition.op <;> simp_all [holds]

/-- **A condition has no answer for these reasons, and for no other.** -/
theorem holds_error_iff {value : Option Value} :
    condition.holds value = .error e ↔ ∃ v, value = some v ∧ condition.Raises v e := by
  constructor
  · intro h
    cases value with
    | none => cases hop : condition.op <;> simp [holds, hop] at h
    | some v =>
        refine ⟨v, rfl, ?_⟩
        by_cases hop : condition.op ∈ [Operator.present, .absent]
        · simp only [List.mem_cons, List.not_mem_nil, or_false] at hop
          rcases hop with hop | hop <;> simp [holds, hop] at h
        cases hvalues : condition.values with
        | nil =>
            rw [holds_noOperand hop hvalues] at h
            exact Except.error.inj h ▸ .noOperand hop hvalues
        | cons first rest =>
            by_cases hcompared : condition.op ≠ .eq ∧ v.kind = first.kind
            · exact (compared_error_iff (by simp_all) hvalues hcompared.2).mp h
            · obtain ⟨subject, op, values⟩ := condition
              subst hvalues
              cases op <;> simp_all [holds]
  · rintro ⟨v, rfl, h⟩
    cases h with
    | noOperand hop hvalues => exact holds_noOperand hop hvalues
    | value hop hvalues hkind hvalue =>
        exact (compared_error_iff hop hvalues hkind).mpr (.value hop hvalues hkind hvalue)
    | operand hop hvalues hkind htext hsplit hfront hoperand =>
        exact (compared_error_iff hop hvalues hkind).mpr
          (.operand hop hvalues hkind htext hsplit hfront hoperand)
    | noUpperBound hop hvalues hkind htext hlow hle =>
        exact (compared_error_iff (by simp_all) hvalues hkind).mpr
          (.noUpperBound hop hvalues hkind htext hlow hle)

end Condition

end RankedTable
