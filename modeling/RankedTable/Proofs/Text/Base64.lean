import Mathlib.Data.Nat.Notation
import Mathlib.Tactic.Lemma
import RankedTable.Text.Base64

/-!
# Base 64 is read back

* `sextets` — the groups of six bits of a byte string; its text has a character for each of them,
  and padding.
* `joinSextets_sextets` — the groups make up the bytes again.
* **`decodeBase64?_encodeBase64`** — reading a byte string that was written gives it back.
-/

namespace RankedTable

/-- The groups of six bits of a byte string, the last one filled up with zeros. -/
def sextets : Bytes → List ℕ
  | a :: b :: c :: rest =>
    let n := a.toNat * 65536 + b.toNat * 256 + c.toNat
    n / 262144 :: n / 4096 % 64 :: n / 64 % 64 :: n % 64 :: sextets rest
  | [a, b] =>
    let n := a.toNat * 1024 + b.toNat * 4
    [n / 4096, n / 64 % 64, n % 64]
  | [a] =>
    let n := a.toNat * 16
    [n / 64, n % 64]
  | [] => []

lemma sextets_lt (bytes : Bytes) : ∀ n ∈ sextets bytes, n < 64 := by
  fun_induction sextets bytes with
  | case1 a b c rest n ih =>
      have ha := a.toNat_lt
      have hb := b.toNat_lt
      have hc := c.toNat_lt
      simp only [List.forall_mem_cons]
      exact ⟨by omega, by omega, by omega, by omega, ih⟩
  | case2 a b n =>
      have ha := a.toNat_lt
      have hb := b.toNat_lt
      simp only [List.forall_mem_cons]
      exact ⟨by omega, by omega, by omega, fun _ h => absurd h List.not_mem_nil⟩
  | case3 a n =>
      have ha := a.toNat_lt
      simp only [List.forall_mem_cons]
      exact ⟨by omega, by omega, fun _ h => absurd h List.not_mem_nil⟩
  | case4 => exact fun _ h => absurd h List.not_mem_nil

/-- The text of a byte string: a character for each six bits, and the padding they call for. -/
lemma encodeBase64Chars_eq (bytes : Bytes) :
    encodeBase64Chars bytes = (sextets bytes).map Base64Alphabet.urlSafe.char ++
      List.replicate (base64Padding (sextets bytes).length) '=' := by
  fun_induction sextets bytes with
  | case1 a b c rest n ih =>
      have hpadding : base64Padding ((sextets rest).length + 4) =
          base64Padding (sextets rest).length := by
        simp only [base64Padding]
        omega
      simp only [encodeBase64Chars, ih, List.map_cons, List.cons_append, List.length_cons]
      rw [← hpadding]
  | _ => rfl

/-- **The groups of six bits make up the bytes again.** -/
lemma joinSextets_sextets (bytes : Bytes) : joinSextets (sextets bytes) = some bytes := by
  fun_induction sextets bytes with
  | case1 a b c rest n ih =>
      have ha := a.toNat_lt
      have hb := b.toNat_lt
      have hc := c.toNat_lt
      have hn : n / 262144 * 262144 + n / 4096 % 64 * 4096 + n / 64 % 64 * 64 + n % 64 = n := by
        omega
      simp only [joinSextets, hn, ih, Option.map_some]
      rw [show n / 65536 = a.toNat by omega, show n / 256 % 256 = b.toNat by omega,
        show n % 256 = c.toNat by omega]
      simp only [UInt8.ofNat_toNat]
  | case2 a b n =>
      have ha := a.toNat_lt
      have hb := b.toNat_lt
      have hn : n / 4096 * 4096 + n / 64 % 64 * 64 + n % 64 = n := by omega
      simp only [joinSextets, hn]
      rw [if_pos (by omega), show n / 1024 = a.toNat by omega,
        show n / 4 % 256 = b.toNat by omega]
      simp only [UInt8.ofNat_toNat]
  | case3 a n =>
      have ha := a.toNat_lt
      have hn : n / 64 * 64 + n % 64 = n := by omega
      simp only [joinSextets, hn]
      rw [if_pos (by omega), show n / 16 = a.toNat by omega]
      simp only [UInt8.ofNat_toNat]
  | case4 => rfl

/-- Each value has a character of its own, which is not the padding. -/
lemma value?_char : ∀ n < 64,
    Base64Alphabet.urlSafe.value? (Base64Alphabet.urlSafe.char n) = some n ∧
      Base64Alphabet.urlSafe.char n ≠ '=' := by
  decide

lemma mapM_value?_char {values : List ℕ} (h : ∀ n ∈ values, n < 64) :
    (values.map Base64Alphabet.urlSafe.char).mapM Base64Alphabet.urlSafe.value? = some values := by
  induction values with
  | nil => rfl
  | cons n rest ih =>
      rw [List.forall_mem_cons] at h
      rw [List.map_cons, List.mapM_cons, (value?_char n h.1).1, ih h.2]
      rfl

/-- **Bytes that were written as text are read back.** -/
theorem decodeBase64?_encodeBase64 (bytes : Bytes) :
    decodeBase64? (encodeBase64 bytes) = some bytes := by
  have hlt := sextets_lt bytes
  have hbody : ∀ c ∈ (sextets bytes).map Base64Alphabet.urlSafe.char, (c != '=') = true := by
    intro c hc
    obtain ⟨n, hn, rfl⟩ := List.mem_map.mp hc
    simpa using (value?_char n (hlt n hn)).2
  have hread : decodeBase64In? .urlSafe (encodeBase64Chars bytes) = some bytes := by
    rw [encodeBase64Chars_eq, decodeBase64In?]
    simp only [List.takeWhile_append_of_pos hbody, List.dropWhile_append_of_pos hbody,
      List.takeWhile_replicate, List.dropWhile_replicate]
    simp [mapM_value?_char hlt, joinSextets_sextets]
  rw [decodeBase64?, encodeBase64, String.toList_ofList, hread]
  rfl

end RankedTable
