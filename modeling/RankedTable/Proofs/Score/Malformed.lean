import RankedTable.Error
import RankedTable.Proofs.Score.RoundTrip

/-!
# Texts that are no scores

The text of a finite number other than zero has an exponent of three characters, some digits and, if
the number is negative, a terminator.  All but the prefix and the terminator have to look like
digits.  Not every character that does is one: a superscript looks like a digit in whichever place
it stands, but has no decimal value.  Among the digits that is noticed and the text is malformed;
in the exponent's place it is not, and reading the exponent fails in a way of its own.

* `AllDecimal` — characters that are decimal digits, of whichever script; `readDigits_isSome`.
* `Parts` — the parts that a text of a finite number has, and the text they make up.
* `ReadBy` — what a text comes to by the characters that look like digits.
* **`decodeDecimal_text`** — a text with parts is read by these;
  **`decodeDecimal_without_parts`** — any other text is malformed.
* `Reports` — which texts a decoder accepts, and what it reports of the others.
* **`decoders_report`** — both decoders report a text as malformed unless they accept it or fail at
  its exponent.
-/

namespace RankedTable.Score

/-! ## Decimal digits -/

/-- Whether all characters are decimal digits, of whichever script. -/
def AllDecimal (l : List Char) : Prop :=
  ∀ c ∈ l, (Char.decimalValue? c).isSome = true

instance (l : List Char) : Decidable (AllDecimal l) :=
  inferInstanceAs (Decidable (∀ c ∈ l, (Char.decimalValue? c).isSome = true))

/-- **Just decimal digits are read as a number.** -/
theorem readDigits_isSome {l : List Char} : (readDigits l).isSome = true ↔ AllDecimal l := by
  have hfold : ∀ n : ℕ, (l.foldlM (fun n c => (Char.decimalValue? c).map (10 * n + ·)) n).isSome =
      true ↔ AllDecimal l := by
    induction l with
    | nil => exact fun n => iff_of_true rfl fun c hc => absurd hc List.not_mem_nil
    | cons c l ih =>
        intro n
        rw [List.foldlM_cons, AllDecimal, List.forall_mem_cons]
        cases Char.decimalValue? c with
        | none => simp
        | some d => simpa [AllDecimal] using ih (10 * n + d)
  exact hfold 0

lemma decimalValue?_digit {c : Char} (h : Decimal.isAsciiDigit c = true) :
    (Char.decimalValue? c).isSome = true := by
  obtain ⟨hlow, hhigh⟩ := Decimal.isAsciiDigit_iff.mp h
  rw [Char.decimalValue?_ascii hlow hhigh]
  rfl

/-- What is no ASCII digit is its own complement. -/
lemma complement_of_not_digit {c : Char} (h : Decimal.isAsciiDigit c ≠ true) : complement c = c :=
  if_neg fun hc => h (Decimal.isAsciiDigit_iff.mpr hc)

lemma isAsciiDigit_complement {c : Char} (h : Decimal.isAsciiDigit c = true) :
    Decimal.isAsciiDigit (complement c) = true := by
  have hc := Decimal.isAsciiDigit_iff.mp h
  have hcomplement := complement_digit h
  exact Decimal.isAsciiDigit_iff.mpr (by omega)

/-- The complement of a decimal digit is one, and that of another character is none. -/
lemma decimalValue?_complement (c : Char) :
    (Char.decimalValue? (complement c)).isSome = (Char.decimalValue? c).isSome := by
  by_cases h : Decimal.isAsciiDigit c = true
  · rw [decimalValue?_digit h, decimalValue?_digit (isAsciiDigit_complement h)]
  · rw [complement_of_not_digit h]

lemma isDigitLike_complement (c : Char) :
    Char.isDigitLike (complement c) = Char.isDigitLike c := by
  by_cases h : Decimal.isAsciiDigit c = true
  · rw [isDigitLike_of_isAsciiDigit h, isDigitLike_of_isAsciiDigit (isAsciiDigit_complement h)]
  · rw [complement_of_not_digit h]

lemma allDecimal_map_complement {l : List Char} : AllDecimal (l.map complement) ↔ AllDecimal l := by
  rw [AllDecimal, List.forall_mem_map]
  exact forall₂_congr fun c _ => by rw [decimalValue?_complement]

/-! ## The parts of a text -/

/-- The parts of the text of a finite number other than zero, as they stand in it: an exponent of
three characters and at least one digit, all of which look like digits. -/
structure Parts where
  negative : Bool
  exponent : List Char
  digits : List Char
  three : exponent.length = 3
  some_digit : digits ≠ []
  digitLike : ∀ c ∈ exponent ++ digits, Char.isDigitLike c = true

namespace Parts

/-- The text that parts make up: a prefix, the parts, and a terminator for negative numbers. -/
def text (p : Parts) : String :=
  String.ofList (if p.negative then '1' :: (p.exponent ++ p.digits ++ ['~'])
    else '3' :: (p.exponent ++ p.digits))

/-- What is read of some characters: of those of a negative number the complement. -/
def plain (p : Parts) (l : List Char) : List Char :=
  if p.negative then l.map complement else l

variable (p : Parts)

lemma allDecimal_plain (l : List Char) : AllDecimal (p.plain l) ↔ AllDecimal l := by
  rw [plain]
  split_ifs
  · exact allDecimal_map_complement
  · exact Iff.rfl

lemma digitLike_plain (l : List Char) (h : ∀ c ∈ l, Char.isDigitLike c = true) :
    (p.plain l).all Char.isDigitLike = true := by
  rw [plain, List.all_eq_true]
  split_ifs
  · exact List.forall_mem_map.mpr fun c hc => (isDigitLike_complement c).trans (h c hc)
  · exact h

lemma plain_length (l : List Char) : (p.plain l).length = l.length := by
  rw [plain]
  split_ifs
  · exact List.length_map ..
  · rfl

/-- A text with parts is decoded by way of them. -/
lemma decodeDecimal_eq : decodeDecimal p.text =
    decodeBody p.text p.negative (p.plain p.exponent ++ p.plain p.digits) := by
  rw [decodeDecimal, text, plain, plain, String.toList_ofList]
  cases p.negative with
  | true =>
      simp only [if_true, List.getLast?_concat, List.dropLast_concat, List.map_append]
  | false => rfl

end Parts

/-! ## Texts with parts -/

/-- What a text comes to by the characters in its exponent's and its digits' place: it is decoded if
all of them are decimal digits, malformed if they are in the exponent only, and if they are not
there, the exponent cannot be read. -/
structure ReadBy {α : Type} (text : String) (exponent digits : List Char)
    (result : Except ScoreError α) : Prop where
  decoded : AllDecimal exponent → AllDecimal digits → ∃ x, result = .ok x
  malformed : AllDecimal exponent → ¬AllDecimal digits → result = .error (.malformed text)
  unreadable : ¬AllDecimal exponent → result = .error .unreadableExponent

/-- A result that is turned into another one is told alike. -/
lemma ReadBy.map {α β : Type} {text : String} {exponent digits : List Char}
    {result : Except ScoreError α} (h : ReadBy text exponent digits result) (f : α → β) :
    ReadBy text exponent digits (result.map f) where
  decoded he hd := by
    obtain ⟨x, hx⟩ := h.decoded he hd
    exact ⟨f x, by rw [hx]; rfl⟩
  malformed he hd := by
    rw [h.malformed he hd]
    rfl
  unreadable he := by
    rw [h.unreadable he]
    rfl

/-- Just what looks like digits, after an exponent of three characters, is read further. -/
lemma decodeBody_append {exponent digits : List Char} (hthree : exponent.length = 3)
    (hsome : digits ≠ []) (hexponent : exponent.all Char.isDigitLike = true)
    (hdigits : digits.all Char.isDigitLike = true) (text : String) (negative : Bool) :
    ReadBy text exponent digits (decodeBody text negative (exponent ++ digits)) := by
  have htake : (exponent ++ digits).take 3 = exponent := List.take_left' hthree
  have hdrop : (exponent ++ digits).drop 3 = digits := List.drop_left' hthree
  -- the zero that is put behind a single digit is decimal
  have hplaces : AllDecimal (if digits.length = 1 then digits ++ ['0'] else digits) ↔
      AllDecimal digits := by
    split_ifs
    · rw [AllDecimal, List.forall_mem_append]
      exact and_iff_left (List.forall_mem_singleton.mpr (decimalValue?_digit rfl))
    · exact Iff.rfl
  have hlike : ¬(digits.isEmpty = true ∨ (!exponent.all Char.isDigitLike) = true ∨
      (!digits.all Char.isDigitLike) = true) := by
    simp [hsome, hexponent, hdigits]
  rw [decodeBody, htake, hdrop]
  dsimp only
  rw [if_neg hlike]
  refine ⟨fun he hd => ?_, fun he hd => ?_, fun he => ?_⟩
  · obtain ⟨biased, hbiased⟩ := Option.isSome_iff_exists.mp (readDigits_isSome.mpr he)
    obtain ⟨coefficient, hcoefficient⟩ :=
      Option.isSome_iff_exists.mp (readDigits_isSome.mpr (hplaces.mpr hd))
    rw [hbiased, hcoefficient]
    exact ⟨_, rfl⟩
  · obtain ⟨biased, hbiased⟩ := Option.isSome_iff_exists.mp (readDigits_isSome.mpr he)
    have hnone : readDigits (if digits.length = 1 then digits ++ ['0'] else digits) = none :=
      Option.not_isSome_iff_eq_none.mp fun h => hd (hplaces.mp (readDigits_isSome.mp h))
    rw [hbiased, hnone]
  · rw [Option.not_isSome_iff_eq_none.mp fun h => he (readDigits_isSome.mp h)]

/-- **A text with parts is read by these.** -/
theorem decodeDecimal_text (p : Parts) :
    ReadBy p.text p.exponent p.digits (decodeDecimal p.text) := by
  have hsome : p.plain p.digits ≠ [] := fun hnil => p.some_digit <| by
    rw [← List.length_eq_zero_iff, ← p.plain_length, hnil, List.length_nil]
  have h := decodeBody_append ((p.plain_length p.exponent).trans p.three) hsome
    (p.digitLike_plain _ fun c hc => p.digitLike c (List.mem_append_left _ hc))
    (p.digitLike_plain _ fun c hc => p.digitLike c (List.mem_append_right _ hc)) p.text p.negative
  rw [← p.decodeDecimal_eq] at h
  have hexponent := p.allDecimal_plain p.exponent
  have hdigits := p.allDecimal_plain p.digits
  exact ⟨fun he hd => h.decoded (hexponent.mpr he) (hdigits.mpr hd),
    fun he hd => h.malformed (hexponent.mpr he) (hdigits.not.mpr hd),
    fun he => h.unreadable (hexponent.not.mpr he)⟩

/-- What is too short or does not look like digits is malformed. -/
lemma decodeBody_malformed {body : List Char}
    (h : ¬(3 < body.length ∧ ∀ c ∈ body, Char.isDigitLike c = true)) (text : String)
    (negative : Bool) : decodeBody text negative body = .error (.malformed text) := by
  rw [decodeBody]
  dsimp only
  refine if_pos (by_contra fun hlike => h ?_)
  obtain ⟨hdigits, hexponent, hrest⟩ : ¬body.length ≤ 3 ∧
      (body.take 3).all Char.isDigitLike = true ∧ (body.drop 3).all Char.isDigitLike = true := by
    simpa using hlike
  refine ⟨not_le.mp hdigits, fun c hc => ?_⟩
  rw [← List.take_append_drop 3 body] at hc
  rcases List.mem_append.mp hc with hc | hc
  · exact List.all_eq_true.mp hexponent c hc
  · exact List.all_eq_true.mp hrest c hc

/-- What looks like digits has parts, if it is long enough. -/
lemma exists_parts (negative : Bool) {body : List Char}
    (h : 3 < body.length ∧ ∀ c ∈ body, Char.isDigitLike c = true) :
    ∃ p : Parts, p.negative = negative ∧ p.exponent ++ p.digits = body :=
  ⟨⟨negative, body.take 3, body.drop 3, List.length_take_of_le h.1.le,
      List.ne_nil_of_length_pos (by rw [List.length_drop]; omega),
      by rw [List.take_append_drop]; exact h.2⟩,
    rfl, List.take_append_drop 3 body⟩

/-- **A text without parts is malformed**, if it is not that of zero. -/
theorem decodeDecimal_without_parts {text : String} (hzero : text ≠ "2")
    (hparts : ∀ p : Parts, text ≠ p.text) : decodeDecimal text = .error (.malformed text) := by
  rw [decodeDecimal]
  split
  case h_1 hchars => exact absurd (String.toList_inj.mp hchars) hzero
  case h_2 body hchars =>
    split_ifs with hlast
    · refine decodeBody_malformed (fun hbody => ?_) text true
      obtain ⟨hlength, hlike⟩ := hbody
      rw [List.length_map] at hlength
      obtain ⟨p, hnegative, hbody⟩ := exists_parts true ⟨hlength, fun c hc =>
        (isDigitLike_complement c).symm.trans (hlike _ (List.mem_map_of_mem hc))⟩
      refine hparts p (String.toList_inj.mp ?_)
      rw [hchars, Parts.text, if_pos hnegative, hbody, String.toList_ofList,
        List.dropLast_append_getLast? _ hlast]
    · rfl
  case h_3 body hchars =>
    refine decodeBody_malformed (fun hbody => ?_) text false
    obtain ⟨p, hnegative, hbody⟩ := exists_parts false hbody
    refine hparts p (String.toList_inj.mp ?_)
    rw [hchars, Parts.text, if_neg (by rw [hnegative]; decide), hbody, String.toList_ofList]
  case h_4 => rfl

/-! ## What is reported -/

/-- What a decoder that has some texts of its own makes of a text: it is decoded just if it is one
of these, or has parts all of whose characters are decimal digits.  The exponent cannot be read just
if the text has parts and not all characters of its exponent are such digits.  In every other case
the text is malformed, and in particular if it has no parts. -/
structure Reports {α : Type} (decode : String → Except ScoreError α) (own : List String)
    (text : String) : Prop where
  decoded : (∃ x, decode text = .ok x) ↔ text ∈ own ∨
    ∃ p : Parts, text = p.text ∧ AllDecimal p.exponent ∧ AllDecimal p.digits
  unreadable : decode text = .error .unreadableExponent ↔
    ∃ p : Parts, text = p.text ∧ ¬AllDecimal p.exponent
  malformed : (∀ x, decode text ≠ .ok x) → decode text ≠ .error .unreadableExponent →
    decode text = .error (.malformed text)
  without_parts : text ∉ own → (∀ p : Parts, text ≠ p.text) →
    decode text = .error (.malformed text)

/-- A decoder reports what it makes of its own texts, of those with parts, and of the others. -/
lemma reports_of {α : Type} {decode : String → Except ScoreError α} {own : List String}
    {text : String} (hown : text ∈ own → ∃ x, decode text = .ok x)
    (hparts : ∀ p : Parts, text = p.text → ReadBy text p.exponent p.digits (decode text))
    (hnone : text ∉ own → (∀ p : Parts, text ≠ p.text) →
      decode text = .error (.malformed text)) :
    Reports decode own text := by
  have hcases : (text ∈ own ∨ ∃ p : Parts, text = p.text ∧ AllDecimal p.exponent ∧
        AllDecimal p.digits) ∧ (∃ x, decode text = .ok x) ∨
      (∃ p : Parts, text = p.text ∧ ¬AllDecimal p.exponent) ∧
        decode text = .error .unreadableExponent ∨
      decode text = .error (.malformed text) := by
    by_cases hmem : text ∈ own
    · exact .inl ⟨.inl hmem, hown hmem⟩
    by_cases hpart : ∃ p : Parts, text = p.text
    · obtain ⟨p, hp⟩ := hpart
      have hread := hparts p hp
      by_cases hexponent : AllDecimal p.exponent
      · by_cases hdigits : AllDecimal p.digits
        · exact .inl ⟨.inr ⟨p, hp, hexponent, hdigits⟩, hread.decoded hexponent hdigits⟩
        · exact .inr (.inr (hread.malformed hexponent hdigits))
      · exact .inr (.inl ⟨⟨p, hp, hexponent⟩, hread.unreadable hexponent⟩)
    · exact .inr (.inr (hnone hmem fun p hp => hpart ⟨p, hp⟩))
  refine ⟨⟨?_, ?_⟩, ⟨?_, ?_⟩, ?_, hnone⟩
  · rintro ⟨x, hx⟩
    rcases hcases with ⟨hwhere, -⟩ | ⟨-, hresult⟩ | hresult
    · exact hwhere
    · cases hx.symm.trans hresult
    · cases hx.symm.trans hresult
  · rintro (hmem | ⟨p, hp, hexponent, hdigits⟩)
    · exact hown hmem
    · exact (hparts p hp).decoded hexponent hdigits
  · intro hresult
    rcases hcases with ⟨-, x, hx⟩ | ⟨hwhere, -⟩ | hmalformed
    · cases hx.symm.trans hresult
    · exact hwhere
    · cases hmalformed.symm.trans hresult
  · rintro ⟨p, hp, hexponent⟩
    exact (hparts p hp).unreadable hexponent
  · intro hdecoded hreadable
    rcases hcases with ⟨-, x, hx⟩ | ⟨-, hunreadable⟩ | hmalformed
    · exact absurd hx (hdecoded x)
    · exact absurd hunreadable hreadable
    · exact hmalformed

/-- The decimal decoder has a text of its own for zero. -/
theorem reports_decodeDecimal (text : String) : Reports decodeDecimal ["2"] text := by
  refine reports_of (fun hown => ?_) (fun p hp => hp ▸ decodeDecimal_text p) fun hown =>
    decodeDecimal_without_parts fun hzero => hown (List.mem_singleton.mpr hzero)
  rw [List.mem_singleton.mp hown]
  exact ⟨_, rfl⟩

/-- The texts of the infinities apart, doubles are decoded by way of decimals. -/
lemma decode_eq {text : String} (htop : text ≠ "4") (hbottom : text ≠ "0") :
    decode text = (decodeDecimal text).map Decimal.toFloat := by
  rw [decode, if_neg htop, if_neg hbottom]

/-- A text with parts has more than one character. -/
lemma Parts.text_ne_singleton (p : Parts) (c : Char) : p.text ≠ String.ofList [c] := by
  intro h
  have hthree := p.three
  have hlength := congrArg List.length (String.ofList_inj.mp h)
  split_ifs at hlength
  all_goals
    simp only [List.length_cons, List.length_append, List.length_nil] at hlength
    omega

/-- The decoder of doubles has texts of its own for the infinities, too. -/
theorem reports_decode (text : String) : Reports decode ["0", "2", "4"] text := by
  refine reports_of (fun hown => ?_) (fun p hp => ?_) fun hown hnone => ?_
  · rcases hown with _ | ⟨_, _ | ⟨_, _ | ⟨_, ⟨⟩⟩⟩⟩ <;> exact ⟨_, rfl⟩
  · rw [hp, decode_eq (p.text_ne_singleton '4') (p.text_ne_singleton '0')]
    exact (decodeDecimal_text p).map Decimal.toFloat
  · obtain ⟨hbottom, hzero, htop⟩ : text ≠ "0" ∧ text ≠ "2" ∧ text ≠ "4" := by simpa using hown
    rw [decode_eq htop hbottom, decodeDecimal_without_parts hzero hnone]
    rfl

/-- **A text is decoded, or it is reported as malformed**, unless it has an exponent that looks like
digits and cannot be read. -/
theorem decoders_report (text : String) :
    Reports decodeDecimal ["2"] text ∧ Reports decode ["0", "2", "4"] text :=
  ⟨reports_decodeDecimal text, reports_decode text⟩

/-- Superscripts in the exponent's place look like digits.  What comes of them is not reported as a
malformed score, which among the digits it is. -/
theorem superscript_exponent_unreadable :
    decodeDecimal "3²²²1" = .error .unreadableExponent ∧
    decode "3²²²1" = .error .unreadableExponent ∧
    ScoreError.unreadableExponent.message? ≠ (ScoreError.malformed "3²²²1").message? ∧
    decode "3500²" = .error (.malformed "3500²") := by
  refine ⟨rfl, rfl, ?_, rfl⟩
  rw [ScoreError.message?]
  exact nofun

end RankedTable.Score
