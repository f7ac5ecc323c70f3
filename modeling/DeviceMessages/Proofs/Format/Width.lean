import DeviceMessages.Proofs.Format.General
import DeviceMessages.Proofs.Format.Integers

/-!
# The width of a field

A field width never cuts a text, and never changes more of it than it has to: the text that is
written is the one that is written without a width, with as many spaces or zeros as are missing
(`FillsField`). Which of them, and where, depends on the flags and on whether the value was read as
a number at all, so text that a numeric conversion falls back to is filled like any other text.

A value that has no text without a width has none with it.

Zeros go between the sign of a number and its body. The text of the number is all that a reader of
the message has, so the sign is found in the text here (`splitSign`). That this is the sign that
was written needs a fact about each notation: no body begins like a sign or has the letter of a base
prefix (`IsPlainBody`).

## Main result

* `render_fills_field` — what a width adds to the text that is written without one.
-/

namespace DeviceMessages

open Decimal
open Text (trim)

/-! ## What a width adds -/

/-- The sign or the base prefix that a text begins with, and what follows it. -/
def splitSign : List Char → List Char × List Char
  | '-' :: cs => (['-'], cs)
  | '+' :: cs => (['+'], cs)
  | ' ' :: cs => ([' '], cs)
  | cs => splitMarker cs

namespace Directive

/-- The directive without its width. -/
def withoutWidth (d : Directive) : Directive := { d with width := none }

/-- The value reads as a number for the conversion, when the blanks around it are left out. -/
def ReadsNumber (d : Directive) (value : List Char) : Prop :=
  match d.conversion with
  | .signed => (signed64? (trim value)).isSome
  | .unsigned | .octal | .hex _ =>
    (unsigned64? (trim value)).isSome ∨ (signed64? (trim value)).isSome
  | .fixed | .exponent _ | .general _ => (finite? (trim value)).isSome
  | .text | .character => False

/-- Zeros may fill the field: the flag asks for them, the value is a number, and it is no integer
with a precision. -/
def AllowsZeros (d : Directive) (value : List Char) : Prop :=
  d.flags.zero = true ∧ d.ReadsNumber value ∧
    ¬ (d.conversion.isInteger = true ∧ d.precision.isSome = true)

/-- The text `written` is `text` with what it lacks of the field width. -/
structure FillsField (d : Directive) (value text written : List Char) : Prop where
  length_eq : written.length = d.width.getD 0
  /-- The flag for the left side comes before the one for zeros. -/
  left : d.flags.left = true →
    written = text ++ List.replicate (d.width.getD 0 - text.length) ' '
  zeros : d.flags.left = false → d.AllowsZeros value →
    written = (splitSign text).1 ++ List.replicate (d.width.getD 0 - text.length) '0' ++
      (splitSign text).2
  right : d.flags.left = false → ¬ d.AllowsZeros value →
    written = List.replicate (d.width.getD 0 - text.length) ' ' ++ text

/-! ## Writing without a width -/

variable {value : List Char} {n : Number} {t : NumberText}

theorem number?_withoutWidth (d : Directive) (value : List Char) :
    d.withoutWidth.number? value = d.number? value := rfl

theorem numberText_withoutWidth (d : Directive) (n : Number) :
    d.withoutWidth.numberText n = d.numberText n := by
  cases n <;> rfl

theorem padText_withoutWidth (d : Directive) (text : List Char) :
    d.withoutWidth.padText text = text := by
  simp [padText, withoutWidth]

theorem padNumber_withoutWidth (d : Directive) (t : NumberText) :
    d.withoutWidth.padNumber t = t.sign ++ t.body := by
  unfold padNumber
  rw [padText_withoutWidth]
  simp [withoutWidth]

theorem render_withoutWidth_of_some {d : Directive} (h : d.number? value = some n) :
    d.withoutWidth.render value = (d.numberText n).map fun t => t.sign ++ t.body := by
  rw [render, number?_withoutWidth, h]
  simp only [numberText_withoutWidth]
  congr 1
  funext t
  exact d.padNumber_withoutWidth t

theorem render_withoutWidth_of_none {d : Directive} (h : d.number? value = none) :
    d.withoutWidth.render value = some (d.textOf value) := by
  rw [render, number?_withoutWidth, h]
  exact congrArg some (d.padText_withoutWidth _)

/-! ## Which values are numbers -/

theorem readsNumber_iff (d : Directive) (value : List Char) :
    d.ReadsNumber value ↔ ∃ n, d.number? value = some n := by
  rw [← Option.isSome_iff_exists]
  unfold ReadsNumber number?
  cases d.conversion <;> simp [word?]

/-- A number is an integer or a measured value, as the conversion has it. -/
theorem numberText_cases {d : Directive} (hn : d.number? value = some n)
    (ht : d.numberText n = some t) :
    (d.conversion.isInteger = true ∧ ∃ negative m, t = d.integerText negative m) ∨
      (d.conversion.isInteger = false ∧ ∃ (v : Binary64) (body : List Char),
        d.measuredBody v.magnitude.toRat = some body ∧
        t = ⟨d.signText v.isBelowZero, body, true⟩) := by
  unfold number? at hn
  cases hconversion : d.conversion with
  | signed | unsigned | octal | hex =>
      simp only [hconversion, Option.map_eq_some_iff] at hn
      obtain ⟨m, -, rfl⟩ := hn
      cases ht
      exact .inl ⟨rfl, _, _, rfl⟩
  | fixed | exponent | general =>
      simp only [hconversion, Option.map_eq_some_iff] at hn
      obtain ⟨v, -, rfl⟩ := hn
      obtain ⟨body, hbody, rfl⟩ := Option.map_eq_some_iff.1 ht
      exact .inr ⟨rfl, v, body, hbody, rfl⟩
  | text | character =>
      rw [hconversion] at hn
      cases hn

/-- A number may be filled with zeros unless it is an integer with a precision. -/
theorem zeroFill_iff {d : Directive} (hn : d.number? value = some n)
    (ht : d.numberText n = some t) :
    t.zeroFill = true ↔ ¬ (d.conversion.isInteger = true ∧ d.precision.isSome = true) := by
  rcases numberText_cases hn ht with ⟨hinteger, negative, m, rfl⟩ | ⟨hmeasured, v, body, -, rfl⟩
  · have hfill : (d.integerText negative m).zeroFill = d.precision.isNone := by
      unfold integerText
      cases d.conversion <;> rfl
    rw [hfill]
    cases d.precision <;> simp [hinteger]
  · simp [hmeasured]

/-! ## The sign of a number -/

/-- What may stand before the body of a number. -/
def signs : List (List Char) := [[], ['-'], ['+'], [' '], ['0', 'x'], ['0', 'X']]

/-- A text that is not taken for one with a sign or a base prefix. -/
structure IsPlainBody (cs : List Char) : Prop where
  head : ∀ c ∈ cs.head?, c ≠ '-' ∧ c ≠ '+' ∧ c ≠ ' '
  lower : 'x' ∉ cs
  upper : 'X' ∉ cs

/-- The sign is found where it was written. -/
theorem splitSign_append {sign body : List Char} (hsign : sign ∈ signs)
    (hbody : IsPlainBody body) : splitSign (sign ++ body) = (sign, body) := by
  have hnone : splitSign body = ([], body) := by
    unfold splitSign
    split
    · exact absurd rfl (hbody.head '-' rfl).1
    · exact absurd rfl (hbody.head '+' rfl).2.1
    · exact absurd rfl (hbody.head ' ' rfl).2.2
    · exact splitMarker_of_notMem hbody.lower hbody.upper
  simp only [signs, List.mem_cons, List.not_mem_nil, or_false] at hsign
  rcases hsign with rfl | rfl | rfl | rfl | rfl | rfl
  · exact hnone
  all_goals rfl

theorem signText_mem_signs (d : Directive) (negative : Bool) : d.signText negative ∈ signs := by
  unfold signText
  split_ifs <;> decide

theorem integerText_sign_mem_signs (d : Directive) (negative : Bool) (m : Nat) :
    (d.integerText negative m).sign ∈ signs := by
  rw [integerText_sign]
  split
  · exact d.signText_mem_signs negative
  · unfold marker
    split
    · split_ifs <;> decide
    · split_ifs <;> decide
    · decide

theorem isPlainBody_integerText (d : Directive) (negative : Bool) (m : Nat) :
    IsPlainBody (d.integerText negative m).body := by
  have hdigits : ∀ c ∈ (d.integerText negative m).body,
      isDigitIn d.conversion.base c = true := d.isDigitIn_body negative m 0
  refine ⟨?_, ?_, ?_⟩
  · intro c hc
    obtain ⟨hblank, -, -, hminus, hplus⟩ :=
      isDigitIn_facts (hdigits c (List.mem_of_mem_head? hc))
    refine ⟨hminus, hplus, ?_⟩
    rintro rfl
    cases hblank
  · exact fun hmem => (isDigitIn_facts (hdigits 'x' hmem)).2.1 rfl
  · exact fun hmem => (isDigitIn_facts (hdigits 'X' hmem)).2.2.1 rfl

/-! ### Measured values -/

/-- A mantissa begins with a digit, and neither it nor an exponent has a letter of a prefix. -/
theorem isPlainBody_text_append (m : Mantissa) {suffix : List Char} (hlower : 'x' ∉ suffix)
    (hupper : 'X' ∉ suffix) : IsPlainBody (m.text ++ suffix) := by
  have hnot : ∀ c, c.isDigit = false → c ≠ '.' → c ∉ suffix → c ∉ m.text ++ suffix := by
    intro c hdigit hpoint hsuffix hmem
    rcases List.mem_append.1 hmem with hmem | hmem
    · rcases m.isDigit_or_point_of_mem_text c hmem with h | h
      · rw [hdigit] at h
        cases h
      · exact hpoint h
    · exact hsuffix hmem
  refine ⟨?_, hnot 'x' rfl (by decide) hlower, hnot 'X' rfl (by decide) hupper⟩
  intro c hc
  obtain ⟨first, others, hwhole⟩ := List.exists_cons_of_ne_nil m.whole_ne
  have hfirst : c = first := by
    rw [Mantissa.text, hwhole] at hc
    cases hc
    rfl
  have hdigit := m.isDigit_whole first (by rw [hwhole]; exact List.mem_cons_self)
  rw [hfirst]
  refine ⟨?_, ?_, ?_⟩ <;> rintro rfl <;> cases hdigit

theorem notMem_of_writesExponent {letters : LetterCase} {e : ℤ} {cs : List Char} {c : Char}
    (hdigit : c.isDigit = false) (hother : c ∉ ['e', 'E', '-', '+'])
    (h : WritesExponent letters e cs) : c ∉ cs := by
  obtain ⟨ds, rfl, -, hds⟩ := h
  intro hmem
  simp only [List.mem_cons, List.not_mem_nil, or_false, not_or] at hmem hother
  rcases hmem with hletter | hsign | hmem
  · cases letters <;> simp_all [LetterCase.exponentLetter]
  · split at hsign <;> simp_all
  · rw [(isDigit_of_numeral? hds).1 c hmem] at hdigit
    cases hdigit

/-- The body of a measured value is a mantissa and then an exponent, a point or nothing. -/
theorem isPlainBody_measuredBody (d : Directive) {x : ℚ} (hx : 0 ≤ x) {body : List Char}
    (h : d.measuredBody x = some body) : IsPlainBody body := by
  have hfixed : ∀ places (suffix : List Char), 'x' ∉ suffix → 'X' ∉ suffix →
      IsPlainBody (fixedNotation places x ++ suffix) := by
    intro places suffix hlower hupper
    rw [fixedNotation, Mantissa.text_ofDigits]
    exact isPlainBody_text_append _ hlower hupper
  cases hconversion : d.conversion with
  | exponent letters =>
      rw [measuredBody, hconversion] at h
      cases h
      have hwrites := writesExponent_exponentSuffix letters
        (Rounded.ofRat (d.precision.getD 6) x).exponent
      rw [exponentNotation, Mantissa.text_ofDigits]
      exact isPlainBody_text_append _ (notMem_of_writesExponent rfl (by decide) hwrites)
        (notMem_of_writesExponent rfl (by decide) hwrites)
  | general letters =>
      obtain ⟨r, m, suffix, -, hgeneral, rfl⟩ := exists_of_measuredBody_general hconversion hx h
      by_cases hsuffix : suffix = []
      · rw [hsuffix]
        exact isPlainBody_text_append m List.not_mem_nil List.not_mem_nil
      · have hwrites := (hgeneral.scientific hsuffix).2
        exact isPlainBody_text_append m (notMem_of_writesExponent rfl (by decide) hwrites)
          (notMem_of_writesExponent rfl (by decide) hwrites)
  | fixed | signed | unsigned | octal | hex | text | character =>
      rw [measuredBody, hconversion] at h
      cases h
      refine hfixed _ _ ?_ ?_ <;> split_ifs <;> decide

/-- The sign of a number is what its text begins with. -/
theorem splitSign_of_number? {d : Directive} (hn : d.number? value = some n)
    (ht : d.numberText n = some t) : splitSign (t.sign ++ t.body) = (t.sign, t.body) := by
  rcases numberText_cases hn ht with ⟨-, negative, m, rfl⟩ | ⟨-, v, body, hbody, rfl⟩
  · exact splitSign_append (d.integerText_sign_mem_signs negative m)
      (d.isPlainBody_integerText negative m)
  · exact splitSign_append (d.signText_mem_signs v.isBelowZero)
      (d.isPlainBody_measuredBody v.magnitude.toRat_nonneg hbody)

/-! ## Filling the field -/

theorem padText_of_le {d : Directive} {text : List Char} (h : d.width.getD 0 ≤ text.length) :
    d.padText text = text := by
  simp [padText, Nat.sub_eq_zero_of_le h]

theorem length_padText {d : Directive} {text : List Char} (h : text.length ≤ d.width.getD 0) :
    (d.padText text).length = d.width.getD 0 := by
  unfold padText
  split
  · rw [List.length_append, List.length_replicate]
    omega
  · rw [List.length_append, List.length_replicate]
    omega

/-- A text that no zeros may stand in is filled with spaces. -/
theorem fillsField_padText {d : Directive} {text : List Char}
    (h : text.length < d.width.getD 0) (hzeros : d.flags.left = false → ¬ d.AllowsZeros value) :
    d.FillsField value text (d.padText text) := by
  refine ⟨length_padText (Nat.le_of_lt h), ?_, ?_, ?_⟩
  · intro hleft
    simp [padText, hleft]
  · intro hleft hallowed
    exact absurd hallowed (hzeros hleft)
  · intro hleft _
    simp [padText, hleft]

/-- A number is filled with zeros after its sign if they are allowed. -/
theorem fillsField_padNumber {d : Directive} (hn : d.number? value = some n)
    (ht : d.numberText n = some t) (h : (t.sign ++ t.body).length < d.width.getD 0) :
    d.FillsField value (t.sign ++ t.body) (d.padNumber t) := by
  have hallowed : d.AllowsZeros value ↔ d.flags.zero = true ∧ t.zeroFill = true := by
    rw [AllowsZeros, zeroFill_iff hn ht, readsNumber_iff]
    simp [hn]
  unfold padNumber
  by_cases hzero : (d.flags.zero && t.zeroFill && !d.flags.left) = true
  · rw [if_pos hzero]
    simp only [Bool.and_eq_true, Bool.not_eq_true'] at hzero
    refine ⟨?_, ?_, ?_, ?_⟩
    · simp only [List.length_append, List.length_replicate] at h ⊢
      omega
    · intro hleft
      rw [hzero.2] at hleft
      cases hleft
    · intro _ _
      rw [splitSign_of_number? hn ht]
    · intro _ hnot
      exact absurd (hallowed.2 hzero.1) hnot
  · rw [if_neg hzero]
    refine fillsField_padText h ?_
    intro hleft hyes
    refine hzero ?_
    rw [(hallowed.1 hyes).1, (hallowed.1 hyes).2, hleft]
    rfl

/-- A number that is as long as its field stays as it is. -/
theorem padNumber_of_le {d : Directive} (h : d.width.getD 0 ≤ (t.sign ++ t.body).length) :
    d.padNumber t = t.sign ++ t.body := by
  unfold padNumber
  split
  · rw [Nat.sub_eq_zero_of_le h, List.replicate_zero, List.append_nil]
  · exact padText_of_le h

/-- A value is written in a field exactly if it is written without a width, and a text that is as
long as its field is then the same. A shorter one is filled up to the width. -/
theorem render_fills_field (d : Directive) (value : List Char) :
    (d.render value = none ↔ d.Refuses value) ∧
    (d.withoutWidth.render value = none ↔ d.Refuses value) ∧
    ∀ text, d.withoutWidth.render value = some text →
      ∃ written, d.render value = some written ∧
        (d.width.getD 0 ≤ text.length → written = text) ∧
        (text.length < d.width.getD 0 → d.FillsField value text written) := by
  refine ⟨d.render_eq_none_iff value, d.withoutWidth.render_eq_none_iff value, ?_⟩
  intro text htext
  cases hn : d.number? value with
  | none =>
      have hnot : ¬ d.AllowsZeros value := by
        intro hallowed
        obtain ⟨n, hsome⟩ := (d.readsNumber_iff value).1 hallowed.2.1
        rw [hn] at hsome
        cases hsome
      rw [render_withoutWidth_of_none hn] at htext
      cases htext
      exact ⟨_, by rw [render, hn], padText_of_le, fun hshort =>
        fillsField_padText hshort fun _ => hnot⟩
  | some n =>
      rw [render_withoutWidth_of_some hn] at htext
      obtain ⟨t, ht, rfl⟩ := Option.map_eq_some_iff.1 htext
      have hrender : d.render value = some (d.padNumber t) := by
        rw [render, hn]
        exact congrArg (·.map d.padNumber) ht
      exact ⟨_, hrender, padNumber_of_le, fillsField_padNumber hn ht⟩

/-- The directive `%#06x`. -/
def filledHex : Directive := ⟨.ofChars ['#', '0'], some 6, none, .hex .lower⟩

/-- A number has zeros after its prefix, a text has spaces in front, and no width helps a number
that has too many places. -/
theorem render_fills_field_prefixed :
    (filledHex.render "255".toList = some "0x00ff".toList ∧
      filledHex.FillsField "255".toList "0xff".toList "0x00ff".toList) ∧
    (filledHex.render "üx".toList = some "    üx".toList ∧
      filledHex.FillsField "üx".toList "üx".toList "    üx".toList) ∧
    finestGeneral.render "0.0001".toList = none := by
  have hnumber : filledHex.render "255".toList = some "0x00ff".toList := by decide
  have htext : filledHex.render "üx".toList = some "    üx".toList := by decide
  obtain ⟨-, -, hprefixed⟩ := render_fills_field filledHex "255".toList
  obtain ⟨-, -, hplain⟩ := render_fills_field filledHex "üx".toList
  obtain ⟨hex, hhex, -, hzeros⟩ := hprefixed "0xff".toList (by decide)
  obtain ⟨plain, hplain, -, hspaces⟩ := hplain "üx".toList (by decide)
  cases Option.some.inj (hnumber.symm.trans hhex)
  cases Option.some.inj (htext.symm.trans hplain)
  exact ⟨⟨hnumber, hzeros (by decide)⟩, ⟨htext, hspaces (by decide)⟩,
    (render_fills_field finestGeneral "0.0001".toList).1.2 refuses_finestGeneral⟩

end Directive

end DeviceMessages
