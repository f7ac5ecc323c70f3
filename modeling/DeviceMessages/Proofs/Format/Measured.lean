import DeviceMessages.Proofs.Decimal.Reading
import DeviceMessages.Proofs.Format.Width

/-!
# Measured values in a field

There are three notations for measured values, and all of them write a number that the value is
rounded to (`Rounds`): a multiple of the last place for the fixed notation, a number with so many
significant digits for the other two. The text denotes the rounded number exactly, so what a reader
of the field gets is the double nearest to it, with the sign of the value.

Neither the width nor the flags have a part in that. The blanks of a field are not read, a plus
sign is read as none, zeros after the sign are digits, and the point that the alternate form leaves
at the end of a number is read as if it were not there.

## Main results

* `exists_rounds_render` — a measured value that can be written is read back as the double nearest
  to the number that it is rounded to.
* `exists_render_digits` — a natural number can always be written.
-/

namespace DeviceMessages

open Decimal
open Text (isBlank trim)

def Conversion.isMeasured : Conversion → Bool
  | .fixed | .exponent _ | .general _ => true
  | _ => false

theorem Conversion.notation_of_isMeasured {c : Conversion} (h : c.isMeasured = true) :
    (∃ letters, c = .exponent letters) ∨ (∃ letters, c = .general letters) ∨ c = .fixed := by
  cases c with
  | exponent letters => exact .inl ⟨letters, rfl⟩
  | general letters => exact .inr (.inl ⟨letters, rfl⟩)
  | fixed => exact .inr (.inr rfl)
  | signed | unsigned | octal | hex | text | character => cases h

namespace Directive

variable {d : Directive} {value body : List Char} {v : Binary64} {x r : ℚ}

/-- The number of digits after the point: six unless a precision is given. -/
def places (d : Directive) : Nat := d.precision.getD 6

/-- The number that a measured value is rounded to when it is written. -/
def Rounds (d : Directive) (x r : ℚ) : Prop :=
  match d.conversion with
  | .exponent _ => IsRounded (d.places + 1) x r
  | .general _ => IsRounded d.significant x r
  | _ => ∃ n : ℤ, IsNearestEven (x * (10 : ℚ) ^ (d.places : ℤ)) n ∧
      r = n * (10 : ℚ) ^ (-(d.places : ℤ))

theorem rounds_exponent {letters : LetterCase} (h : d.conversion = .exponent letters) :
    d.Rounds x r ↔ IsRounded (d.places + 1) x r := by
  rw [Rounds, h]

theorem rounds_general {letters : LetterCase} (h : d.conversion = .general letters) :
    d.Rounds x r ↔ IsRounded d.significant x r := by
  rw [Rounds, h]

theorem rounds_fixed (h : d.conversion = .fixed) :
    d.Rounds x r ↔ ∃ n : ℤ, IsNearestEven (x * (10 : ℚ) ^ (d.places : ℤ)) n ∧
      r = n * (10 : ℚ) ^ (-(d.places : ℤ)) := by
  rw [Rounds, h]

/-- A value is rounded to one number only. -/
theorem Rounds.unique {s : ℚ} (hr : d.Rounds x r) (hs : d.Rounds x s) : r = s := by
  unfold Rounds at hr hs
  revert hr hs
  split
  · exact IsRounded.unique
  · exact IsRounded.unique
  · rintro ⟨m, hm, rfl⟩ ⟨n, hn, rfl⟩
    rw [hm.unique hn]

/-! ## The body of a measured value -/

theorem measuredBody_exponent {letters : LetterCase} (h : d.conversion = .exponent letters)
    (x : ℚ) : d.measuredBody x =
      some ((Mantissa.ofDigits d.places (Rounded.ofRat d.places x).digits).text ++
        exponentSuffix letters (Rounded.ofRat d.places x).exponent) := by
  rw [measuredBody, h, ← Mantissa.text_ofDigits]
  rfl

/-- The digits of a rounded number in the fixed notation, and a point after them in the alternate
form without places. -/
theorem measuredBody_fixed (h : d.conversion = .fixed) (x : ℚ) :
    d.measuredBody x = some ((Mantissa.ofDigits d.places
      (roundHalfEven (x * (10 : ℚ) ^ (d.places : ℤ))).toNat).text ++
        if d.flags.alternate ∧ d.places = 0 then ['.'] else []) := by
  rw [measuredBody, h, ← Mantissa.text_ofDigits]
  rfl

/-- The text of a measured value denotes the number that the value is rounded to. -/
theorem exists_rounds_measuredBody (hconversion : d.conversion.isMeasured = true) (hx : 0 ≤ x) :
    ∃ r, 0 ≤ r ∧ d.Rounds x r ∧ ∀ body, d.measuredBody x = some body → denoted? body = some r := by
  rcases Conversion.notation_of_isMeasured hconversion with ⟨letters, h⟩ | ⟨letters, h⟩ | h
  · have hdenoted := denoted?_text_exponentSuffix
      (Mantissa.ofDigits d.places (Rounded.ofRat d.places x).digits) letters
      (Rounded.ofRat d.places x).exponent
    rw [toRat_ofDigits_mul] at hdenoted
    refine ⟨_, denoted?_nonneg hdenoted, (rounds_exponent h).2 (isRounded_ofRat d.places hx).1, ?_⟩
    intro body hbody
    rw [measuredBody_exponent h] at hbody
    cases hbody
    exact hdenoted
  · obtain ⟨r, m, suffix, hr, hgeneral, -⟩ :=
      exists_generalNotation letters d.flags.alternate d.places hx
    refine ⟨r, denoted?_nonneg hgeneral.denotes, (rounds_general h).2 hr, ?_⟩
    intro body hbody
    obtain ⟨r', m', suffix', hr', hgeneral', rfl⟩ := exists_of_measuredBody_general h hx hbody
    rw [hr.unique hr']
    exact hgeneral'.denotes
  · obtain ⟨n, hn⟩ : ∃ n : Nat, roundHalfEven (x * (10 : ℚ) ^ (d.places : ℤ)) = n := by
      refine ⟨_, (Int.toNat_of_nonneg (le_roundHalfEven ?_)).symm⟩
      rw [Int.cast_zero]
      exact mul_nonneg hx (ten_zpow_pos _).le
    refine ⟨n * (10 : ℚ) ^ (-(d.places : ℤ)), ?_, ?_, ?_⟩
    · exact mul_nonneg n.cast_nonneg (ten_zpow_pos _).le
    · refine (rounds_fixed h).2 ⟨n, ?_, by rw [Int.cast_natCast]⟩
      exact roundHalfEven_eq_iff.1 hn
    · intro body hbody
      rw [measuredBody_fixed h, hn, Int.toNat_natCast] at hbody
      cases hbody
      rw [← Mantissa.toRat_ofDigits]
      split
      · next hpoint =>
          refine denoted?_text_point (List.eq_nil_of_length_eq_zero ?_)
          rw [Mantissa.length_fraction_ofDigits, hpoint.2]
      · rw [List.append_nil, denoted?_text]

/-! ## Reading a field -/

/-- A measured value is written as a number, if it can be written. -/
theorem render_of_finite? (hconversion : d.conversion.isMeasured = true)
    (hv : finite? (trim value) = some v) :
    d.render value = (d.measuredText v).map d.padNumber := by
  have hnumber : d.number? value = some (.measured v) := by
    unfold number?
    rcases Conversion.notation_of_isMeasured hconversion with ⟨letters, h⟩ | ⟨letters, h⟩ | h
    all_goals simp only [h, hv, Option.map_some]
  rw [render, hnumber]
  rfl

/-- A value has a text exactly if its magnitude has one. -/
theorem render_eq_some_iff (hconversion : d.conversion.isMeasured = true)
    (hv : finite? (trim value) = some v) {text : List Char} :
    d.render value = some text ↔ ∃ body, d.measuredBody v.magnitude.toRat = some body ∧
      text = d.padNumber ⟨d.signText v.isBelowZero, body, true⟩ := by
  rw [render_of_finite? hconversion hv, measuredText, Option.map_map, Option.map_eq_some_iff]
  simp only [Function.comp_apply, eq_comm]

theorem render_eq_none_iff_cannotWrite (hconversion : d.conversion.isMeasured = true)
    (hv : finite? (trim value) = some v) :
    d.render value = none ↔ d.CannotWrite v.magnitude.toRat := by
  rw [render_of_finite? hconversion hv, Option.map_eq_none_iff, measuredText_eq_none_iff]

theorem exists_body_of_not_cannotWrite (hconversion : d.conversion.isMeasured = true)
    (hv : finite? (trim value) = some v) (hcan : ¬ d.CannotWrite v.magnitude.toRat) :
    ∃ body, d.measuredBody v.magnitude.toRat = some body ∧
      d.render value = some (d.padNumber ⟨d.signText v.isBelowZero, body, true⟩) := by
  obtain ⟨body, hbody⟩ := Option.ne_none_iff_exists'.1
    (mt (d.measuredBody_eq_none_iff v.magnitude.toRat_nonneg).1 hcan)
  exact ⟨body, hbody, (render_eq_some_iff hconversion hv).2 ⟨body, hbody, rfl⟩⟩

/-- A number in its field is read as the double nearest to what its body denotes, with the sign that
was written. -/
theorem finite?_trim_padNumber (d : Directive) (negative zeroFill : Bool) {body : List Char}
    (hbody : denoted? body = some r) :
    finite? (trim (d.padNumber ⟨d.signText negative, body, zeroFill⟩)) =
      (Magnitude.nearest? r).map (⟨negative, ·⟩) := by
  obtain ⟨zeros, htrim, -⟩ := d.trim_padNumber (t := ⟨d.signText negative, body, zeroFill⟩)
    (d.signText_blanks negative) (not_isBlank_of_denoted? hbody)
  obtain ⟨hnone, hminus, hplus⟩ := finite?_of_denoted? (denoted?_leadingZeros zeros hbody)
  rw [htrim]
  show finite? (trim (d.signText negative) ++ _) = _
  rw [trim_signText]
  cases negative with
  | true => exact hminus
  | false =>
      rw [if_neg Bool.false_ne_true]
      split
      · exact hplus
      · exact hnone

/-- A measured value is read back as the double nearest to the number that it is rounded to. -/
theorem exists_rounds_render (hconversion : d.conversion.isMeasured = true)
    (hv : finite? (trim value) = some v) :
    ∃ r, 0 ≤ r ∧ d.Rounds v.magnitude.toRat r ∧ ∀ text, d.render value = some text →
      finite? (trim text) = (Magnitude.nearest? r).map (⟨v.isBelowZero, ·⟩) := by
  obtain ⟨r, hnonneg, hr, hdenotes⟩ :=
    exists_rounds_measuredBody hconversion v.magnitude.toRat_nonneg
  refine ⟨r, hnonneg, hr, ?_⟩
  intro text htext
  obtain ⟨body, hbody, rfl⟩ := (render_eq_some_iff hconversion hv).1 htext
  exact d.finite?_trim_padNumber v.isBelowZero true (hdenotes body hbody)

/-! ## Natural numbers -/

theorem denoted?_digits (n : Nat) : denoted? (digits n) = some (n : ℚ) := by
  have h := denoted?_text ⟨digits n, [], Nat.toDigits_ne_nil, fun _ => isDigit_of_mem_digits, nofun⟩
  simpa [Mantissa.text, Mantissa.toRat, valueOf_digits] using h

/-- A natural number is not below one unless it is zero, and so it has no more places than digits
after the first. -/
theorem exists_render_digits (d : Directive) (hprecision : d.precision.getD 6 ≤ maxPlaces + 1)
    (n : Nat) : ∃ text, d.render (digits n) = some text := by
  rw [← Option.ne_none_iff_exists', ne_eq, render_eq_none_iff]
  rintro ⟨v, hv, hcannot⟩
  have htrim : trim (digits n) = digits n := by
    have h : trim ([] ++ digits n ++ []) = digits n :=
      Text.trim_between nofun (not_isBlank_of_denoted? (denoted?_digits n)) nofun
    simpa using h
  rw [htrim, (finite?_of_denoted? (denoted?_digits n)).1] at hv
  obtain ⟨m, hm, rfl⟩ := Option.map_eq_some_iff.1 hv
  have hlog : 0 ≤ Int.log 10 m.toRat := by
    rcases Nat.eq_zero_or_pos n with rfl | hpos
    · rw [Nat.cast_zero, Magnitude.nearest?_of_lt le_rfl (two_zpow_pos _)] at hm
      cases hm
      simp [Magnitude.toRat]
    · have hone := Magnitude.one_le_toRat_of_nearest? (by exact_mod_cast hpos) hm
      rw [Int.log_of_one_le_right 10 hone]
      exact Int.natCast_nonneg _
  exact not_cannotWrite_of_log_nonneg hprecision m.toRat_nonneg hlog hcannot

end Directive

end DeviceMessages
