import DeviceMessages.Proofs.Format.Measured
import DeviceMessages.Proofs.Format.Width
import DeviceMessages.Validator

/-!
# Measured values that are read again

What is written for a measured value denotes the number that the value is rounded to, and a reader
gets the double nearest to that number. Two things follow from it.

The field is a number again if there is such a double. Rounding to significant digits can lead
beyond the largest double, so the numeral that is written for a double may be too large for one.
Rounding to places cannot: the largest double is an integer, and rounding does not pass it. (A value
with too many places has no field that could be read.)

In the fixed notation, the double that is read need not be the one that was written. But it is no
further from the rounded number than that one, since it is the nearest, and so it is rounded to the
same number. The digits are the same again. Only the sign can change, because zero is written
without a minus sign.

## Main results

* `isNumeric_accepts_render_iff` — which fields are numbers again.
* `render_fixed_twice` — the fixed notation of what is read from it.
-/

namespace DeviceMessages

namespace Decimal

/-! ## Reading a rounded number -/

/-- The double that is read is rounded to what the double that was written was rounded to. -/
theorem isNearestEven_of_nearest? (places : Nat) {m w : Magnitude} {n : ℤ} (hm : m.IsFinite)
    (hn : IsNearestEven (m.toRat * (10 : ℚ) ^ (places : ℤ)) n)
    (hnonneg : (0 : ℚ) ≤ n * (10 : ℚ) ^ (-(places : ℤ)))
    (hw : Magnitude.nearest? (n * (10 : ℚ) ^ (-(places : ℤ))) = some w) :
    IsNearestEven (w.toRat * (10 : ℚ) ^ (places : ℤ)) n := by
  have hscale := ten_zpow_pos places
  have hdistance : ∀ y : ℚ, |y * (10 : ℚ) ^ (places : ℤ) - n| =
      |n * (10 : ℚ) ^ (-(places : ℤ)) - y| * 10 ^ (places : ℤ) := by
    intro y
    have hscaled : y * (10 : ℚ) ^ (places : ℤ) - n =
        (y - n * (10 : ℚ) ^ (-(places : ℤ))) * 10 ^ (places : ℤ) := by
      rw [sub_mul, mul_assoc, ← ten_zpow_add, neg_add_cancel, zpow_zero, mul_one]
    rw [hscaled, abs_mul, abs_of_pos hscale, abs_sub_comm]
  refine hn.of_abs_sub_le ?_
  rw [hdistance, hdistance]
  exact mul_le_mul_of_nonneg_right (Magnitude.abs_sub_le_of_nearest? hnonneg hw hm) hscale.le

theorem toRat_eq_zero_of_significand {m : Magnitude} (h : m.significand = 0) : m.toRat = 0 := by
  rw [Magnitude.toRat, h, Nat.cast_zero, zero_mul]

/-- The double that is read is zero exactly if the rounded number is. -/
theorem significand_eq_zero_iff {w : Magnitude} {n : ℤ} (places : Nat)
    (hnear : IsNearestEven (w.toRat * (10 : ℚ) ^ (places : ℤ)) n)
    (hw : Magnitude.nearest? (n * (10 : ℚ) ^ (-(places : ℤ))) = some w) :
    w.significand = 0 ↔ n = 0 := by
  constructor
  · intro hzero
    rw [toRat_eq_zero_of_significand hzero, zero_mul] at hnear
    exact hnear.unique (by norm_num [IsNearestEven])
  · intro hzero
    rw [hzero, Int.cast_zero, zero_mul, Magnitude.nearest?_of_lt le_rfl (two_zpow_pos _)] at hw
    cases hw
    rfl

end Decimal

namespace Directive

open Decimal
open Text (trim)

variable {d : Directive} {value body : List Char} {v : Binary64} {x r : ℚ}

/-! ## Numbers that are too large -/

/-- A double rounded to places is no larger than the largest double. -/
theorem Rounds.lt_overflowBound (h : d.conversion = .fixed) {m : Magnitude} (hm : m.IsFinite)
    (hr : d.Rounds m.toRat r) : r < Magnitude.overflowBound := by
  obtain ⟨n, hn, rfl⟩ := (rounds_fixed h).1 hr
  obtain ⟨bound, hbound⟩ := Magnitude.exists_largest_eq_intCast
  have hinteger : Magnitude.largest * (10 : ℚ) ^ (d.places : ℤ) =
      ((bound * 10 ^ d.places : ℤ) : ℚ) := by
    rw [hbound, zpow_natCast]
    push_cast
    rfl
  have hscaled : m.toRat * (10 : ℚ) ^ (d.places : ℤ) ≤ ((bound * 10 ^ d.places : ℤ) : ℚ) := by
    rw [← hinteger]
    exact mul_le_mul_of_nonneg_right hm.toRat_le_largest (ten_zpow_pos _).le
  have hle : (n : ℚ) ≤ Magnitude.largest * (10 : ℚ) ^ (d.places : ℤ) := by
    rw [hinteger, ← roundHalfEven_eq_iff.2 hn]
    exact_mod_cast roundHalfEven_le hscaled
  calc n * (10 : ℚ) ^ (-(d.places : ℤ))
      ≤ Magnitude.largest * (10 : ℚ) ^ (d.places : ℤ) * 10 ^ (-(d.places : ℤ)) :=
        mul_le_mul_of_nonneg_right hle (ten_zpow_pos _).le
    _ = Magnitude.largest := by
        rw [mul_assoc, ← ten_zpow_add, add_neg_cancel, zpow_zero, mul_one]
    _ < Magnitude.overflowBound := Magnitude.largest_lt_overflowBound

/-- A value that is a number and can be written is written as a number again exactly if it is not
rounded to one that is too large. In the fixed notation it can always be written, and never is. -/
theorem isNumeric_accepts_render_iff (d : Directive) (value : String)
    (hconversion : d.conversion.isMeasured = true)
    (hvalue : Validator.isNumeric.accepts value = true) :
    Validators.builtin.create "is_numeric" [] = .ok Validator.isNumeric ∧
    ∃ v r, finite? (trim value.toList) = some v ∧ d.Rounds v.magnitude.toRat r ∧
      (d.CannotWrite v.magnitude.toRat → d.render value.toList = none) ∧
      (¬ d.CannotWrite v.magnitude.toRat → ∃ text, d.render value.toList = some text ∧
        (Validator.isNumeric.accepts (String.ofList text) = true ↔
          r < Magnitude.overflowBound)) ∧
      (d.conversion = .fixed → ∃ text, d.render value.toList = some text ∧
        Validator.isNumeric.accepts (String.ofList text) = true) := by
  have hcreate : Validators.builtin.create "is_numeric" [] = .ok Validator.isNumeric := by
    simp [Validators.create, Validators.builtin, Table.insertAll, Validator.plain]
  obtain ⟨v, hv⟩ := Option.isSome_iff_exists.1 hvalue
  obtain ⟨r, hnonneg, hr, hread⟩ := exists_rounds_render hconversion hv
  have haccepts : ¬ d.CannotWrite v.magnitude.toRat → ∃ text, d.render value.toList = some text ∧
      (Validator.isNumeric.accepts (String.ofList text) = true ↔ r < Magnitude.overflowBound) := by
    intro hcan
    obtain ⟨text, htext⟩ := Option.ne_none_iff_exists'.1
      (mt (render_eq_none_iff_cannotWrite hconversion hv).1 hcan)
    refine ⟨text, htext, ?_⟩
    show (finite? (trim (String.ofList text).toList)).isSome = true ↔ _
    rw [String.toList_ofList, hread text htext, Option.isSome_map, Option.isSome_iff_ne_none, ne_eq,
      Magnitude.nearest?_eq_none_iff hnonneg, not_le]
  refine ⟨hcreate, v, r, hv, hr, (render_eq_none_iff_cannotWrite hconversion hv).2, haccepts, ?_⟩
  intro hfixed
  have hcan : ¬ d.CannotWrite v.magnitude.toRat :=
    not_cannotWrite fun letters hgeneral => by rw [hfixed] at hgeneral; cases hgeneral
  obtain ⟨text, htext, hiff⟩ := haccepts hcan
  exact ⟨text, htext, hiff.2 (hr.lt_overflowBound hfixed (isFinite_of_finite? hv))⟩

/-- The directive `%+08.1f`. -/
def signedFixed : Directive := ⟨.ofChars ['+', '0'], some 8, some 1, .fixed⟩

/-- The directive `%.0e`. -/
def oneDigit : Directive := ⟨.ofChars [], none, some 0, .exponent .lower⟩

/-- A negative number that is rounded to zero keeps its sign, and is a number, while a ten
thousandth has no text when all its places are asked for. -/
theorem isNumeric_accepts_render_iff_tenth :
    (signedFixed.render "-0.04".toList = some "-00000.0".toList ∧
      Validator.isNumeric.accepts "-00000.0" = true) ∧
    Validator.isNumeric.accepts "0.0001" = true ∧
      finestGeneral.render "0.0001".toList = none := by
  have htenth : signedFixed.render "-0.04".toList = some "-00000.0".toList := by decide +kernel
  have hnumber : Validator.isNumeric.accepts "0.0001" = true := by decide +kernel
  obtain ⟨-, -, -, -, -, -, -, hfixed⟩ :=
    isNumeric_accepts_render_iff signedFixed "-0.04" rfl (by decide +kernel)
  obtain ⟨text, htext, haccepted⟩ := hfixed rfl
  cases Option.some.inj (htenth.symm.trans htext)
  obtain ⟨-, v, -, hv, -, hnone, -, -⟩ :=
    isNumeric_accepts_render_iff finestGeneral "0.0001" rfl hnumber
  obtain ⟨w, hw, hcannot⟩ := refuses_finestGeneral
  cases Option.some.inj (hv.symm.trans hw)
  exact ⟨⟨htenth, haccepted⟩, hnumber, hnone hcannot⟩

/-- The largest double rounded to one digit is written `2e+308`, which is too large. -/
theorem not_isNumeric_accepts_render_largest :
    ¬ ∀ (d : Directive) (value : String), d.conversion.isMeasured = true →
      Validator.isNumeric.accepts value = true →
        ∀ text, d.render value.toList = some text →
          Validator.isNumeric.accepts (String.ofList text) = true := by
  intro hall
  have hrender : oneDigit.render "1.7976931348623157e308".toList = some "2e+308".toList := by
    decide +kernel
  have haccepted := hall oneDigit "1.7976931348623157e308" rfl (by decide +kernel) _ hrender
  revert haccepted
  decide +kernel

/-! ## The fixed notation twice -/

/-- The minus sign of the first text is not in the second, which has the same number with the sign
of one that is not below zero. -/
structure LosesMinus (d : Directive) (first second : List Char) : Prop where
  minus : '-' ∈ first
  gone : '-' ∉ second
  same_body : ∃ body, denoted? body = some 0 ∧ first = d.padNumber ⟨['-'], body, true⟩ ∧
    second = d.padNumber ⟨d.signText false, body, true⟩

/-- What is read from the fixed notation of a value has the sign and the digits of the value, and is
zero exactly if the value is rounded to zero. -/
theorem exists_reread (h : d.conversion = .fixed) (hv : finite? (trim value) = some v) :
    ∃ r body w, d.Rounds v.magnitude.toRat r ∧ denoted? body = some r ∧
      d.measuredBody v.magnitude.toRat = some body ∧
      finite? (trim (d.padNumber ⟨d.signText v.isBelowZero, body, true⟩)) =
        some ⟨v.isBelowZero, w⟩ ∧
      d.measuredBody w.toRat = some body ∧ (w.significand = 0 ↔ r = 0) := by
  have hconversion : d.conversion.isMeasured = true := by rw [h]; rfl
  have hm := isFinite_of_finite? hv
  obtain ⟨r, hnonneg, hr, hdenotes⟩ :=
    exists_rounds_measuredBody hconversion v.magnitude.toRat_nonneg
  have hbody := measuredBody_fixed h v.magnitude.toRat
  have hdenoted := hdenotes _ hbody
  have hsome : Magnitude.nearest? r ≠ none := by
    rw [ne_eq, Magnitude.nearest?_eq_none_iff hnonneg, not_le]
    exact hr.lt_overflowBound h hm
  obtain ⟨w, hw⟩ := Option.ne_none_iff_exists'.1 hsome
  refine ⟨r, _, w, hr, hdenoted, hbody, ?_, ?_⟩
  · rw [d.finite?_trim_padNumber v.isBelowZero true hdenoted, hw, Option.map_some]
  · obtain ⟨n, hn, hnr⟩ := (rounds_fixed h).1 hr
    have hscale := (ten_zpow_pos (-(d.places : ℤ))).ne'
    rw [hnr] at hnonneg hw
    have hnear := isNearestEven_of_nearest? d.places hm hn hnonneg hw
    constructor
    · rw [measuredBody_fixed h, roundHalfEven_eq_iff.2 hn, roundHalfEven_eq_iff.2 hnear]
    · rw [significand_eq_zero_iff d.places hnear hw, hnr, mul_eq_zero_iff_right hscale,
        Int.cast_eq_zero]

/-- Both texts have the digits of the number that the value is rounded to. -/
theorem exists_body_render_twice (h : d.conversion = .fixed) (hv : finite? (trim value) = some v) :
    ∃ r body, d.Rounds v.magnitude.toRat r ∧ denoted? body = some r ∧
      d.measuredBody v.magnitude.toRat = some body ∧
      d.render value = some (d.padNumber ⟨d.signText v.isBelowZero, body, true⟩) ∧
      d.render (d.padNumber ⟨d.signText v.isBelowZero, body, true⟩) =
        some (d.padNumber ⟨d.signText (v.isBelowZero && r != 0), body, true⟩) := by
  have hconversion : d.conversion.isMeasured = true := by rw [h]; rfl
  obtain ⟨r, body, w, hr, hdenoted, hbody, hread, hagain, hzero⟩ := exists_reread h hv
  have hsign : Binary64.isBelowZero ⟨v.isBelowZero, w⟩ = (v.isBelowZero && r != 0) := by
    have hne : (w.significand != 0) = (r != 0) := by
      rw [Bool.eq_iff_iff, bne_iff_ne, bne_iff_ne, ne_eq, ne_eq, hzero]
    rw [Binary64.isBelowZero, hne]
  refine ⟨r, body, hr, hdenoted, hbody, ?_, ?_⟩
  · exact (render_eq_some_iff hconversion hv).2 ⟨body, hbody, rfl⟩
  · refine (render_eq_some_iff hconversion hread).2 ⟨body, hagain, ?_⟩
    rw [hsign]

theorem minus_notMem_of_measuredBody (h : d.conversion = .fixed)
    (hbody : d.measuredBody x = some body) : '-' ∉ body := by
  rw [measuredBody_fixed h] at hbody
  cases hbody
  rw [List.mem_append, not_or]
  constructor
  · intro hmem
    rcases Mantissa.isDigit_or_point_of_mem_text _ '-' hmem with hdigit | hpoint
    · cases hdigit
    · cases hpoint
  · split <;> decide

theorem minus_notMem_signText (d : Directive) : '-' ∉ d.signText false := by
  rw [signText, if_neg Bool.false_ne_true]
  split_ifs <;> decide

theorem minus_mem_padNumber_iff (d : Directive) (t : NumberText) :
    '-' ∈ d.padNumber t ↔ '-' ∈ t.sign ∨ '-' ∈ t.body := by
  rw [← List.count_pos_iff, d.count_padNumber t (by decide) (by decide), ← List.count_pos_iff,
    ← List.count_pos_iff]
  omega

/-- A value that is below zero and rounded to another number is read back below zero. -/
theorem Rounds.isBelowZero_and_ne (hr : d.Rounds x r) {negative : Bool}
    (hsign : ¬ (negative = true ∧ d.Rounds x 0)) : (negative && r != 0) = negative := by
  by_cases hbelow : negative = true
  · have hne : r ≠ 0 := fun hzero => hsign ⟨hbelow, hzero ▸ hr⟩
    rw [hbelow, bne_iff_ne.2 hne]
    rfl
  · rw [Bool.eq_false_of_not_eq_true hbelow]
    rfl

/-- What is read from the fixed notation is written the same way again, except that a value below
zero that is rounded to zero is then written without its minus sign. -/
theorem render_fixed_twice (d : Directive) (value : List Char) (v : Binary64)
    (hfixed : d.conversion = .fixed) (hv : finite? (trim value) = some v) :
    ∃ first second, d.render value = some first ∧ d.render first = some second ∧
      (second = first ↔ ¬ (v.isBelowZero = true ∧ d.Rounds v.magnitude.toRat 0)) ∧
      (v.isBelowZero = true → d.Rounds v.magnitude.toRat 0 → d.LosesMinus first second) := by
  obtain ⟨r, body, hr, hdenoted, hbody, hfirst, hsecond⟩ := exists_body_render_twice hfixed hv
  have hplain := minus_notMem_of_measuredBody hfixed hbody
  have hloses : v.isBelowZero = true → d.Rounds v.magnitude.toRat 0 →
      d.LosesMinus (d.padNumber ⟨d.signText v.isBelowZero, body, true⟩)
        (d.padNumber ⟨d.signText (v.isBelowZero && r != 0), body, true⟩) := by
    intro hbelow hzero
    rw [hr.unique hzero] at hdenoted ⊢
    rw [hbelow]
    refine ⟨?_, ?_, body, hdenoted, rfl, rfl⟩
    · rw [minus_mem_padNumber_iff]
      exact .inl List.mem_cons_self
    · rw [minus_mem_padNumber_iff, not_or]
      exact ⟨d.minus_notMem_signText, hplain⟩
  refine ⟨_, _, hfirst, hsecond, ⟨?_, ?_⟩, hloses⟩
  · rintro hsame ⟨hbelow, hzero⟩
    have h := hloses hbelow hzero
    rw [hsame] at h
    exact h.gone h.minus
  · intro hsign
    rw [hr.isBelowZero_and_ne hsign]

/-- The directive `%.2f`. -/
def twoPlaces : Directive := ⟨.ofChars [], none, some 2, .fixed⟩

/-- The double nearest to `2.675` is below it, and the one nearest to `-0.04` is rounded to zero. -/
theorem render_fixed_twice_hundredths :
    (twoPlaces.render "2.675".toList = some "2.67".toList ∧
      twoPlaces.render "2.67".toList = some "2.67".toList) ∧
    (signedFixed.render "-0.04".toList = some "-00000.0".toList ∧
      signedFixed.render "-00000.0".toList = some "+00000.0".toList ∧
      signedFixed.LosesMinus "-00000.0".toList "+00000.0".toList) := by
  obtain ⟨kept, again, hkept, hagain, hsame, -⟩ := render_fixed_twice twoPlaces "2.675".toList
    ⟨false, ⟨6023564501608038, -51⟩⟩ rfl (by decide +kernel)
  obtain ⟨first, second, hfirst, hsecond, -, hloses⟩ := render_fixed_twice signedFixed
    "-0.04".toList ⟨true, ⟨5764607523034235, -57⟩⟩ rfl (by decide +kernel)
  have hcents : twoPlaces.render "2.675".toList = some "2.67".toList := by decide +kernel
  have hminus : signedFixed.render "-0.04".toList = some "-00000.0".toList := by decide +kernel
  have hplus : signedFixed.render "-00000.0".toList = some "+00000.0".toList := by decide +kernel
  cases Option.some.inj (hcents.symm.trans hkept)
  cases Option.some.inj (hminus.symm.trans hfirst)
  cases Option.some.inj (hplus.symm.trans hsecond)
  have hzero : signedFixed.Rounds (Magnitude.toRat ⟨5764607523034235, -57⟩) 0 := by
    refine (rounds_fixed rfl).2 ⟨0, roundHalfEven_eq_iff.1 (by decide +kernel), ?_⟩
    rw [Int.cast_zero, zero_mul]
  rw [hsame.2 fun hbelow => Bool.false_ne_true hbelow.1] at hagain
  exact ⟨⟨hcents, hagain⟩, hminus, hplus, hloses rfl hzero⟩

end Directive

end DeviceMessages
