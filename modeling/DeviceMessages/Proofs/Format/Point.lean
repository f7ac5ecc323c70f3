import DeviceMessages.Proofs.Format.Measured

/-!
# The point of the alternate form

With the flag for the alternate form a measured value has a decimal point even where no digits come
after it, and for the fixed and the exponent notation that is all that the flag does
(`HasAlternateForm`).

Only the fixed notation adds the point by itself. The other two have one exactly if there are
digits after it. In the exponent notation there are none with the precision 0. In the general
notation their number depends on the exponent of the rounded value: six digits are enough for six
places before the point, and then none is left for the fraction (`LacksPoint`). And a number that
has too many places is not written in any form.

## Main result

* `hasAlternateForm_iff` — the values that are written in the alternate form as it should be, and
  what is written for the others.
-/

namespace DeviceMessages

open Decimal
open Text (trim)
open Directive (notMem_of_writesExponent)

/-- A text with one point more, and with no other. -/
def AddsPoint (shorter longer : List Char) : Prop :=
  ∃ before after, shorter = before ++ after ∧ longer = before ++ '.' :: after ∧ '.' ∉ shorter

/-! ## Points in a mantissa and in an exponent -/

theorem Decimal.Mantissa.count_point_text (m : Mantissa) :
    m.text.count '.' = if m.fraction = [] then 0 else 1 := by
  have hdigits : ∀ {ds : List Char}, (∀ c ∈ ds, c.isDigit = true) → ds.count '.' = 0 := by
    intro ds hds
    refine List.count_eq_zero.2 fun hmem => ?_
    cases hds '.' hmem
  rw [text, List.count_append, hdigits m.isDigit_whole, Nat.zero_add]
  split
  · rfl
  · rw [List.count_cons_self, hdigits m.isDigit_fraction]

theorem count_point_exponentSuffix (letters : LetterCase) (e : ℤ) :
    (exponentSuffix letters e).count '.' = 0 :=
  List.count_eq_zero.2
    (notMem_of_writesExponent rfl (by decide) (writesExponent_exponentSuffix letters e))

/-- A number in the general notation has a point exactly if there are digits after it. -/
theorem Decimal.IsGeneral.count_point {letters : LetterCase} {keepZeros : Bool} {P : Nat} {r : ℚ}
    {m : Mantissa} {suffix : List Char} (h : IsGeneral letters keepZeros P r m suffix) :
    (m.text ++ suffix).count '.' = if m.fraction = [] then 0 else 1 := by
  have hsuffix : suffix.count '.' = 0 := by
    refine List.count_eq_zero.2 fun hmem => ?_
    have hne : suffix ≠ [] := List.ne_nil_of_mem hmem
    exact notMem_of_writesExponent rfl (by decide) (h.scientific hne).2 hmem
  rw [List.count_append, m.count_point_text, hsuffix, Nat.add_zero]

/-- When zeros are kept, the exponent and the number of digits show whether there is a digit after
the point. -/
theorem Decimal.IsGeneral.fraction_eq_nil_iff {letters : LetterCase} {P : Nat} {r : ℚ}
    {m : Mantissa} {suffix : List Char} (h : IsGeneral letters true P r m suffix) :
    m.fraction = [] ↔
      if -4 ≤ Int.log 10 r ∧ Int.log 10 r < P then Int.log 10 r = P - 1 else P = 1 := by
  have hlength := h.kept rfl
  rw [← List.length_eq_zero_iff]
  by_cases hsuffix : suffix = []
  · rw [if_pos hsuffix] at hlength
    rw [if_pos (h.fixed_iff.1 hsuffix)]
    omega
  · rw [if_neg hsuffix] at hlength
    rw [if_neg (mt h.fixed_iff.2 hsuffix)]
    omega

/-- Where there is no point, there are no zeros after it that could be kept. -/
theorem Decimal.generalNotation_of_notMem {letters : LetterCase} {precision : Nat} {x : ℚ}
    {body : List Char} (h : generalNotation letters true precision x = some body)
    (hpoint : '.' ∉ body) : generalNotation letters false precision x = some body := by
  have hstrip : ∀ {cs : List Char}, '.' ∉ cs → stripFractionZeros cs = cs := by
    intro cs hcs
    rw [stripFractionZeros, if_neg]
    rwa [List.contains_iff_mem]
  unfold generalNotation at h ⊢
  simp only [if_true, Bool.false_eq_true, if_false, id] at h ⊢
  generalize (if precision = 0 then 1 else precision) = significant at h ⊢
  split at h
  · next hin =>
      rw [if_pos hin]
      split at h
      · next hfew =>
          cases h
          rw [if_pos hfew, hstrip hpoint]
      · cases h
  · next hout =>
      cases h
      rw [if_neg hout, hstrip fun hmem => hpoint (List.mem_append_left _ hmem)]

namespace Directive

variable {d : Directive} {value body : List Char} {v : Binary64} {x r : ℚ}

/-! ## The alternate form -/

/-- The directive without the flag for the alternate form. -/
def withoutAlternate (d : Directive) : Directive :=
  { d with flags := { d.flags with alternate := false } }

/-- What a measured value is in the alternate form. -/
structure HasAlternateForm (d : Directive) (value : List Char) : Prop where
  /-- There is a text with one point, however wide the field is. -/
  count_point : ∃ text, d.render value = some text ∧ text.count '.' = 1
  /-- It is what the flag adds to a number without places, when the field has no width. -/
  added : (∀ letters, d.conversion ≠ .general letters) → d.precision = some 0 →
    ∃ shorter longer, d.withoutAlternate.withoutWidth.render value = some shorter ∧
      d.withoutWidth.render value = some longer ∧ AddsPoint shorter longer
  /-- The flag adds nothing to a number with places. -/
  same : (∀ letters, d.conversion ≠ .general letters) → d.precision ≠ some 0 →
    d.withoutAlternate.withoutWidth.render value = d.withoutWidth.render value

/-- The exponent notation or the general notation has no digits after the point. -/
def LacksPoint (d : Directive) (x : ℚ) : Prop :=
  match d.conversion with
  | .exponent _ => d.precision = some 0
  | .general _ => ∃ r, IsRounded d.significant x r ∧
      if -4 ≤ Int.log 10 r ∧ Int.log 10 r < d.significant then Int.log 10 r = d.significant - 1
      else d.significant = 1
  | _ => False

theorem places_eq_zero_iff (d : Directive) : d.places = 0 ↔ d.precision = some 0 := by
  unfold places
  cases d.precision with
  | none => simp
  | some p => simp

/-! ## The parts of a field -/

theorem measuredText_withoutAlternate (d : Directive) (v : Binary64) :
    d.withoutAlternate.measuredText v =
      (d.withoutAlternate.measuredBody v.magnitude.toRat).map fun body =>
        ⟨d.signText v.isBelowZero, body, true⟩ := rfl

theorem padNumber_withoutAlternate (d : Directive) :
    d.withoutAlternate.padNumber = d.padNumber := rfl

theorem notMem_signText (d : Directive) (negative : Bool) : '.' ∉ d.signText negative := by
  unfold signText
  split_ifs <;> decide

/-- The points of a number are those of its body. -/
theorem count_point_padNumber (d : Directive) (negative : Bool) (body : List Char) :
    (d.padNumber ⟨d.signText negative, body, true⟩).count '.' = body.count '.' := by
  have hsign : (d.signText negative).count '.' = 0 :=
    List.count_eq_zero.2 (d.notMem_signText negative)
  rw [d.count_padNumber _ (by decide) (by decide), hsign, Nat.zero_add]

/-- Without a width, a number is its sign and its body. -/
theorem render_withoutWidth (hconversion : d.conversion.isMeasured = true)
    (hv : finite? (trim value) = some v) :
    d.withoutWidth.render value =
      (d.measuredBody v.magnitude.toRat).map (d.signText v.isBelowZero ++ ·) := by
  have hnumber : d.withoutWidth.measuredText v = d.measuredText v := rfl
  rw [render_of_finite? (d := d.withoutWidth) hconversion hv, hnumber, measuredText,
    Option.map_map]
  congr 1
  funext body
  exact d.padNumber_withoutWidth _

/-! ## The point of each notation -/

/-- A number without digits after the point does not have too many of them. -/
theorem LacksPoint.not_cannotWrite (h : d.LacksPoint x) : ¬ d.CannotWrite x := by
  rintro ⟨⟨letters, hgeneral⟩, r', hr', hlow, hmany⟩
  rw [LacksPoint, hgeneral] at h
  obtain ⟨r, hr, hlacks⟩ := h
  rw [hr.unique hr'] at hlacks
  split at hlacks <;> omega

/-- The alternate form has a point in the body of a number exactly if it does not lack one. -/
theorem count_point_of_measuredBody (hconversion : d.conversion.isMeasured = true)
    (halternate : d.flags.alternate = true) (hx : 0 ≤ x) (hbody : d.measuredBody x = some body) :
    (¬ d.LacksPoint x → body.count '.' = 1) ∧ (d.LacksPoint x → body.count '.' = 0) := by
  have hdigits : ∀ n, (Mantissa.ofDigits d.places n).fraction = [] ↔ d.places = 0 := by
    intro n
    rw [← List.length_eq_zero_iff, Mantissa.length_fraction_ofDigits]
  unfold LacksPoint
  rcases Conversion.notation_of_isMeasured hconversion with ⟨letters, h⟩ | ⟨letters, h⟩ | h
  · rw [measuredBody_exponent h] at hbody
    cases hbody
    rw [h, List.count_append, Mantissa.count_point_text, count_point_exponentSuffix, Nat.add_zero]
    simp only [hdigits, places_eq_zero_iff]
    exact ⟨fun hsome => if_neg hsome, fun hnone => if_pos hnone⟩
  · obtain ⟨r, m, suffix, hr, hgeneral, htext⟩ := exists_of_measuredBody_general h hx hbody
    have hcount := hgeneral.count_point
    rw [halternate] at hgeneral
    rw [h, htext, hcount]
    simp only [hgeneral.fraction_eq_nil_iff]
    constructor
    · intro hsome
      exact if_neg fun hnone => hsome ⟨r, hr, hnone⟩
    · rintro ⟨r', hr', hnone⟩
      rw [hr'.unique hr] at hnone
      exact if_pos hnone
  · rw [measuredBody_fixed h] at hbody
    cases hbody
    rw [h, List.count_append, Mantissa.count_point_text]
    simp only [hdigits, halternate, true_and]
    refine ⟨fun _ => ?_, False.elim⟩
    split_ifs <;> rfl

/-- Where the alternate form lacks its point, the flag changes nothing. -/
theorem measuredBody_withoutAlternate_of_lacksPoint (hx : 0 ≤ x)
    (halternate : d.flags.alternate = true) (hlacks : d.LacksPoint x) :
    d.withoutAlternate.measuredBody x = d.measuredBody x := by
  cases h : d.conversion with
  | exponent letters =>
      rw [measuredBody_exponent h, measuredBody_exponent (d := d.withoutAlternate) h]
      rfl
  | general letters =>
      have hconversion : d.conversion.isMeasured = true := by rw [h]; rfl
      obtain ⟨body, hbody⟩ := Option.ne_none_iff_exists'.1
        (mt (d.measuredBody_eq_none_iff hx).1 hlacks.not_cannotWrite)
      have hnone := List.count_eq_zero.1
        ((count_point_of_measuredBody hconversion halternate hx hbody).2 hlacks)
      rw [hbody, measuredBody_general (d := d.withoutAlternate) h]
      rw [measuredBody_general h, halternate] at hbody
      exact generalNotation_of_notMem hbody hnone
  | fixed | signed | unsigned | octal | hex | text | character =>
      rw [LacksPoint, h] at hlacks
      exact hlacks.elim

/-- With places, the flag changes nothing in the fixed and in the exponent notation. -/
theorem measuredBody_withoutAlternate (hgeneral : ∀ letters, d.conversion ≠ .general letters)
    (hplaces : d.places ≠ 0) (hconversion : d.conversion.isMeasured = true) (x : ℚ) :
    d.withoutAlternate.measuredBody x = d.measuredBody x := by
  rcases Conversion.notation_of_isMeasured hconversion with ⟨letters, h⟩ | ⟨letters, h⟩ | h
  · rw [measuredBody_exponent h, measuredBody_exponent (d := d.withoutAlternate) h]
    rfl
  · exact absurd h (hgeneral letters)
  · have hplaces' : d.withoutAlternate.places ≠ 0 := hplaces
    rw [measuredBody_fixed h, measuredBody_fixed (d := d.withoutAlternate) h,
      if_neg fun hpoint => hplaces hpoint.2, if_neg fun hpoint => hplaces' hpoint.2]
    rfl

/-- Without places, the flag adds the point of the fixed notation. -/
theorem addsPoint_render_fixed (h : d.conversion = .fixed) (halternate : d.flags.alternate = true)
    (hplaces : d.places = 0) (hv : finite? (trim value) = some v) :
    ∃ shorter longer, d.withoutAlternate.withoutWidth.render value = some shorter ∧
      d.withoutWidth.render value = some longer ∧ AddsPoint shorter longer := by
  have hconversion : d.conversion.isMeasured = true := by rw [h]; rfl
  obtain ⟨m, hm⟩ : ∃ m, m = Mantissa.ofDigits d.places
      (roundHalfEven (v.magnitude.toRat * (10 : ℚ) ^ (d.places : ℤ))).toNat := ⟨_, rfl⟩
  have hfraction : m.fraction = [] := by
    rw [← List.length_eq_zero_iff, hm, Mantissa.length_fraction_ofDigits, hplaces]
  have hwith : d.measuredBody v.magnitude.toRat = some (m.text ++ ['.']) := by
    rw [measuredBody_fixed h, if_pos ⟨halternate, hplaces⟩, hm]
  have hwithout : d.withoutAlternate.measuredBody v.magnitude.toRat = some m.text := by
    have hoff : ¬ (d.withoutAlternate.flags.alternate = true ∧ d.withoutAlternate.places = 0) :=
      fun hpoint => Bool.false_ne_true hpoint.1
    rw [measuredBody_fixed (d := d.withoutAlternate) h, if_neg hoff, List.append_nil, hm]
    rfl
  refine ⟨d.signText v.isBelowZero ++ m.text, d.signText v.isBelowZero ++ (m.text ++ ['.']),
    ?_, ?_, d.signText v.isBelowZero ++ m.text, [], by simp, by simp, ?_⟩
  · rw [render_withoutWidth (d := d.withoutAlternate) hconversion hv, hwithout]
    rfl
  · rw [render_withoutWidth hconversion hv, hwith]
    rfl
  · rw [List.mem_append, not_or]
    refine ⟨d.notMem_signText v.isBelowZero, List.count_eq_zero.1 ?_⟩
    rw [m.count_point_text, if_pos hfraction]

/-! ## Which values have their point -/

/-- What has no point where the flag asks for one is written as it is without the flag. -/
theorem exists_render_of_lacksPoint (hconversion : d.conversion.isMeasured = true)
    (halternate : d.flags.alternate = true) (hv : finite? (trim value) = some v)
    (hlacks : d.LacksPoint v.magnitude.toRat) :
    ∃ text, d.render value = some text ∧ '.' ∉ text ∧
      d.withoutAlternate.render value = some text := by
  have hx := v.magnitude.toRat_nonneg
  obtain ⟨body, hbody, hrender⟩ :=
    exists_body_of_not_cannotWrite hconversion hv hlacks.not_cannotWrite
  have hnone := (count_point_of_measuredBody hconversion halternate hx hbody).2 hlacks
  refine ⟨_, hrender, List.count_eq_zero.1 ?_, ?_⟩
  · rw [count_point_padNumber, hnone]
  · rw [render_of_finite? (d := d.withoutAlternate) hconversion hv,
      measuredText_withoutAlternate, padNumber_withoutAlternate,
      measuredBody_withoutAlternate_of_lacksPoint hx halternate hlacks, hbody]
    rfl

theorem hasAlternateForm_of_not_lacksPoint (hconversion : d.conversion.isMeasured = true)
    (halternate : d.flags.alternate = true) (hv : finite? (trim value) = some v)
    (hpoint : ¬ d.LacksPoint v.magnitude.toRat) (hcan : ¬ d.CannotWrite v.magnitude.toRat) :
    d.HasAlternateForm value := by
  obtain ⟨body, hbody, hrender⟩ := exists_body_of_not_cannotWrite hconversion hv hcan
  have hone := (count_point_of_measuredBody hconversion halternate v.magnitude.toRat_nonneg
    hbody).1 hpoint
  refine ⟨⟨_, hrender, by rw [count_point_padNumber, hone]⟩, ?_, ?_⟩
  · intro hgeneral hprecision
    rcases Conversion.notation_of_isMeasured hconversion with ⟨letters, h⟩ | ⟨letters, h⟩ | h
    · rw [LacksPoint, h] at hpoint
      exact absurd hprecision hpoint
    · exact absurd h (hgeneral letters)
    · exact addsPoint_render_fixed h halternate (d.places_eq_zero_iff.2 hprecision) hv
  · intro hgeneral hprecision
    have hplain := render_withoutWidth (d := d.withoutAlternate) hconversion hv
    rw [hplain, render_withoutWidth hconversion hv, measuredBody_withoutAlternate hgeneral
      (mt d.places_eq_zero_iff.1 hprecision) hconversion]
    rfl

/-- A measured value has the alternate form unless it cannot be written, or its notation has no
digits after the point and is not the fixed one. Then there is no point at all, and the flag
changes nothing. -/
theorem hasAlternateForm_iff (d : Directive) (value : List Char) (v : Binary64)
    (hconversion : d.conversion.isMeasured = true) (halternate : d.flags.alternate = true)
    (hv : finite? (trim value) = some v) :
    (d.HasAlternateForm value ↔
      ¬ d.LacksPoint v.magnitude.toRat ∧ ¬ d.CannotWrite v.magnitude.toRat) ∧
    (d.LacksPoint v.magnitude.toRat → ∃ text, d.render value = some text ∧ '.' ∉ text ∧
      d.withoutAlternate.render value = some text) ∧
    (d.CannotWrite v.magnitude.toRat → d.render value = none) := by
  have hlacking := fun hlacks : d.LacksPoint v.magnitude.toRat =>
    exists_render_of_lacksPoint hconversion halternate hv hlacks
  have hrefused := (render_eq_none_iff_cannotWrite hconversion hv).2
  refine ⟨⟨?_, ?_⟩, hlacking, hrefused⟩
  · intro hform
    obtain ⟨text, htext, hcount⟩ := hform.count_point
    constructor
    · intro hlacks
      obtain ⟨text', htext', hnone, -⟩ := hlacking hlacks
      rw [htext] at htext'
      cases htext'
      rw [List.count_eq_zero.2 hnone] at hcount
      cases hcount
    · intro hcannot
      rw [hrefused hcannot] at htext
      cases htext
  · rintro ⟨hpoint, hcan⟩
    exact hasAlternateForm_of_not_lacksPoint hconversion halternate hv hpoint hcan

/-- The directive `%#08.0f`. -/
def wholeFixed : Directive := ⟨.ofChars ['#', '0'], some 8, some 0, .fixed⟩

/-- The directive `%#g`. -/
def alternateGeneral : Directive := ⟨.ofChars ['#'], none, none, .general .lower⟩

/-- The directive `%#.0e`. -/
def wholeExponent : Directive := ⟨.ofChars ['#'], none, some 0, .exponent .lower⟩

/-- A number with six places before the point has no others in the general notation. -/
theorem lacksPoint_alternateGeneral : alternateGeneral.LacksPoint 123456 := by
  have hlog : Int.log 10 (123456 : ℚ) = 5 := log_eq_of_bounds (by norm_num) (by norm_num)
  have hunit : lastUnit 6 (123456 : ℚ) = 1 := by
    rw [lastUnit, hlog]
    norm_num
  have hrounded : IsRounded 6 123456 123456 := by
    refine ⟨123456, ?_, ?_⟩
    · rw [hunit]
      norm_num [IsNearestEven]
    · rw [hunit]
      norm_num
  refine ⟨123456, hrounded, ?_⟩
  rw [hlog]
  decide

/-- The directive `%#100.65535g`. -/
def finestAlternate : Directive :=
  { finestGeneral with flags := { finestGeneral.flags with alternate := true } }

/-- The fixed notation of `-2.5` without places has its point, the general notation of `123456`
has none, and a ten thousandth has no text when all its places are asked for. -/
theorem hasAlternateForm_iff_whole :
    (wholeFixed.render "-2.5".toList = some "-000002.".toList ∧
      wholeFixed.HasAlternateForm "-2.5".toList) ∧
    (alternateGeneral.render "123456".toList = some "123456".toList ∧
      ¬ alternateGeneral.HasAlternateForm "123456".toList) ∧
    finestAlternate.render "0.0001".toList = none ∧
      ¬ finestAlternate.HasAlternateForm "0.0001".toList := by
  have hfixed := hasAlternateForm_iff wholeFixed "-2.5".toList ⟨true, ⟨5629499534213120, -51⟩⟩
    rfl rfl (by decide +kernel)
  have hgeneral := hasAlternateForm_iff alternateGeneral "123456".toList
    ⟨false, ⟨8483831719919616, -36⟩⟩ rfl rfl (by decide +kernel)
  have hvalue : Magnitude.toRat ⟨8483831719919616, -36⟩ = 123456 := by
    norm_num [Magnitude.toRat]
  rw [hvalue] at hgeneral
  obtain ⟨v, hv, hcannot⟩ := refuses_finestGeneral
  have hfinest := hasAlternateForm_iff finestAlternate "0.0001".toList v rfl rfl hv
  refine ⟨⟨by decide +kernel, hfixed.1.2 ⟨id, not_cannotWrite ?_⟩⟩, ⟨by decide +kernel, ?_⟩,
    hfinest.2.2 hcannot, fun hform => (hfinest.1.1 hform).2 hcannot⟩
  · intro letters hletters
    cases hletters
  · exact fun hform => (hgeneral.1.1 hform).1 lacksPoint_alternateGeneral

/-- The exponent notation of `1` without places is `1e+00`. -/
theorem not_hasAlternateForm_one : ¬ wholeExponent.HasAlternateForm "1".toList := by
  have hrender : wholeExponent.render "1".toList = some "1e+00".toList := by decide +kernel
  intro hform
  obtain ⟨text, htext, hpoint⟩ := hform.count_point
  rw [hrender] at htext
  cases htext
  exact absurd hpoint (by decide)

end Directive

end DeviceMessages
