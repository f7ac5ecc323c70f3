import DeviceMessages.Proofs.Decimal.Mantissa
import DeviceMessages.Proofs.Format.Padding

/-!
# Measured values in the general notation

The general notation writes a number with `P` significant digits, at least one. The number that its
text denotes is the value rounded once to these digits (`IsRounded`), whichever way it is written,
so it is the number that the exponent notation writes with as many digits. The exponent of the
*rounded* number decides between the two ways and settles how many digits are after the point
(`IsGeneral`): `9.9999995` with six digits has the exponent 1.

What is written without an exponent is rounded at another place than what the exponent was found
with. That it is the same number all the same is `roundHalfEven_at_exponent`.

A number below one has more places than digits when it is written without an exponent, and there may
be more of them than can be written (`ExceedsPlaces`). This is the only way in which writing a value
can fail, so the values that no directive writes are known by their rounded number as well.

## Main results

* `exists_generalNotation` — the general notation of a number is that of its rounded value.
* `render_eq_none_iff` — the values that a directive cannot write.
* `render_general_rounds_once` — the general notation of a value in its field.
-/

namespace DeviceMessages

open Text (isBlank trim)

namespace Decimal

/-! ## What the general notation is -/

/-- An exponent as it is written: its letter, a sign always, and two digits or more. -/
def WritesExponent (letters : LetterCase) (e : ℤ) (cs : List Char) : Prop :=
  ∃ ds, cs = letters.exponentLetter :: (if e < 0 then '-' else '+') :: ds ∧
    2 ≤ ds.length ∧ numeral? ds = some e.natAbs

/-- The general notation of a number with `P` significant digits, which is a mantissa and then an
exponent or nothing. -/
structure IsGeneral (letters : LetterCase) (keepZeros : Bool) (P : Nat) (rounded : ℚ)
    (m : Mantissa) (suffix : List Char) : Prop where
  /-- The text denotes the number. -/
  denotes : denoted? (m.text ++ suffix) = some rounded
  /-- There is no exponent exactly if it is neither too small nor too large. -/
  fixed_iff : suffix = [] ↔ -4 ≤ Int.log 10 rounded ∧ Int.log 10 rounded < P
  /-- One digit is before the point of a number with an exponent. -/
  scientific : suffix ≠ [] →
    m.whole.length = 1 ∧ WritesExponent letters (Int.log 10 rounded) suffix
  /-- Neither zeros nor a point are left at the end of the mantissa. -/
  stripped : keepZeros = false → m.fraction.getLast? ≠ some '0' ∧ m.text.getLast? ≠ some '.'
  /-- Or else all digits of the fraction are there. -/
  kept : keepZeros = true → (m.fraction.length : ℤ) =
    if suffix = [] then (P : ℤ) - 1 - Int.log 10 rounded else (P : ℤ) - 1

/-- A rounded number with `P` digits has no exponent in the general notation, and more places than a
number can be written with. -/
def ExceedsPlaces (P : Nat) (rounded : ℚ) : Prop :=
  -4 ≤ Int.log 10 rounded ∧ (maxPlaces : ℤ) < P - 1 - Int.log 10 rounded

theorem writesExponent_exponentSuffix (letters : LetterCase) (e : ℤ) :
    WritesExponent letters e (exponentSuffix letters e) := by
  refine ⟨_, exponentSuffix_eq letters e, ?_, numeral?_paddedDigits 2 e.natAbs⟩
  rw [length_paddedDigits]
  omega

/-! ## The digits that are written -/

variable {letters : LetterCase} {keepZeros : Bool} {places : Nat} {x : ℚ}

/-- The digits of the rounded value with a point after the first are its value at its exponent. -/
theorem toRat_ofDigits_mul (places : Nat) (r : Rounded) :
    (Mantissa.ofDigits places r.digits).toRat * (10 : ℚ) ^ r.exponent = r.toRat places := by
  rw [Mantissa.toRat_ofDigits, Rounded.toRat, mul_assoc, ← ten_zpow_add]
  congr 2
  ring

/-- With as many places as the rounded value has below its point, the fixed notation writes the
digits of the rounded value. -/
theorem fixedNotation_at_exponent (hx : 0 ≤ x) {p : Nat}
    (hp : (p : ℤ) = places - (Rounded.ofRat places x).exponent) :
    fixedNotation p x = (Mantissa.ofDigits p (Rounded.ofRat places x).digits).text := by
  rw [fixedNotation, roundHalfEven_at_exponent hx hp, Int.toNat_natCast]
  exact Mantissa.text_ofDigits p _

theorem toRat_ofDigits_at_exponent {r : Rounded} {p : Nat} (hp : (p : ℤ) = places - r.exponent) :
    (Mantissa.ofDigits p r.digits).toRat = r.toRat places := by
  rw [Mantissa.toRat_ofDigits, Rounded.toRat, hp, neg_sub]

/-! ## Both ways to write a number -/

/-- Without an exponent, the digits of the rounded value are in the general notation. -/
theorem isGeneral_fixed (hx : 0 ≤ x) {p : Nat}
    (hp : (p : ℤ) = places - (Rounded.ofRat places x).exponent)
    (hlow : -4 ≤ (Rounded.ofRat places x).exponent)
    (hhigh : (Rounded.ofRat places x).exponent < ((places + 1 : Nat) : ℤ)) :
    IsGeneral letters keepZeros (places + 1) ((Rounded.ofRat places x).toRat places)
      ((Mantissa.ofDigits p (Rounded.ofRat places x).digits).stripUnless keepZeros) [] := by
  obtain ⟨_, hlog, _⟩ := isRounded_ofRat places hx
  refine ⟨?_, ?_, ?_, Mantissa.getLast?_stripUnless keepZeros _, ?_⟩
  · rw [List.append_nil, denoted?_text, Mantissa.toRat_stripUnless, toRat_ofDigits_at_exponent hp]
  · rw [hlog]
    exact ⟨fun _ => ⟨hlow, hhigh⟩, fun _ => rfl⟩
  · intro hne
    exact absurd rfl hne
  · intro hkeep
    rw [Mantissa.fraction_stripUnless keepZeros _ hkeep, Mantissa.length_fraction_ofDigits,
      if_pos rfl, hlog, hp]
    push_cast
    ring

/-- With an exponent, they are if the exponent is too small or too large for the other way. -/
theorem isGeneral_scientific (hx : 0 ≤ x)
    (hout : ¬ (-4 ≤ (Rounded.ofRat places x).exponent ∧
      (Rounded.ofRat places x).exponent < ((places + 1 : Nat) : ℤ))) :
    IsGeneral letters keepZeros (places + 1) ((Rounded.ofRat places x).toRat places)
      ((Mantissa.ofDigits places (Rounded.ofRat places x).digits).stripUnless keepZeros)
      (exponentSuffix letters (Rounded.ofRat places x).exponent) := by
  obtain ⟨_, hlog, hdigits⟩ := isRounded_ofRat places hx
  have hne : exponentSuffix letters (Rounded.ofRat places x).exponent ≠ [] := by
    rw [exponentSuffix_eq]
    exact List.cons_ne_nil _ _
  refine ⟨?_, ?_, ?_, Mantissa.getLast?_stripUnless keepZeros _, ?_⟩
  · rw [denoted?_text_exponentSuffix, Mantissa.toRat_stripUnless, toRat_ofDigits_mul]
  · rw [hlog]
    exact ⟨fun hnil => absurd hnil hne, fun hin => absurd hin hout⟩
  · intro _
    rw [Mantissa.whole_stripUnless, hlog]
    exact ⟨Mantissa.length_whole_ofDigits hdigits, writesExponent_exponentSuffix letters _⟩
  · intro hkeep
    rw [Mantissa.fraction_stripUnless keepZeros _ hkeep, Mantissa.length_fraction_ofDigits,
      if_neg hne]
    push_cast
    ring

/-- The general notation of a number is that of its rounded value, if it can be written. -/
theorem exists_generalNotation (letters : LetterCase) (keepZeros : Bool) (precision : Nat)
    (hx : 0 ≤ x) :
    ∃ rounded m suffix, IsRounded (max 1 precision) x rounded ∧
      IsGeneral letters keepZeros (max 1 precision) rounded m suffix ∧
      (ExceedsPlaces (max 1 precision) rounded →
        generalNotation letters keepZeros precision x = none) ∧
      (¬ ExceedsPlaces (max 1 precision) rounded →
        generalNotation letters keepZeros precision x = some (m.text ++ suffix)) ∧
      denoted? (exponentNotation letters (max 1 precision - 1) x) = some rounded := by
  obtain ⟨places, hplaces⟩ : ∃ places, max 1 precision = places + 1 :=
    ⟨max 1 precision - 1, by omega⟩
  have hsignificant : (if precision = 0 then 1 else precision) = places + 1 := by
    split <;> omega
  obtain ⟨hrounded, hlog, -⟩ := isRounded_ofRat places hx
  have hexponent : denoted? (exponentNotation letters places x) =
      some ((Rounded.ofRat places x).toRat places) := by
    show denoted? (withPoint places (paddedDigits (places + 1) _) ++ _) = _
    rw [Mantissa.text_ofDigits, denoted?_text_exponentSuffix, toRat_ofDigits_mul]
  unfold generalNotation ExceedsPlaces
  simp only [hsignificant, hplaces, Nat.add_sub_cancel]
  by_cases hin : -4 ≤ (Rounded.ofRat places x).exponent ∧
      (Rounded.ofRat places x).exponent < ((places + 1 : Nat) : ℤ)
  · have hp : (((places + 1 : Nat) : ℤ) - 1 - (Rounded.ofRat places x).exponent).toNat =
        (places : ℤ) - (Rounded.ofRat places x).exponent := by
      omega
    refine ⟨_, _, [], hrounded, isGeneral_fixed hx hp hin.1 hin.2, ?_, ?_, hexponent⟩
    · rw [hlog, if_pos hin]
      rintro ⟨-, hmany⟩
      rw [if_neg (by omega)]
    · rw [hlog, if_pos hin]
      intro hfew
      have hle : (((places + 1 : Nat) : ℤ) - 1 - (Rounded.ofRat places x).exponent).toNat ≤
          maxPlaces := by
        omega
      rw [if_pos hle, fixedNotation_at_exponent hx hp, Mantissa.text_stripUnless, List.append_nil]
  · refine ⟨_, _, _, hrounded, isGeneral_scientific hx hin, ?_, ?_, hexponent⟩
    · rw [hlog]
      rintro ⟨hlow, hmany⟩
      exact absurd ⟨hlow, by omega⟩ hin
    · intro _
      rw [if_neg hin, Mantissa.text_ofDigits, Mantissa.text_stripUnless]

theorem Magnitude.toRat_nonneg (v : Magnitude) : 0 ≤ v.toRat :=
  mul_nonneg v.significand.cast_nonneg (zpow_nonneg (by norm_num) v.exponent)

end Decimal

namespace Directive

open Decimal

/-- The number of digits of the general notation: six unless a precision is given, and at least
one. -/
def significant (d : Directive) : Nat :=
  max 1 (d.precision.getD 6)

variable {d : Directive} {value : List Char} {v : Binary64} {x : ℚ} {letters : LetterCase}

/-! ## What cannot be written -/

/-- The general notation of a number has too many places. -/
def CannotWrite (d : Directive) (x : ℚ) : Prop :=
  (∃ letters, d.conversion = .general letters) ∧
    ∃ rounded, IsRounded d.significant x rounded ∧ ExceedsPlaces d.significant rounded

/-- The value reads as a number that cannot be written. -/
def Refuses (d : Directive) (value : List Char) : Prop :=
  ∃ v, finite? (trim value) = some v ∧ d.CannotWrite v.magnitude.toRat

theorem not_cannotWrite (h : ∀ letters, d.conversion ≠ .general letters) : ¬ d.CannotWrite x :=
  fun hcannot => hcannot.1.elim h

/-- Without a negative exponent there are no more places than digits after the first. -/
theorem not_cannotWrite_of_log_nonneg (hprecision : d.precision.getD 6 ≤ maxPlaces + 1)
    (hx : 0 ≤ x) (hlog : 0 ≤ Int.log 10 x) : ¬ d.CannotWrite x := by
  obtain ⟨places, hplaces⟩ : ∃ places, d.significant = places + 1 :=
    ⟨d.significant - 1, by unfold significant; omega⟩
  rintro ⟨-, r, hr, -, hmany⟩
  rw [hplaces] at hr hmany
  have hraised := (hr.log_bounds hx).1
  have hle : d.significant ≤ maxPlaces + 1 := by
    rw [significant]
    exact max_le (Nat.le_add_left 1 maxPlaces) hprecision
  omega

theorem measuredBody_general (h : d.conversion = .general letters) (x : ℚ) :
    d.measuredBody x = generalNotation letters d.flags.alternate (d.precision.getD 6) x := by
  rw [measuredBody, h]

theorem measuredBody_eq_none_iff (d : Directive) (hx : 0 ≤ x) :
    d.measuredBody x = none ↔ d.CannotWrite x := by
  by_cases h : ∃ letters, d.conversion = .general letters
  · obtain ⟨letters, hconversion⟩ := h
    obtain ⟨r, m, suffix, hr, -, hnone, hsome, -⟩ :=
      exists_generalNotation letters d.flags.alternate (d.precision.getD 6) hx
    rw [measuredBody_general hconversion]
    constructor
    · intro hno
      refine ⟨⟨letters, hconversion⟩, r, hr, ?_⟩
      by_contra hfew
      rw [hsome hfew] at hno
      cases hno
    · rintro ⟨-, r', hr', hmany⟩
      rw [hr'.unique hr] at hmany
      exact hnone hmany
  · have hsome : d.measuredBody x ≠ none := by
      unfold measuredBody
      split
      · nofun
      · next letters hconversion => exact absurd ⟨letters, hconversion⟩ h
      · nofun
    exact ⟨fun hno => absurd hno hsome, fun hcannot => absurd hcannot.1 h⟩

/-- The general notation of a number that can be written. -/
theorem exists_of_measuredBody_general (h : d.conversion = .general letters) (hx : 0 ≤ x)
    {body : List Char} (hbody : d.measuredBody x = some body) :
    ∃ r m suffix, IsRounded d.significant x r ∧
      IsGeneral letters d.flags.alternate d.significant r m suffix ∧ body = m.text ++ suffix := by
  obtain ⟨r, m, suffix, hr, hgeneral, hnone, hsome, -⟩ :=
    exists_generalNotation letters d.flags.alternate (d.precision.getD 6) hx
  refine ⟨r, m, suffix, hr, hgeneral, ?_⟩
  rw [measuredBody_general h] at hbody
  by_cases hmany : ExceedsPlaces (max 1 (d.precision.getD 6)) r
  · cases (hnone hmany).symm.trans hbody
  · exact Option.some.inj (hbody.symm.trans (hsome hmany))

theorem measuredText_eq_none_iff (d : Directive) (v : Binary64) :
    d.measuredText v = none ↔ d.CannotWrite v.magnitude.toRat := by
  rw [measuredText, Option.map_eq_none_iff, d.measuredBody_eq_none_iff v.magnitude.toRat_nonneg]

/-- A number in the general notation is a measured value. -/
theorem number?_general (h : d.conversion = .general letters) (value : List Char) :
    d.number? value = (finite? (trim value)).map .measured := by
  rw [number?, h]

/-- A measured value is one of the values that read as finite numbers. -/
theorem finite?_of_number? (h : d.number? value = some (.measured v)) :
    finite? (trim value) = some v := by
  unfold number? at h
  split at h <;> simp only [Option.map_eq_some_iff, Number.measured.injEq, exists_eq_right,
    reduceCtorEq, and_false, exists_false] at h
  all_goals exact h

/-- A value is written unless it reads as a number that cannot be. -/
theorem render_eq_none_iff (d : Directive) (value : List Char) :
    d.render value = none ↔ d.Refuses value := by
  have hother : (∀ v, d.number? value ≠ some (.measured v)) → ¬ d.Refuses value := by
    rintro hnone ⟨v, hv, ⟨letters, hgeneral⟩, -⟩
    refine hnone v ?_
    rw [number?_general hgeneral, hv, Option.map_some]
  unfold render
  cases hn : d.number? value with
  | none =>
      exact ⟨nofun, fun hrefuses => absurd hrefuses (hother (by simp [hn]))⟩
  | some n =>
      rw [Option.map_eq_none_iff]
      cases n with
      | integer negative m =>
          exact ⟨nofun, fun hrefuses => absurd hrefuses (hother (by simp [hn]))⟩
      | measured v =>
          have hv := finite?_of_number? hn
          show d.measuredText v = none ↔ _
          rw [measuredText_eq_none_iff]
          constructor
          · exact fun hcannot => ⟨v, hv, hcannot⟩
          · rintro ⟨w, hw, hcannot⟩
            rw [hv] at hw
            cases hw
            exact hcannot

/-- The directive `%100.65535g`. -/
def finestGeneral : Directive :=
  ⟨⟨false, false, false, false, false⟩, some 100, some 65535, .general .lower⟩

/-- A ten thousandth is written without an exponent, and has three places more than digits. -/
theorem refuses_finestGeneral : finestGeneral.Refuses "0.0001".toList := by
  have hvalue : finite? (trim "0.0001".toList) = some ⟨false, ⟨7378697629483821, -66⟩⟩ := by
    decide +kernel
  have hlog : Int.log 10 (Magnitude.toRat ⟨7378697629483821, -66⟩) = -4 :=
    log_eq_of_bounds (by norm_num [Magnitude.toRat]) (by norm_num [Magnitude.toRat])
  have hx := Magnitude.toRat_nonneg ⟨7378697629483821, -66⟩
  have hr := (isRounded_ofRat 65534 hx).1
  obtain ⟨hlow, hhigh⟩ := hr.log_bounds hx
  rw [hlog] at hlow hhigh
  refine ⟨_, hvalue, ⟨.lower, rfl⟩, _, hr, hlow, ?_⟩
  have hmax : (maxPlaces : ℤ) = 65535 := rfl
  have hdigits : (finestGeneral.significant : ℤ) = 65535 := rfl
  omega

/-! ## What is written -/

/-- A measured value in the general notation is rounded once. Apart from its sign and from what
fills the field, its text is the general notation of the rounded value, which is the number that the
exponent notation writes with as many digits. Only a value with too many places has no text. -/
theorem render_general_rounds_once (d : Directive) (letters : LetterCase) (value : List Char)
    (v : Binary64) (hconversion : d.conversion = .general letters)
    (hv : finite? (trim value) = some v) :
    ∃ rounded m suffix, IsRounded d.significant v.magnitude.toRat rounded ∧
      IsGeneral letters d.flags.alternate d.significant rounded m suffix ∧
      (ExceedsPlaces d.significant rounded → d.render value = none) ∧
      (¬ ExceedsPlaces d.significant rounded →
        ∃ before zeros after, d.render value = some (List.replicate before ' ' ++
          (d.signText v.isBelowZero ++ List.replicate zeros '0' ++ (m.text ++ suffix)) ++
            List.replicate after ' ')) ∧
      denoted? (exponentNotation letters (d.significant - 1) v.magnitude.toRat) = some rounded := by
  obtain ⟨rounded, m, suffix, hrounded, hgeneral, hnone, hsome, hexponent⟩ :=
    exists_generalNotation letters d.flags.alternate (d.precision.getD 6)
      v.magnitude.toRat_nonneg
  have hrender : d.render value = (d.measuredText v).map d.padNumber := by
    rw [render, number?_general hconversion, hv]
    rfl
  rw [hrender, measuredText, measuredBody_general hconversion]
  refine ⟨rounded, m, suffix, hrounded, hgeneral, ?_, ?_, hexponent⟩
  · intro hmany
    rw [hnone hmany]
    rfl
  · intro hfew
    obtain ⟨before, zeros, after, hpad, -⟩ :=
      d.padNumber_eq ⟨d.signText v.isBelowZero, m.text ++ suffix, true⟩
    exact ⟨before, zeros, after, by rw [hsome hfew, ← hpad]; rfl⟩

/-- The directive `%g`. -/
def plainGeneral : Directive :=
  ⟨⟨false, false, false, false, false⟩, none, none, .general .lower⟩

/-- The directive `%#014.6G`. -/
def filledGeneral : Directive :=
  ⟨⟨false, false, false, true, true⟩, some 14, some 6, .general .upper⟩

/-- The double nearest to `9.9999995`. -/
def nearTen : Binary64 := ⟨false, ⟨5629499252738143, -49⟩⟩

/-- The double `-999999.5`. -/
def nearMillion : Binary64 := ⟨true, ⟨8589930297032704, -33⟩⟩

/-- Rounding `9.9999995` to six digits gives `10`, and rounding `999999.5` gives a number that is
too large to be written without an exponent. -/
theorem render_general_rounds_once_carries :
    (plainGeneral.render "9.9999995".toList = some "10".toList ∧
      ∃ m suffix, IsRounded 6 nearTen.magnitude.toRat 10 ∧
        IsGeneral .lower false 6 10 m suffix) ∧
    (filledGeneral.render " -999999.5".toList = some "-001.00000E+06".toList ∧
      ∃ m suffix, IsRounded 6 nearMillion.magnitude.toRat 1000000 ∧
        IsGeneral .upper true 6 1000000 m suffix) := by
  obtain ⟨ten, m, suffix, hten, hgeneral, -, -, hsame⟩ :=
    render_general_rounds_once plainGeneral .lower "9.9999995".toList nearTen rfl
      (by decide +kernel)
  obtain ⟨million, n, exponent, hmillion, hscientific, -, -, hagain⟩ :=
    render_general_rounds_once filledGeneral .upper " -999999.5".toList nearMillion rfl
      (by decide +kernel)
  have hvalue : denoted? (exponentNotation .lower 5 nearTen.magnitude.toRat) = some 10 := by
    decide +kernel
  have hlarge : denoted? (exponentNotation .upper 5 nearMillion.magnitude.toRat) =
      some 1000000 := by
    decide +kernel
  have hteneq : ten = 10 := Option.some.inj (hsame.symm.trans hvalue)
  have hmillioneq : million = 1000000 := Option.some.inj (hagain.symm.trans hlarge)
  rw [hteneq] at hten hgeneral
  rw [hmillioneq] at hmillion hscientific
  exact ⟨⟨by decide +kernel, m, suffix, hten, hgeneral⟩,
    by decide +kernel, n, exponent, hmillion, hscientific⟩

end Directive

end DeviceMessages
