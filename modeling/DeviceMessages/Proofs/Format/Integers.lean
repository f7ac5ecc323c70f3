import DeviceMessages.Proofs.Decimal.Positional
import DeviceMessages.Proofs.Format.Padding
import DeviceMessages.Validator

/-!
# Integers that are written and read back

An integer conversion writes the number that it reads in the value, whatever its flags, its width
and its precision are: the text, without the blanks around it and without a base prefix, is the same
number in the base of the conversion again (`KeepsInteger`). Only zero with the precision 0 is
written without digits.

A text that is written has three layers, and each has its own statement here. The innermost is the
body, which is the digits of the number after some zeros (`exists_integerText_body`). A sign or a
base prefix stands before it (`integerText_sign`), and the field is filled up around that
(`trim_padNumber`), with zeros directly before the body at most.

## Main result

* `render_keeps_integer` — the text of every integer has its number, its prefix and its least number
  of digits, and writing it once more changes nothing.
-/

namespace DeviceMessages

open Decimal
open Text (isBlank trim)

/-! ## What is to be kept -/

def Conversion.base : Conversion → Nat
  | .octal => 8
  | .hex _ => 16
  | _ => 10

/-- The base prefix of a text, and the text after it. -/
def splitMarker : List Char → List Char × List Char
  | '0' :: 'x' :: cs => (['0', 'x'], cs)
  | '0' :: 'X' :: cs => (['0', 'X'], cs)
  | cs => ([], cs)

namespace Directive

variable {d : Directive} {value : List Char} {n : Int}

/-- The integer that an integer conversion reads in a value. -/
def integerOf? (d : Directive) (value : List Char) : Option Int :=
  let cs := trim value
  match d.conversion with
  | .signed => signed64? cs
  | .unsigned | .octal | .hex _ =>
    ((unsigned64? cs).map fun (m : Nat) => (m : Int)).or (signed64? cs)
  | _ => none

/-- The integer that a text without a base prefix is in the base of the conversion. Only signed
conversions have a sign. -/
def readBack? (d : Directive) (cs : List Char) : Option Int :=
  match d.conversion with
  | .signed => integer? cs
  | conversion => (numberIn? conversion.base cs).map fun (m : Nat) => (m : Int)

/-- The base prefix of an integer: the alternate form of a hexadecimal number other than zero has
one. -/
def marker (d : Directive) (n : Int) : List Char :=
  match d.conversion with
  | .hex .lower => if d.flags.alternate ∧ n ≠ 0 then ['0', 'x'] else []
  | .hex .upper => if d.flags.alternate ∧ n ≠ 0 then ['0', 'X'] else []
  | _ => []

/-- What the text that is written for an integer has in common with it. -/
structure KeepsInteger (d : Directive) (n : Int) (text : List Char) : Prop where
  /-- The text is the integer again, or for unsigned conversions the word with the same bits. -/
  reads : d.readBack? (splitMarker (trim text)).2 =
    some (if d.conversion = .signed then n else n % 2 ^ 64)
  /-- There are as many digits as the precision asks for. -/
  precise : d.precision.getD 0 ≤
    (splitMarker (trim text)).2.countP (isDigitIn d.conversion.base)
  /-- The alternate form of an octal number starts with a zero. -/
  octal : d.conversion = .octal → d.flags.alternate = true → (trim text).head? = some '0'
  /-- A signed number is one for the validator of integers. -/
  accepted : d.conversion = .signed → Validator.isInteger.accepts (String.ofList text) = true
  /-- Writing the text once more changes nothing. -/
  stable : d.conversion = .signed ∨ d.conversion = .unsigned → d.render text = some text

/-! ## The number that is written -/

/-- The magnitude that is written for an integer: its own, or that of the word with the same bits.
-/
def magnitudeOf (d : Directive) (n : Int) : Nat :=
  if d.conversion = .signed then n.natAbs else (n % (wordSize : Int)).toNat

/-- Whether a minus sign is written for an integer. -/
def isNegative (d : Directive) (n : Int) : Bool :=
  decide (d.conversion = .signed ∧ n < 0)

theorem range_of_integerOf? (h : d.integerOf? value = some n) :
    -0x8000000000000000 ≤ n ∧ n < (wordSize : Int) ∧
      (d.conversion = .signed → n < 0x8000000000000000) := by
  have hsize : (wordSize : Int) = 0x10000000000000000 := rfl
  have hwords : ((unsigned64? (trim value)).map fun (m : Nat) => (m : Int)).or
        (signed64? (trim value)) = some n →
      -0x8000000000000000 ≤ n ∧ n < (wordSize : Int) := by
    intro hread
    rcases Option.or_eq_some_iff.1 hread with hword | ⟨_, hsigned⟩
    · obtain ⟨m, hm, rfl⟩ := Option.map_eq_some_iff.1 hword
      have hlt := (unsigned64?_eq_some_iff.1 hm).2
      omega
    · have hrange := (signed64?_eq_some_iff.1 hsigned).2
      omega
  unfold integerOf? at h
  cases hconversion : d.conversion with
  | signed =>
      rw [hconversion] at h
      have hrange := (signed64?_eq_some_iff.1 h).2
      omega
  | unsigned | octal | hex =>
      rw [hconversion] at h
      have hrange := hwords h
      exact ⟨hrange.1, hrange.2, nofun⟩
  | fixed | exponent | general | text | character =>
      rw [hconversion] at h
      cases h

/-- The word that an unsigned conversion takes a text for is the one with the same bits as the
integer that it reads. -/
theorem word?_eq (cs : List Char) :
    word? cs = (((unsigned64? cs).map fun (m : Nat) => (m : Int)).or (signed64? cs)).map
      fun n => (n % (wordSize : Int)).toNat := by
  rw [word?]
  cases hword : unsigned64? cs with
  | none => rfl
  | some m =>
      have hlt := (unsigned64?_eq_some_iff.1 hword).2
      have hmod : ((m : Int) % (wordSize : Int)).toNat = m := by
        rw [Int.emod_eq_of_lt (by omega) (by omega), Int.toNat_natCast]
      simp [hmod]

/-- The text of an integer in its field: its magnitude, with a sign if there is one. -/
def integerField (d : Directive) (n : Int) : List Char :=
  d.padNumber (d.integerText (d.isNegative n) (d.magnitudeOf n))

/-- Every integer can be written. -/
theorem render_of_integerOf? (h : d.integerOf? value = some n) :
    d.render value = some (d.integerField n) := by
  have hnumber : d.number? value = some (.integer (d.isNegative n) (d.magnitudeOf n)) := by
    unfold integerOf? at h
    unfold number? isNegative magnitudeOf
    cases hconversion : d.conversion with
    | signed =>
        rw [hconversion] at h
        simp [show signed64? (trim value) = some n from h]
    | unsigned | octal | hex =>
        rw [hconversion] at h
        simp [word?_eq, show _ = some n from h]
    | fixed | exponent | general | text | character =>
        rw [hconversion] at h
        cases h
  rw [render, hnumber]
  rfl

/-! ## The body of the number -/

variable {m : Nat}

/-- The digits of an integer are its digits in the base of the conversion, in one case or the
other. -/
theorem exists_baseDigits (d : Directive) (m : Nat) :
    ∃ write, KeepsDigits write ∧
      d.baseDigits m = (Nat.toDigits d.conversion.base m).map write := by
  cases hconversion : d.conversion with
  | hex letters =>
      cases letters with
      | lower => exact ⟨id, keepsDigits_id, by simp [baseDigits, Conversion.base, hconversion]⟩
      | upper =>
          exact ⟨Char.toUpper, keepsDigits_toUpper, by
            simp [baseDigits, Conversion.base, hconversion]⟩
  | signed | unsigned | octal | fixed | exponent | general | text | character =>
      exact ⟨id, keepsDigits_id, by simp [baseDigits, Conversion.base, hconversion, digits]⟩

theorem exists_body_eq (d : Directive) (negative : Bool) (m : Nat) :
    ∃ zeros, (d.integerText negative m).body =
      List.replicate zeros '0' ++ d.integerDigits m := by
  cases hconversion : d.conversion with
  | octal =>
      by_cases hzero : d.flags.alternate = true ∧ (d.integerDigits m).head? ≠ some '0'
      · exact ⟨1, by simp [integerText, hconversion, hzero]⟩
      · exact ⟨0, by simp [integerText, hconversion, hzero]⟩
  | signed | unsigned | hex | fixed | exponent | general | text | character =>
      exact ⟨0, by simp [integerText, hconversion]⟩

/-- The body of an integer is its digits after some zeros, and there are as many characters as the
precision asks for. -/
theorem exists_integerText_body (h : ¬ (d.precision = some 0 ∧ m = 0)) (negative : Bool) :
    ∃ zeros, (d.integerText negative m).body = List.replicate zeros '0' ++ d.baseDigits m ∧
      d.precision.getD 0 ≤ (d.integerText negative m).body.length := by
  have hdigits : ∃ zeros, d.integerDigits m = List.replicate zeros '0' ++ d.baseDigits m ∧
      d.precision.getD 0 ≤ (d.integerDigits m).length := by
    unfold integerDigits
    cases hprecision : d.precision with
    | none => exact ⟨0, rfl, Nat.zero_le _⟩
    | some p =>
        have hnot : ¬ (p = 0 ∧ m = 0) := by
          rintro ⟨rfl, hm⟩
          exact h ⟨hprecision, hm⟩
        dsimp only
        rw [if_neg hnot]
        refine ⟨p - (d.baseDigits m).length, rfl, ?_⟩
        rw [List.length_append, List.length_replicate, Option.getD_some]
        omega
  obtain ⟨extra, hbody⟩ := d.exists_body_eq negative m
  obtain ⟨zeros, hzeros, hlength⟩ := hdigits
  refine ⟨extra + zeros, ?_, ?_⟩
  · rw [hbody, hzeros, ← List.replicate_append_replicate, List.append_assoc]
  · rw [hbody, List.length_append]
    omega

/-- With the precision 0, zero has no digits but the leading zero of the alternate octal form. -/
theorem integerText_body_of_none (hprecision : d.precision = some 0) (negative : Bool) :
    (d.integerText negative 0).body =
      if d.conversion = .octal ∧ d.flags.alternate = true then ['0'] else [] := by
  have hdigits : d.integerDigits 0 = [] := by simp [integerDigits, hprecision]
  cases hconversion : d.conversion <;> simp [integerText, hconversion, hdigits]

/-- The alternate form of an octal number starts with a zero. -/
theorem head?_body_of_octal (hoctal : d.conversion = .octal) (halternate : d.flags.alternate = true)
    (negative : Bool) : (d.integerText negative m).body.head? = some '0' := by
  by_cases hzero : (d.integerDigits m).head? = some '0'
  · simp [integerText, hoctal, halternate, hzero]
  · simp [integerText, hoctal, halternate, hzero]

/-! ## The sign and the prefix -/

/-- What stands before the body is a sign for signed conversions and the base prefix for others. -/
theorem integerText_sign (d : Directive) (negative : Bool) (m : Nat) :
    (d.integerText negative m).sign =
      if d.conversion = .signed then d.signText negative else d.marker m := by
  cases hconversion : d.conversion with
  | hex letters => cases letters <;> simp [integerText, marker, hconversion]
  | signed | unsigned | octal | fixed | exponent | general | text | character =>
      simp [integerText, marker, hconversion]

/-- Texts without the letter of a prefix have no prefix. -/
theorem splitMarker_of_notMem {cs : List Char} (hx : 'x' ∉ cs) (hX : 'X' ∉ cs) :
    splitMarker cs = ([], cs) := by
  unfold splitMarker
  split
  · simp at hx
  · simp at hX
  · rfl

/-- The prefix of an integer is found before digits. -/
theorem splitMarker_marker {cs : List Char} (hx : 'x' ∉ cs) (hX : 'X' ∉ cs) (n : Int) :
    splitMarker (d.marker n ++ cs) = (d.marker n, cs) := by
  have hnone := splitMarker_of_notMem hx hX
  unfold marker
  split
  · split
    · rfl
    · exact hnone
  · split
    · rfl
    · exact hnone
  · exact hnone

/-- A sign that is a blank is lost with the blanks around the number. -/
theorem trim_signText (d : Directive) (negative : Bool) :
    trim (d.signText negative) =
      if negative then ['-'] else if d.flags.plus then ['+'] else [] := by
  unfold signText
  split
  · rfl
  · split
    · rfl
    · split <;> rfl

/-- A sign is a blank or none of its characters is. -/
theorem signText_blanks (d : Directive) (negative : Bool) :
    (∀ c ∈ d.signText negative, isBlank c = true) ∨
      ∀ c ∈ d.signText negative, isBlank c = false := by
  unfold signText
  split_ifs
  · exact .inr (List.forall_mem_singleton.2 rfl)
  · exact .inr (List.forall_mem_singleton.2 rfl)
  · exact .inl (List.forall_mem_singleton.2 rfl)
  · exact .inr nofun

/-- A sign is written with blanks only or with none at all, and so is a prefix. -/
theorem sign_blanks (d : Directive) (negative : Bool) (m : Nat) :
    (∀ c ∈ (d.integerText negative m).sign, isBlank c = true) ∨
      ∀ c ∈ (d.integerText negative m).sign, isBlank c = false := by
  rw [integerText_sign]
  split
  · exact d.signText_blanks negative
  · right
    have hmarker : ∀ letter, isBlank letter = false → ∀ c ∈ ['0', letter], isBlank c = false :=
      fun letter hletter => List.forall_mem_cons.2 ⟨rfl, List.forall_mem_singleton.2 hletter⟩
    unfold marker
    split
    · split
      · exact hmarker 'x' rfl
      · exact nofun
    · split
      · exact hmarker 'X' rfl
      · exact nofun
    · exact nofun

/-! ## The text -/

theorem base_bounds (conversion : Conversion) : 1 < conversion.base ∧ conversion.base ≤ 16 := by
  unfold Conversion.base
  split <;> decide

/-- The body, after any zeros, is the number in the base of the conversion. -/
theorem numberIn?_body (h : ¬ (d.precision = some 0 ∧ m = 0)) (negative : Bool) (zeros : Nat) :
    numberIn? d.conversion.base (List.replicate zeros '0' ++ (d.integerText negative m).body) =
      some m := by
  obtain ⟨k, hbody, _⟩ := exists_integerText_body h negative
  obtain ⟨write, hwrite, hdigits⟩ := d.exists_baseDigits m
  obtain ⟨hlt, hle⟩ := base_bounds d.conversion
  rw [hbody, hdigits, ← List.append_assoc, List.replicate_append_replicate]
  exact numberIn?_leadingZeros hlt hle hwrite _ m

/-- The same for the readers of decimal numerals. -/
theorem numeral?_body (h : ¬ (d.precision = some 0 ∧ m = 0))
    (hten : d.conversion = .signed ∨ d.conversion = .unsigned) (negative : Bool) (zeros : Nat) :
    numeral? (List.replicate zeros '0' ++ (d.integerText negative m).body) = some m := by
  obtain ⟨k, hbody, _⟩ := exists_integerText_body h negative
  have hdigits : d.baseDigits m = digits m := by
    rcases hten with hsigned | hunsigned
    · simp [baseDigits, hsigned]
    · simp [baseDigits, hunsigned]
  rw [hbody, hdigits, ← List.append_assoc, List.replicate_append_replicate]
  exact numeral?_leadingZeros _ m

/-- The body, after any zeros, has digits only. -/
theorem isDigitIn_body (d : Directive) (negative : Bool) (m zeros : Nat) :
    ∀ c ∈ List.replicate zeros '0' ++ (d.integerText negative m).body,
      isDigitIn d.conversion.base c = true := by
  have hzero : isDigitIn d.conversion.base '0' = true :=
    isDigitIn_zero (base_bounds d.conversion).1
  by_cases hnone : d.precision = some 0 ∧ m = 0
  · obtain ⟨hprecision, rfl⟩ := hnone
    rw [integerText_body_of_none hprecision]
    refine List.forall_mem_append.2 ⟨List.forall_mem_replicate.2 (.inr hzero), ?_⟩
    split
    · exact List.forall_mem_singleton.2 hzero
    · exact nofun
  · exact isDigitIn_of_numberIn? (numberIn?_body hnone negative zeros)

/-- What stands before the digits, apart from a base prefix and a blank for a sign. -/
def frontOf (d : Directive) (n : Int) : List Char :=
  if d.conversion = .signed then
    if d.isNegative n then ['-'] else if d.flags.plus then ['+'] else []
  else []

theorem magnitudeOf_eq_zero_iff (h : d.integerOf? value = some n) :
    d.magnitudeOf n = 0 ↔ n = 0 := by
  obtain ⟨hlow, hhigh, hsigned⟩ := range_of_integerOf? h
  have hsize : (wordSize : Int) = 0x10000000000000000 := rfl
  unfold magnitudeOf
  split
  · exact Int.natAbs_eq_zero
  · rw [hsize] at hhigh ⊢
    omega

/-- What is written of an integer that has digits has digits as well. -/
theorem hasDigits_magnitudeOf (h : d.integerOf? value = some n)
    (hnone : ¬ (d.precision = some 0 ∧ n = 0)) :
    ¬ (d.precision = some 0 ∧ d.magnitudeOf n = 0) := by
  rwa [magnitudeOf_eq_zero_iff h]

/-- Unsigned conversions write the word with the same bits. -/
theorem natCast_magnitudeOf (hnot : d.conversion ≠ .signed) :
    (d.magnitudeOf n : Int) = n % 2 ^ 64 := by
  have hsize : (wordSize : Int) = 2 ^ 64 := rfl
  rw [magnitudeOf, if_neg hnot, hsize]
  omega

theorem magnitudeOf_lt (hnot : d.conversion ≠ .signed) : d.magnitudeOf n < wordSize := by
  have hword := natCast_magnitudeOf (n := n) hnot
  have hsize : (wordSize : Int) = 2 ^ 64 := rfl
  omega

/-- The word itself is written as it is. -/
theorem magnitudeOf_natCast {m : Nat} (hm : m < wordSize) : d.magnitudeOf (m : Int) = m := by
  unfold magnitudeOf
  split
  · exact Int.natAbs_natCast m
  · rw [Int.emod_eq_of_lt (by omega) (by omega), Int.toNat_natCast]

theorem marker_magnitudeOf (h : d.integerOf? value = some n) :
    d.marker (d.magnitudeOf n) = d.marker n := by
  have hzero : (d.magnitudeOf n : Int) = 0 ↔ n = 0 := by
    rw [Int.natCast_eq_zero]
    exact magnitudeOf_eq_zero_iff h
  simp only [marker, ne_eq, hzero]

/-- The text of an integer without the blanks around it: the base prefix, the sign, and digits. -/
theorem exists_trim_integerField (h : d.integerOf? value = some n) :
    ∃ zeros, trim (d.integerField n) = d.marker n ++ (d.frontOf n ++ (List.replicate zeros '0' ++
      (d.integerText (d.isNegative n) (d.magnitudeOf n)).body)) := by
  have hbody : ∀ c ∈ (d.integerText (d.isNegative n) (d.magnitudeOf n)).body,
      isBlank c = false := by
    intro c hc
    exact (isDigitIn_facts (d.isDigitIn_body _ _ 0 c hc)).1
  obtain ⟨zeros, htrim, _⟩ := d.trim_padNumber (d.sign_blanks _ _) hbody
  refine ⟨zeros, ?_⟩
  rw [integerField, htrim, integerText_sign, frontOf]
  by_cases hsigned : d.conversion = .signed
  · have hmarker : d.marker n = [] := by simp [marker, hsigned]
    rw [if_pos hsigned, if_pos hsigned, trim_signText, hmarker, List.nil_append]
  · have htrimmed : trim (d.marker n) = d.marker n := by
      unfold marker
      split
      · split <;> rfl
      · split <;> rfl
      · rfl
    rw [if_neg hsigned, if_neg hsigned, marker_magnitudeOf h, htrimmed, List.nil_append]

/-- The base prefix of the text of an integer, and what follows it. -/
theorem exists_splitMarker (h : d.integerOf? value = some n) :
    ∃ zeros, splitMarker (trim (d.integerField n)) = (d.marker n,
      d.frontOf n ++ (List.replicate zeros '0' ++
        (d.integerText (d.isNegative n) (d.magnitudeOf n)).body)) := by
  obtain ⟨zeros, htrim⟩ := exists_trim_integerField h
  have hfront : ∀ c, c = 'x' ∨ c = 'X' → c ∉ d.frontOf n := by
    intro c hc
    unfold frontOf
    split
    · split
      · rcases hc with rfl | rfl <;> decide
      · split
        · rcases hc with rfl | rfl <;> decide
        · exact List.not_mem_nil
    · exact List.not_mem_nil
  have hnot : ∀ c, c = 'x' ∨ c = 'X' → c ∉ d.frontOf n ++ (List.replicate zeros '0' ++
      (d.integerText (d.isNegative n) (d.magnitudeOf n)).body) := by
    intro c hc hmem
    rcases List.mem_append.1 hmem with hmem | hmem
    · exact hfront c hc hmem
    · have hfacts := isDigitIn_facts (d.isDigitIn_body _ _ zeros c hmem)
      rcases hc with hx | hX
      · exact hfacts.2.1 hx
      · exact hfacts.2.2.1 hX
  exact ⟨zeros, by rw [htrim, splitMarker_marker (hnot _ (.inl rfl)) (hnot _ (.inr rfl))]⟩

/-! ## What is kept -/

/-- A signed number is read back with its sign. -/
theorem integer?_frontOf (hsigned : d.conversion = .signed) {ds : List Char}
    (hds : numeral? ds = some (d.magnitudeOf n)) : integer? (d.frontOf n ++ ds) = some n := by
  rw [magnitudeOf, if_pos hsigned] at hds
  rw [frontOf, if_pos hsigned]
  by_cases hnegative : n < 0
  · have hminus : d.isNegative n = true := by simp [isNegative, hsigned, hnegative]
    have hvalue : -(n.natAbs : Int) = n := by omega
    rw [if_pos hminus, List.singleton_append, (integer?_of_sign hds).1, hvalue]
  · have hplain : ¬ d.isNegative n = true := by simp [isNegative, hnegative]
    have hvalue : (n.natAbs : Int) = n := by omega
    rw [if_neg hplain]
    by_cases hplus : d.flags.plus = true
    · rw [if_pos hplus, List.singleton_append, (integer?_of_sign hds).2, hvalue]
    · rw [if_neg hplus, List.nil_append, (integer?_of_numeral? hds).2, hvalue]

theorem signed64?_trim_integerField (hsigned : d.conversion = .signed)
    (h : d.integerOf? value = some n) (hnone : ¬ (d.precision = some 0 ∧ n = 0)) :
    signed64? (trim (d.integerField n)) = some n := by
  obtain ⟨zeros, htrim⟩ := exists_trim_integerField h
  obtain ⟨hlow, _, hhigh⟩ := range_of_integerOf? h
  have hmarker : d.marker n = [] := by simp [marker, hsigned]
  have hnot := hasDigits_magnitudeOf h hnone
  have hdigits := numeral?_body hnot (.inl hsigned) (d.isNegative n) zeros
  refine signed64?_eq_some_iff.2 ⟨?_, hlow, hhigh hsigned⟩
  rw [htrim, hmarker, List.nil_append]
  exact integer?_frontOf hsigned hdigits

/-- An unsigned decimal number is read back as the word. -/
theorem unsigned64?_trim_integerField (hunsigned : d.conversion = .unsigned)
    (h : d.integerOf? value = some n) (hnone : ¬ (d.precision = some 0 ∧ n = 0)) :
    unsigned64? (trim (d.integerField n)) = some (d.magnitudeOf n) := by
  obtain ⟨zeros, htrim⟩ := exists_trim_integerField h
  have hmarker : d.marker n = [] := by simp [marker, hunsigned]
  have hfront : d.frontOf n = [] := by simp [frontOf, hunsigned]
  have hnot := hasDigits_magnitudeOf h hnone
  have hdigits := numeral?_body hnot (.inr hunsigned) (d.isNegative n) zeros
  refine unsigned64?_eq_some_iff.2 ⟨?_, ?_⟩
  · rw [htrim, hmarker, hfront]
    exact (integer?_of_numeral? hdigits).1
  · exact magnitudeOf_lt (by rw [hunsigned]; nofun)

/-- What follows the base prefix is read back as the integer, or as the word with the same bits. -/
theorem readBack?_integerField (h : d.integerOf? value = some n)
    (hnone : ¬ (d.precision = some 0 ∧ n = 0)) :
    d.readBack? (splitMarker (trim (d.integerField n))).2 =
      some (if d.conversion = .signed then n else n % 2 ^ 64) := by
  obtain ⟨zeros, hsplit⟩ := exists_splitMarker h
  have hnot := hasDigits_magnitudeOf h hnone
  have hnumber := numberIn?_body hnot (d.isNegative n) zeros
  rw [hsplit]
  by_cases hsigned : d.conversion = .signed
  · have hdigits := numeral?_body hnot (.inl hsigned) (d.isNegative n) zeros
    rw [if_pos hsigned]
    simp only [readBack?, hsigned]
    exact integer?_frontOf hsigned hdigits
  · have hfront : d.frontOf n = [] := by simp [frontOf, hsigned]
    have hread : ∀ cs, d.readBack? cs =
        (numberIn? d.conversion.base cs).map fun (m : Nat) => (m : Int) := by
      intro cs
      unfold readBack?
      split
      · next hs => exact absurd hs hsigned
      · rfl
    rw [if_neg hsigned, hfront, List.nil_append, hread, hnumber, Option.map_some,
      natCast_magnitudeOf hsigned]

/-- The text of an integer that has digits keeps the integer. -/
theorem keepsInteger_integerField (h : d.integerOf? value = some n)
    (hnone : ¬ (d.precision = some 0 ∧ n = 0)) : d.KeepsInteger n (d.integerField n) := by
  refine ⟨readBack?_integerField h hnone, ?_, ?_, ?_, ?_⟩
  · obtain ⟨zeros, hsplit⟩ := exists_splitMarker h
    have hnot := hasDigits_magnitudeOf h hnone
    obtain ⟨_, _, hlength⟩ := exists_integerText_body hnot (d.isNegative n)
    have hall := List.countP_eq_length.2 (d.isDigitIn_body (d.isNegative n) (d.magnitudeOf n) 0)
    rw [List.replicate_zero, List.nil_append] at hall
    rw [hsplit, List.countP_append, List.countP_append]
    omega
  · intro hoctal halternate
    obtain ⟨zeros, htrim⟩ := exists_trim_integerField h
    have hmarker : d.marker n = [] := by simp [marker, hoctal]
    have hfront : d.frontOf n = [] := by simp [frontOf, hoctal]
    rw [htrim, hmarker, hfront]
    cases zeros with
    | zero => exact head?_body_of_octal hoctal halternate _
    | succ zeros => rfl
  · intro hsigned
    show (signed64? (trim (String.ofList (d.integerField n)).toList)).isSome = true
    rw [String.toList_ofList, signed64?_trim_integerField hsigned h hnone]
    rfl
  · intro hten
    rcases hten with hsigned | hunsigned
    · have hagain : d.integerOf? (d.integerField n) = some n := by
        simp only [integerOf?, hsigned]
        exact signed64?_trim_integerField hsigned h hnone
      exact render_of_integerOf? hagain
    · -- the word is written like the integer, although it may be another number
      have hagain : d.integerOf? (d.integerField n) = some (d.magnitudeOf n : Int) := by
        simp [integerOf?, hunsigned, unsigned64?_trim_integerField hunsigned h hnone]
      have hsame : d.magnitudeOf (d.magnitudeOf n : Int) = d.magnitudeOf n :=
        magnitudeOf_natCast (magnitudeOf_lt (by rw [hunsigned]; nofun))
      have hplain : ∀ k, d.isNegative k = false := by simp [isNegative, hunsigned]
      rw [render_of_integerOf? hagain, integerField, hsame, hplain, ← hplain n]
      rfl

/-- With the precision 0, the text of zero has no digit but the leading zero of the alternate octal
form. -/
theorem filter_isDigitIn_integerField (h : d.integerOf? value = some 0)
    (hprecision : d.precision = some 0) :
    (d.integerField 0).filter (isDigitIn 16) =
      if d.conversion = .octal ∧ d.flags.alternate = true then ['0'] else [] := by
  have hmagnitude : d.magnitudeOf 0 = 0 := (magnitudeOf_eq_zero_iff h).2 rfl
  have hnegative : d.isNegative 0 = false := by simp [isNegative]
  obtain ⟨before, zeros, after, hpad, hzeros⟩ := d.padNumber_eq (d.integerText false 0)
  have hfill : (d.integerText false 0).zeroFill = false := by
    unfold integerText
    rw [hprecision]
    split <;> rfl
  have hspaces : ∀ k, (List.replicate k ' ').filter (isDigitIn 16) = [] := by
    intro k
    rw [List.filter_replicate]
    rfl
  have hsign : (d.integerText false 0).sign.filter (isDigitIn 16) = [] := by
    rw [integerText_sign]
    split
    · unfold signText
      rw [if_neg Bool.false_ne_true]
      split
      · rfl
      · split <;> rfl
    · have hmarker : d.marker 0 = [] := by
        unfold marker
        split <;> simp
      rw [Int.natCast_zero, hmarker]
      rfl
  rw [integerField, hmagnitude, hnegative, hpad, hzeros hfill]
  simp only [List.filter_append, hspaces, hsign, List.replicate_zero, List.nil_append,
    List.append_nil]
  rw [integerText_body_of_none hprecision]
  split <;> rfl

/-- Every integer has a text. It has a base prefix exactly if the alternate form of its conversion
has one and the integer is not zero. It keeps the integer, except that zero with the precision 0
has no digits, or only the leading zero of the alternate octal form. -/
theorem render_keeps_integer (d : Directive) (value : List Char) (n : Int)
    (hn : d.integerOf? value = some n) :
    ∃ text, d.render value = some text ∧
      (splitMarker (trim text)).1 = d.marker n ∧
      (¬ (d.precision = some 0 ∧ n = 0) → d.KeepsInteger n text) ∧
      (d.precision = some 0 ∧ n = 0 → text.filter (isDigitIn 16) =
        if d.conversion = .octal ∧ d.flags.alternate = true then ['0'] else []) := by
  refine ⟨d.integerField n, render_of_integerOf? hn, ?_, keepsInteger_integerField hn, ?_⟩
  · obtain ⟨zeros, hsplit⟩ := exists_splitMarker hn
    rw [hsplit]
  · intro hnone
    obtain ⟨hprecision, rfl⟩ := hnone
    exact filter_isDigitIn_integerField hn hprecision

/-- The directive `%+022d`. -/
def filledSigned : Directive := ⟨⟨false, true, false, true, false⟩, some 22, none, .signed⟩

/-- The directive `%-#20.17X`. -/
def preciseHex : Directive := ⟨⟨true, false, false, false, true⟩, some 20, some 17, .hex .upper⟩

/-- The directive `%#03.0o`. -/
def bareOctal : Directive := ⟨⟨false, false, false, true, true⟩, some 3, some 0, .octal⟩

/-- The least number of 64 bits has the zeros that fill its field after its sign, minus one is the
largest hexadecimal word after a prefix, and zero with the precision 0 is one octal digit. -/
theorem render_keeps_integer_extremes :
    (filledSigned.render "-9223372036854775808".toList =
        some "-009223372036854775808".toList ∧
      filledSigned.KeepsInteger (-9223372036854775808) "-009223372036854775808".toList) ∧
    (preciseHex.render " -1".toList = some "0X0FFFFFFFFFFFFFFFF ".toList ∧
      (splitMarker (trim "0X0FFFFFFFFFFFFFFFF ".toList)).1 = preciseHex.marker (-1) ∧
      preciseHex.KeepsInteger (-1) "0X0FFFFFFFFFFFFFFFF ".toList) ∧
    (bareOctal.render "+0".toList = some "  0".toList ∧
      "  0".toList.filter (isDigitIn 16) = ['0']) := by
  have hlowest : filledSigned.render "-9223372036854775808".toList =
      some "-009223372036854775808".toList := by
    decide +kernel
  have hword : preciseHex.render " -1".toList = some "0X0FFFFFFFFFFFFFFFF ".toList := by
    decide +kernel
  have hzero : bareOctal.render "+0".toList = some "  0".toList := by decide +kernel
  obtain ⟨lowest, hl, -, hkeepsLowest, -⟩ := render_keeps_integer filledSigned
    "-9223372036854775808".toList (-9223372036854775808) (by decide +kernel)
  obtain ⟨word, hw, hmarker, hkeepsWord, -⟩ := render_keeps_integer preciseHex " -1".toList (-1)
    (by decide +kernel)
  obtain ⟨zero, hz, -, -, hdigits⟩ := render_keeps_integer bareOctal "+0".toList 0
    (by decide +kernel)
  cases Option.some.inj (hlowest.symm.trans hl)
  cases Option.some.inj (hword.symm.trans hw)
  cases Option.some.inj (hzero.symm.trans hz)
  exact ⟨⟨hlowest, hkeepsLowest (by decide)⟩, ⟨hword, hmarker, hkeepsWord (by decide)⟩, hzero,
    hdigits ⟨rfl, rfl⟩⟩

end Directive

end DeviceMessages
