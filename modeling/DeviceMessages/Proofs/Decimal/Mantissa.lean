import DeviceMessages.Proofs.Decimal.Positional
import DeviceMessages.Proofs.Decimal.Rounding
import DeviceMessages.Proofs.Text.Span

/-!
# Digits with a point among them

A mantissa is one or more digits before a decimal point, and the digits after it. The point is
written only if digits follow it. A mantissa cannot be built from other characters, so none of what
is shown here about its text has to ask what it consists of.

The value of a number that is written is the one that the reader of scientific numerals takes from
its text, as an exact rational (`denoted?`).

## Main results

* `Mantissa.denoted?_text_append` — a mantissa before an exponent denotes its value at that power
  of ten.
* `Mantissa.text_ofDigits` — digits with a point before the last of them are a mantissa.
* `Mantissa.stripFractionZeros_text` — the zeros that are taken from the end of a mantissa are those
  of its fraction.
* `exponent?_exponentSuffix` — an exponent is read back.
-/

namespace DeviceMessages.Decimal

open Text (takeWhile_run dropWhile_run)

/-! ## Numbers as they are read -/

/-- The exact value of a number in scientific writing. -/
def Scientific.toRat (s : Scientific) : ℚ :=
  valueOf s.digits * (10 : ℚ) ^ s.exponent

/-- The exact value that a text without a sign denotes as a scientific numeral. -/
def denoted? (cs : List Char) : Option ℚ :=
  (Scientific.ofChars? cs).map Scientific.toRat

theorem valueOf_append_zeros (ds : List Char) (k : Nat) :
    valueOf (ds ++ List.replicate k '0') = valueOf ds * 10 ^ k := by
  rw [valueOf, Nat.ofDigitChars_append, Nat.ofDigitChars_replicate_zero, Nat.mul_comm]
  rfl

theorem length_paddedDigits (width n : Nat) :
    (paddedDigits width n).length = max width (digits n).length := by
  rw [paddedDigits, List.length_append, List.length_replicate]
  omega

/-! ## Mantissas -/

/-- One or more digits, and digits after a decimal point. -/
structure Mantissa where
  whole : List Char
  fraction : List Char
  whole_ne : whole ≠ []
  isDigit_whole : ∀ c ∈ whole, c.isDigit = true
  isDigit_fraction : ∀ c ∈ fraction, c.isDigit = true

namespace Mantissa

/-- The digits, with a point between them if there are any after it. -/
def text (m : Mantissa) : List Char :=
  m.whole ++ if m.fraction = [] then [] else '.' :: m.fraction

/-- The value of the digits. -/
def toRat (m : Mantissa) : ℚ :=
  valueOf (m.whole ++ m.fraction) * (10 : ℚ) ^ (-(m.fraction.length : ℤ))

theorem isDigit_or_point_of_mem_text (m : Mantissa) :
    ∀ c ∈ m.text, c.isDigit = true ∨ c = '.' := by
  intro c hc
  rcases List.mem_append.1 hc with hwhole | hrest
  · exact .inl (m.isDigit_whole c hwhole)
  · split at hrest
    · cases hrest
    · rcases List.mem_cons.1 hrest with hpoint | hfraction
      · exact .inr hpoint
      · exact .inl (m.isDigit_fraction c hfraction)

theorem contains_text (m : Mantissa) : m.text.contains '.' = !m.fraction.isEmpty := by
  have hwhole : '.' ∉ m.whole := by
    intro hmem
    cases m.isDigit_whole '.' hmem
  by_cases hnone : m.fraction = []
  · simp [text, hnone, hwhole]
  · simp [text, hnone]

/-- A mantissa ends with a digit, so never with a point. -/
theorem isDigit_getLast_text (m : Mantissa) : ∀ c ∈ m.text.getLast?, c.isDigit = true := by
  intro c hc
  by_cases hnone : m.fraction = []
  · rw [text, if_pos hnone, List.append_nil] at hc
    exact m.isDigit_whole c (List.mem_of_getLast? hc)
  · rw [text, if_neg hnone, List.getLast?_append_cons, List.getLast?_cons,
      List.getLast?_eq_some_getLast hnone] at hc
    cases hc
    exact m.isDigit_fraction _ (List.getLast_mem hnone)

/-! ### Reading a mantissa -/

variable {suffix : List Char}

/-- A mantissa is read up to the character that ends it. -/
theorem ofChars?_text_append (m : Mantissa)
    (hsuffix : ∀ c ∈ suffix.head?, c.isDigit = false ∧ c ≠ '.') :
    Scientific.ofChars? (m.text ++ suffix) = (Scientific.exponent? suffix).map fun e =>
      ⟨m.whole ++ m.fraction, e - m.fraction.length⟩ := by
  have hwhole : m.whole.isEmpty = false := List.isEmpty_eq_false_iff.2 m.whole_ne
  have hstop : ∀ c ∈ suffix.head?, c.isDigit = false := fun c hc => (hsuffix c hc).1
  have hfraction : Scientific.fraction ((m.text ++ suffix).dropWhile Char.isDigit) =
        (m.fraction, suffix) ∧
      (m.text ++ suffix).takeWhile Char.isDigit = m.whole := by
    by_cases hnone : m.fraction = []
    · have hpoint : Scientific.fraction suffix = ([], suffix) := by
        unfold Scientific.fraction
        split
        · next cs => exact absurd rfl (hsuffix '.' rfl).2
        · rfl
      rw [text, if_pos hnone, List.append_nil, dropWhile_run m.isDigit_whole hstop,
        takeWhile_run m.isDigit_whole hstop, hpoint, hnone]
      exact ⟨rfl, rfl⟩
    · have hpoint : ∀ c ∈ ('.' :: (m.fraction ++ suffix)).head?, c.isDigit = false := by
        intro c hc
        cases hc
        rfl
      rw [text, if_neg hnone, List.append_assoc, List.cons_append,
        dropWhile_run m.isDigit_whole hpoint, takeWhile_run m.isDigit_whole hpoint]
      refine ⟨?_, rfl⟩
      rw [Scientific.fraction, takeWhile_run m.isDigit_fraction hstop,
        dropWhile_run m.isDigit_fraction hstop]
  simp only [Scientific.ofChars?, hfraction.1, hfraction.2, hwhole, Bool.false_and,
    Bool.false_eq_true, if_false]

/-- A mantissa before an exponent denotes its value at that power of ten. -/
theorem denoted?_text_append (m : Mantissa)
    (hsuffix : ∀ c ∈ suffix.head?, c.isDigit = false ∧ c ≠ '.') :
    denoted? (m.text ++ suffix) =
      (Scientific.exponent? suffix).map fun e => m.toRat * (10 : ℚ) ^ e := by
  rw [denoted?, ofChars?_text_append m hsuffix, Option.map_map]
  congr 1
  funext e
  show valueOf (m.whole ++ m.fraction) * (10 : ℚ) ^ (e - (m.fraction.length : ℤ)) = _
  rw [toRat, mul_assoc, ← ten_zpow_add]
  congr 2
  ring

/-! ### Writing a mantissa -/

/-- The digits of a number with a point before the last `places` of them. -/
def ofDigits (places n : Nat) : Mantissa where
  whole := (paddedDigits (places + 1) n).take ((paddedDigits (places + 1) n).length - places)
  fraction := (paddedDigits (places + 1) n).drop ((paddedDigits (places + 1) n).length - places)
  whole_ne := by
    have hlength := length_paddedDigits (places + 1) n
    rw [← List.length_pos_iff, List.length_take]
    omega
  isDigit_whole := fun c hc =>
    (isDigit_of_numeral? (numeral?_paddedDigits (places + 1) n)).1 c (List.mem_of_mem_take hc)
  isDigit_fraction := fun c hc =>
    (isDigit_of_numeral? (numeral?_paddedDigits (places + 1) n)).1 c (List.mem_of_mem_drop hc)

theorem whole_append_fraction_ofDigits (places n : Nat) :
    (ofDigits places n).whole ++ (ofDigits places n).fraction = paddedDigits (places + 1) n :=
  List.take_append_drop _ _

theorem length_fraction_ofDigits (places n : Nat) :
    (ofDigits places n).fraction.length = places := by
  have hlength := length_paddedDigits (places + 1) n
  show ((paddedDigits (places + 1) n).drop _).length = places
  rw [List.length_drop]
  omega

/-- There is one digit before the point if the number has no more digits than that. -/
theorem length_whole_ofDigits {places n : Nat} (h : n < 10 ^ (places + 1)) :
    (ofDigits places n).whole.length = 1 := by
  have hdigits := (length_digits_le_iff (Nat.succ_pos places)).2 h
  have hlength := length_paddedDigits (places + 1) n
  show ((paddedDigits (places + 1) n).take _).length = 1
  rw [List.length_take]
  omega

theorem text_ofDigits (places n : Nat) :
    withPoint places (paddedDigits (places + 1) n) = (ofDigits places n).text := by
  have hlength := length_fraction_ofDigits places n
  by_cases hzero : places = 0
  · have hnone : (ofDigits places n).fraction = [] := List.eq_nil_of_length_eq_zero (by omega)
    have hwhole := whole_append_fraction_ofDigits places n
    rw [hnone, List.append_nil] at hwhole
    rw [text, if_pos hnone, List.append_nil, withPoint, if_pos hzero, hwhole]
  · have hsome : (ofDigits places n).fraction ≠ [] := by
      rw [← List.length_pos_iff]
      omega
    rw [text, if_neg hsome, withPoint, if_neg hzero]
    rfl

theorem toRat_ofDigits (places n : Nat) :
    (ofDigits places n).toRat = n * (10 : ℚ) ^ (-(places : ℤ)) := by
  have hvalue := (isDigit_of_numeral? (numeral?_paddedDigits (places + 1) n)).2
  rw [toRat, whole_append_fraction_ofDigits, hvalue, length_fraction_ofDigits]

/-! ### Zeros at the end of the fraction -/

/-- The mantissa without the zeros that end its fraction. -/
def strip (m : Mantissa) : Mantissa where
  whole := m.whole
  fraction := (m.fraction.reverse.dropWhile (· == '0')).reverse
  whole_ne := m.whole_ne
  isDigit_whole := m.isDigit_whole
  isDigit_fraction := fun c hc => m.isDigit_fraction c
    (List.mem_reverse.1 ((List.dropWhile_sublist _).mem (List.mem_reverse.1 hc)))

theorem exists_zeros_strip (m : Mantissa) :
    ∃ k, m.fraction = m.strip.fraction ++ List.replicate k '0' := by
  refine ⟨(m.fraction.reverse.takeWhile (· == '0')).length, ?_⟩
  have hzeros : m.fraction.reverse.takeWhile (· == '0') =
      List.replicate (m.fraction.reverse.takeWhile (· == '0')).length '0' := by
    refine List.eq_replicate_of_mem ?_
    intro c hc
    have hzero := Text.mem_takeWhile hc
    exact beq_iff_eq.1 hzero
  have hcut := List.takeWhile_append_dropWhile (p := (· == '0')) (l := m.fraction.reverse)
  rw [hzeros] at hcut
  have hsplit := congrArg List.reverse hcut
  rw [List.reverse_append, List.reverse_replicate, List.reverse_reverse] at hsplit
  exact hsplit.symm

/-- The fraction that is left does not end with a zero. -/
theorem getLast?_strip (m : Mantissa) : m.strip.fraction.getLast? ≠ some '0' := by
  intro hlast
  have hhead : (m.fraction.reverse.dropWhile (· == '0')).head? = some '0' := by
    rw [← List.getLast?_reverse]
    exact hlast
  obtain ⟨others, hothers⟩ := List.head?_eq_some_iff.1 hhead
  have hstop := Text.stop_of_dropWhile hothers
  cases hstop

theorem toRat_strip (m : Mantissa) : m.strip.toRat = m.toRat := by
  obtain ⟨k, hzeros⟩ := m.exists_zeros_strip
  have hvalue : valueOf (m.whole ++ m.fraction) =
      valueOf (m.strip.whole ++ m.strip.fraction) * 10 ^ k := by
    rw [hzeros, ← List.append_assoc]
    exact valueOf_append_zeros _ k
  have hlength : m.fraction.length = m.strip.fraction.length + k := by
    conv => lhs; rw [hzeros]
    rw [List.length_append, List.length_replicate]
  have hpower : (10 : ℚ) ^ k * 10 ^ (-(m.fraction.length : ℤ)) =
      10 ^ (-(m.strip.fraction.length : ℤ)) := by
    rw [hlength, ← zpow_natCast, ← ten_zpow_add]
    congr 1
    push_cast
    ring
  rw [toRat, toRat, hvalue, ← hpower]
  push_cast
  ring

/-- Without the zeros that it ends with, a mantissa with a fraction ends with the digits that are
left of the fraction, or with its point. -/
theorem dropWhile_zeros_text (m : Mantissa) (hsome : m.fraction ≠ []) :
    m.text.reverse.dropWhile (· == '0') =
      m.strip.fraction.reverse ++ '.' :: m.whole.reverse := by
  obtain ⟨k, hzeros⟩ := m.exists_zeros_strip
  have htext : m.text.reverse = List.replicate k '0' ++
      (m.strip.fraction.reverse ++ '.' :: m.whole.reverse) := by
    rw [text, if_neg hsome]
    conv => lhs; rw [hzeros]
    simp
  have hrun : ∀ c ∈ List.replicate k '0', (c == '0') = true :=
    List.forall_mem_replicate.2 (.inr rfl)
  have hkept : ∀ c ∈ (m.strip.fraction.reverse ++ '.' :: m.whole.reverse).head?,
      (c == '0') = false := by
    intro c hc
    have hlast := m.getLast?_strip
    rw [← List.head?_reverse] at hlast
    cases hleft : m.strip.fraction.reverse with
    | nil =>
        rw [hleft] at hc
        cases hc
        rfl
    | cons last others =>
        rw [hleft] at hc hlast
        cases hc
        simpa using hlast
  rw [htext, dropWhile_run hrun hkept]

/-- Digits do not end with a point. -/
private theorem notPoint_of_head?_reverse {ds : List Char} (h : ∀ c ∈ ds, c.isDigit = true) :
    ∀ c ∈ ds.reverse.head?, (c == '.') = false := by
  intro c hc
  have hdigit := h c (List.mem_reverse.1 (List.mem_of_mem_head? hc))
  rw [beq_eq_false_iff_ne]
  rintro rfl
  cases hdigit

/-- What is taken from the end of a mantissa are the zeros of its fraction, and the point with the
last of its digits. -/
theorem stripFractionZeros_text (m : Mantissa) : stripFractionZeros m.text = m.strip.text := by
  rw [stripFractionZeros, contains_text]
  by_cases hnone : m.fraction = []
  · have hstrip : m.strip.fraction = [] := by simp [strip, hnone]
    rw [text, text, if_pos hnone, if_pos hstrip, hnone]
    rfl
  · rw [List.isEmpty_eq_false_iff.2 hnone, Bool.not_false, if_pos rfl,
      m.dropWhile_zeros_text hnone]
    by_cases hstrip : m.strip.fraction = []
    · -- nothing is left of the fraction, so the point goes
      have hpoint : (['.'] ++ m.whole.reverse).dropWhile (· == '.') = m.whole.reverse :=
        dropWhile_run (List.forall_mem_singleton.2 rfl) (notPoint_of_head?_reverse m.isDigit_whole)
      rw [text, if_pos hstrip, hstrip, List.append_nil, List.reverse_nil, List.nil_append,
        ← List.singleton_append, hpoint, List.reverse_reverse]
      rfl
    · have hlast : ∀ c ∈ (m.strip.fraction.reverse ++ '.' :: m.whole.reverse).head?,
          (c == '.') = false := by
        have hne : m.strip.fraction.reverse ≠ [] := mt List.reverse_eq_nil_iff.1 hstrip
        rw [List.head?_append_of_ne_nil _ hne]
        exact notPoint_of_head?_reverse m.strip.isDigit_fraction
      rw [Text.dropWhile_of_head? hlast, text, if_neg hstrip, List.reverse_append,
        List.reverse_reverse, List.reverse_cons, List.reverse_reverse, List.append_assoc]
      rfl

/-- The mantissa with or without the zeros that end its fraction. -/
def stripUnless (keepZeros : Bool) (m : Mantissa) : Mantissa :=
  if keepZeros then m else m.strip

section

variable (keepZeros : Bool) (m : Mantissa)

theorem text_stripUnless :
    (if keepZeros then id else stripFractionZeros) m.text = (m.stripUnless keepZeros).text := by
  cases keepZeros with
  | true => rfl
  | false => exact m.stripFractionZeros_text

theorem toRat_stripUnless : (m.stripUnless keepZeros).toRat = m.toRat := by
  cases keepZeros with
  | true => rfl
  | false => exact m.toRat_strip

theorem whole_stripUnless : (m.stripUnless keepZeros).whole = m.whole := by
  cases keepZeros <;> rfl

theorem getLast?_stripUnless (h : keepZeros = false) :
    (m.stripUnless keepZeros).fraction.getLast? ≠ some '0' ∧
      (m.stripUnless keepZeros).text.getLast? ≠ some '.' := by
  constructor
  · rw [h]
    exact m.getLast?_strip
  · intro hpoint
    have hdigit := (m.stripUnless keepZeros).isDigit_getLast_text '.' hpoint
    cases hdigit

theorem fraction_stripUnless (h : keepZeros = true) :
    (m.stripUnless keepZeros).fraction = m.fraction := by
  rw [h]
  rfl

end

end Mantissa

/-! ## Exponents -/

def LetterCase.exponentLetter : LetterCase → Char
  | .lower => 'e'
  | .upper => 'E'

theorem exponentSuffix_eq (letters : LetterCase) (e : ℤ) :
    exponentSuffix letters e = letters.exponentLetter ::
      (if e < 0 then '-' else '+') :: paddedDigits 2 e.natAbs := by
  cases letters <;> rfl

/-- An exponent is read back. -/
theorem exponent?_exponentSuffix (letters : LetterCase) (e : ℤ) :
    Scientific.exponent? (exponentSuffix letters e) = some e := by
  have hletter : letters.exponentLetter = 'e' ∨ letters.exponentLetter = 'E' := by
    cases letters <;> decide
  have hdigits := numeral?_paddedDigits 2 e.natAbs
  rw [exponentSuffix_eq, Scientific.exponent?, if_pos hletter]
  by_cases hneg : e < 0
  · rw [if_pos hneg, (integer?_of_sign hdigits).1]
    congr 1
    omega
  · rw [if_neg hneg, (integer?_of_sign hdigits).2]
    congr 1
    omega

/-- An exponent ends the digits of a mantissa. -/
theorem head?_exponentSuffix (letters : LetterCase) (e : ℤ) :
    ∀ c ∈ (exponentSuffix letters e).head?, c.isDigit = false ∧ c ≠ '.' := by
  rw [exponentSuffix_eq]
  intro c hc
  cases hc
  cases letters <;> decide

/-! ## Mantissas with and without an exponent -/

theorem denoted?_text (m : Mantissa) : denoted? m.text = some m.toRat := by
  have h : denoted? (m.text ++ []) = _ := m.denoted?_text_append nofun
  rw [List.append_nil] at h
  rw [h, Scientific.exponent?, Option.map_some, zpow_zero, mul_one]

/-- A point after the last digit does not change what is denoted. -/
theorem denoted?_text_point {m : Mantissa} (hnone : m.fraction = []) :
    denoted? (m.text ++ ['.']) = some m.toRat := by
  have hread : Scientific.ofChars? (m.text ++ ['.']) = Scientific.ofChars? m.text := by
    have hpoint : ∀ c ∈ ['.'].head?, c.isDigit = false := by
      intro c hc
      cases hc
      rfl
    have htext : m.text = m.whole := by rw [Mantissa.text, if_pos hnone, List.append_nil]
    have hwhole : (m.whole ++ []).takeWhile Char.isDigit = m.whole :=
      takeWhile_run m.isDigit_whole nofun
    have hrest : (m.whole ++ []).dropWhile Char.isDigit = [] :=
      dropWhile_run m.isDigit_whole nofun
    rw [List.append_nil] at hwhole hrest
    rw [htext, Scientific.ofChars?, Scientific.ofChars?, takeWhile_run m.isDigit_whole hpoint,
      dropWhile_run m.isDigit_whole hpoint, hwhole, hrest]
    rfl
  have h := denoted?_text m
  rw [denoted?] at h ⊢
  rw [hread, h]

/-- What a mantissa with an exponent denotes. -/
theorem denoted?_text_exponentSuffix (m : Mantissa) (letters : LetterCase) (e : ℤ) :
    denoted? (m.text ++ exponentSuffix letters e) = some (m.toRat * (10 : ℚ) ^ e) := by
  rw [m.denoted?_text_append (head?_exponentSuffix letters e), exponent?_exponentSuffix,
    Option.map_some]

end DeviceMessages.Decimal
