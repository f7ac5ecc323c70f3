import DeviceMessages.Proofs.Decimal.Mantissa
import DeviceMessages.Proofs.Decimal.Nearest

/-!
# Reading a double

The double that a numeral reads as is the one nearest to the number that the numeral denotes
(`finite?_of_denoted?`). The reader does not always compute that number: it settles numbers that
are far too small or far too large by the count of their digits, and `magnitude?_eq_nearest?` shows
that it settles them rightly.

## Main results

* `magnitude?_eq_nearest?` — the reader finds the double nearest to the exact value.
* `denoted?_leadingZeros` — zeros before a numeral do not change what it denotes.
* `finite?_of_denoted?` — a numeral with or without a sign is read as the double nearest to it.
-/

namespace DeviceMessages.Decimal

/-! ## The size of a number by its digits -/

theorem valueOf_zero_cons (ds : List Char) : valueOf ('0' :: ds) = valueOf ds := rfl

theorem valueOf_cons (c : Char) (ds : List Char) :
    valueOf (c :: ds) = 10 ^ ds.length * (c.toNat - 48) + valueOf ds := by
  rw [valueOf, Nat.ofDigitChars_cons, Nat.ofDigitChars_eq_ofDigitChars_zero, Nat.mul_zero,
    Nat.zero_add]
  rfl

/-- A digit as a number. -/
private theorem digit_bounds {c : Char} (hc : c.isDigit = true) :
    c.toNat - 48 ≤ 9 ∧ (c ≠ '0' → 1 ≤ c.toNat - 48) := by
  have hbounds : 48 ≤ c.toNat ∧ c.toNat ≤ 57 := Char.isDigit_iff_toNat.1 hc
  refine ⟨by omega, fun hne => ?_⟩
  have hzero : c.toNat ≠ 48 := fun h => hne (Char.toNat_inj.1 h)
  omega

theorem valueOf_lt {ds : List Char} (hds : ∀ c ∈ ds, c.isDigit = true) :
    valueOf ds < 10 ^ ds.length := by
  induction ds with
  | nil => decide
  | cons c ds ih =>
      have hrest := ih fun d hd => hds d (List.mem_cons_of_mem c hd)
      have hdigit := (digit_bounds (hds c List.mem_cons_self)).1
      have hfirst : 10 ^ ds.length * (c.toNat - 48) ≤ 10 ^ ds.length * 9 :=
        Nat.mul_le_mul_left _ hdigit
      rw [valueOf_cons, List.length_cons, Nat.pow_succ]
      omega

theorem pow_le_valueOf_cons {c : Char} {ds : List Char} (hc : c.isDigit = true) (hne : c ≠ '0') :
    10 ^ ds.length ≤ valueOf (c :: ds) := by
  have hfirst : 10 ^ ds.length * 1 ≤ 10 ^ ds.length * (c.toNat - 48) :=
    Nat.mul_le_mul_left _ ((digit_bounds hc).2 hne)
  rw [valueOf_cons]
  omega

theorem valueOf_dropWhile_zeros (ds : List Char) :
    valueOf (ds.dropWhile (· == '0')) = valueOf ds := by
  induction ds with
  | nil => rfl
  | cons c ds ih =>
      by_cases hzero : c = '0'
      · rw [hzero, valueOf_zero_cons]
        exact ih
      · rw [List.dropWhile_cons_of_neg (by simpa using hzero)]

/-! ## The reader finds the nearest double -/

/-- A power of ten above a power of two, from one with smaller exponents. -/
private theorem two_pow_le_ten_pow {a b : Nat} (h : (2 : ℚ) ^ a ≤ 10 ^ b) (k : Nat) :
    (2 : ℚ) ^ (a * k) ≤ 10 ^ (b * k) := by
  rw [pow_mul, pow_mul]
  exact pow_le_pow_left₀ (by positivity) h k

private theorem ten_zpow_le_two_zpow : (10 : ℚ) ^ (-330 : ℤ) ≤ 2 ^ (-1075 : ℤ) := by
  have hpower : (2 : ℚ) ^ (109 * 10) ≤ 10 ^ (33 * 10) := two_pow_le_ten_pow (by norm_num) 10
  have hless : (2 : ℚ) ^ 1075 ≤ 2 ^ (109 * 10) := pow_le_pow_right₀ (by norm_num) (by norm_num)
  rw [zpow_neg, zpow_neg, zpow_ofNat, zpow_ofNat]
  exact inv_anti₀ (by positivity) (hless.trans hpower)

private theorem overflowBound_le_ten_zpow : Magnitude.overflowBound ≤ (10 : ℚ) ^ (310 : ℤ) := by
  have hpower : (2 : ℚ) ^ (205 * 5) ≤ 10 ^ (62 * 5) := two_pow_le_ten_pow (by norm_num) 5
  have hless : (2 : ℚ) ^ 1024 ≤ 2 ^ (205 * 5) := pow_le_pow_right₀ (by norm_num) (by norm_num)
  rw [zpow_ofNat]
  exact (sub_le_self _ (by positivity)).trans (hless.trans hpower)

namespace Scientific

open Magnitude

variable {s : Scientific}

theorem toRat_nonneg (s : Scientific) : 0 ≤ s.toRat :=
  mul_nonneg (Nat.cast_nonneg _) (ten_zpow_pos _).le

/-- The number of digits from the first that is not zero bounds a number on both sides. -/
theorem toRat_bounds {c : Char} {ds : List Char} (hdigits : ∀ d ∈ s.digits, d.isDigit = true)
    (hs : s.digits.dropWhile (· == '0') = c :: ds) :
    (10 : ℚ) ^ (ds.length + s.exponent) ≤ s.toRat ∧
      s.toRat < (10 : ℚ) ^ (ds.length + s.exponent + 1) := by
  have hsignificant : ∀ d ∈ c :: ds, d.isDigit = true := by
    intro d hd
    rw [← hs] at hd
    exact hdigits d ((List.dropWhile_sublist _).mem hd)
  have hne : c ≠ '0' := by
    have hstop := Text.stop_of_dropWhile hs
    simpa using hstop
  have hvalue : valueOf s.digits = valueOf (c :: ds) := by
    rw [← hs, valueOf_dropWhile_zeros]
  have hlow : (10 : ℚ) ^ (ds.length : ℤ) ≤ valueOf s.digits := by
    rw [hvalue]
    exact_mod_cast pow_le_valueOf_cons (hsignificant c List.mem_cons_self) hne
  have hhigh : (valueOf s.digits : ℚ) < (10 : ℚ) ^ ((ds.length : ℤ) + 1) := by
    rw [hvalue]
    exact_mod_cast valueOf_lt hsignificant
  have hscale := ten_zpow_pos s.exponent
  rw [toRat, ten_zpow_add, add_right_comm, ten_zpow_add]
  exact ⟨mul_le_mul_of_nonneg_right hlow hscale.le, mul_lt_mul_of_pos_right hhigh hscale⟩

/-- The reader finds the double nearest to the exact value, also where it does not compute it. -/
theorem magnitude?_eq_nearest? (hdigits : ∀ d ∈ s.digits, d.isDigit = true) :
    s.magnitude? = nearest? s.toRat := by
  unfold magnitude?
  dsimp only
  cases hs : s.digits.dropWhile (· == '0') with
  | nil =>
      have hzero : valueOf s.digits = 0 := by
        rw [← valueOf_dropWhile_zeros, hs]
        rfl
      rw [toRat, hzero, Nat.cast_zero, zero_mul]
      rfl
  | cons c ds =>
      obtain ⟨hlow, hhigh⟩ := toRat_bounds hdigits hs
      rw [List.isEmpty_cons, Bool.false_or, List.length_cons]
      split
      · next hsmall =>
          have htiny : s.toRat < (2 : ℚ) ^ (-1075 : ℤ) := by
            have hsize : (ds.length : ℤ) + s.exponent + 1 ≤ -330 := by
              simp only [decide_eq_true_eq] at hsmall
              omega
            exact hhigh.trans_le
              ((zpow_le_zpow_right₀ (by norm_num) hsize).trans ten_zpow_le_two_zpow)
          rw [nearest?_of_lt s.toRat_nonneg htiny]
          exact nearest?_of_lt le_rfl (two_zpow_pos _)
      · split
        · next hlarge =>
            have hsize : 310 ≤ (ds.length : ℤ) + s.exponent := by omega
            have hbound : overflowBound ≤ s.toRat := overflowBound_le_ten_zpow.trans
              ((zpow_le_zpow_right₀ (by norm_num) hsize).trans hlow)
            exact ((nearest?_eq_none_iff s.toRat_nonneg).2 hbound).symm
        · have hvalue : valueOf (c :: ds) = valueOf s.digits := by
            rw [← hs, valueOf_dropWhile_zeros]
          rw [hvalue, toRat]

end Scientific

/-! ## Numerals -/

variable {cs : List Char} {q : ℚ} {s : Scientific}

theorem isDigit_of_mem_fraction (cs : List Char) :
    ∀ c ∈ (Scientific.fraction cs).1, c.isDigit = true := by
  unfold Scientific.fraction
  split
  · exact fun c hc => Text.mem_takeWhile hc
  · exact nofun

theorem isDigit_of_ofChars? (h : Scientific.ofChars? cs = some s) :
    ∀ c ∈ s.digits, c.isDigit = true := by
  unfold Scientific.ofChars? at h
  dsimp only at h
  split at h
  · cases h
  · obtain ⟨e, -, rfl⟩ := Option.map_eq_some_iff.1 h
    exact List.forall_mem_append.2
      ⟨fun c hc => Text.mem_takeWhile hc, isDigit_of_mem_fraction _⟩

/-- A numeral without a sign does not begin with one. -/
theorem ofChars?_sign {c : Char} (hc : c = '-' ∨ c = '+') (cs : List Char) :
    Scientific.ofChars? (c :: cs) = none := by
  rcases hc with rfl | rfl <;> rfl

/-- Zeros before a numeral are digits of it. -/
theorem ofChars?_leadingZeros (k : Nat) (h : Scientific.ofChars? cs = some s) :
    Scientific.ofChars? (List.replicate k '0' ++ cs) =
      some ⟨List.replicate k '0' ++ s.digits, s.exponent⟩ := by
  have hzeros : ∀ c ∈ List.replicate k '0', c.isDigit = true :=
    List.forall_mem_replicate.2 (.inr rfl)
  unfold Scientific.ofChars? at h ⊢
  dsimp only at h ⊢
  rw [List.takeWhile_append_of_pos hzeros, List.dropWhile_append_of_pos hzeros]
  split at h
  · cases h
  · next hsome =>
      obtain ⟨e, he, rfl⟩ := Option.map_eq_some_iff.1 h
      rw [if_neg (by simp_all), he, List.append_assoc]
      rfl

/-- Zeros before a numeral do not change what it denotes. -/
theorem denoted?_leadingZeros (k : Nat) (h : denoted? cs = some q) :
    denoted? (List.replicate k '0' ++ cs) = some q := by
  obtain ⟨s, hs, rfl⟩ := Option.map_eq_some_iff.1 h
  have hvalue : valueOf (List.replicate k '0' ++ s.digits) = valueOf s.digits := by
    rw [valueOf, Nat.ofDigitChars_append, Nat.ofDigitChars_replicate_zero, Nat.mul_zero]
    rfl
  rw [denoted?, ofChars?_leadingZeros k hs, Option.map_some, Scientific.toRat, hvalue]
  rfl

/-- A numeral is read as the double nearest to the number that it denotes, with the sign before
it. -/
theorem finite?_of_denoted? (h : denoted? cs = some q) :
    finite? cs = (Magnitude.nearest? q).map (⟨false, ·⟩) ∧
      finite? ('-' :: cs) = (Magnitude.nearest? q).map (⟨true, ·⟩) ∧
      finite? ('+' :: cs) = (Magnitude.nearest? q).map (⟨false, ·⟩) := by
  obtain ⟨s, hs, rfl⟩ := Option.map_eq_some_iff.1 h
  have hmagnitude := Scientific.magnitude?_eq_nearest? (isDigit_of_ofChars? hs)
  have hread : ∀ negative, ((Scientific.ofChars? cs).bind fun s =>
      s.magnitude?.map (Binary64.mk negative)) =
        (Magnitude.nearest? s.toRat).map (Binary64.mk negative) := by
    intro negative
    rw [hs, Option.bind_some, hmagnitude]
  refine ⟨?_, hread true, hread false⟩
  rw [← hread false]
  unfold finite?
  split
  · next cs =>
      rw [ofChars?_sign (.inl rfl)] at hs
      cases hs
  · next cs =>
      rw [ofChars?_sign (.inr rfl)] at hs
      cases hs
  · rfl

theorem denoted?_nonneg (h : denoted? cs = some q) : 0 ≤ q := by
  obtain ⟨s, -, rfl⟩ := Option.map_eq_some_iff.1 h
  exact s.toRat_nonneg

/-! ### The characters of a numeral -/

theorem isBlank_of_isDigit {c : Char} (hc : c.isDigit = true) : Text.isBlank c = false := by
  have hbounds : 48 ≤ c.toNat ∧ c.toNat ≤ 57 := Char.isDigit_iff_toNat.1 hc
  rw [← Bool.not_eq_true]
  simp only [Text.isBlank, Bool.or_eq_true, Bool.and_eq_true, decide_eq_true_eq, beq_iff_eq]
  omega

theorem not_isBlank_of_numeral? {n : Nat} (h : numeral? cs = some n) :
    ∀ c ∈ cs, Text.isBlank c = false :=
  fun c hc => isBlank_of_isDigit ((isDigit_of_numeral? h).1 c hc)

theorem not_isBlank_of_natural? {n : Nat} (h : natural? cs = some n) :
    ∀ c ∈ cs, Text.isBlank c = false := by
  unfold natural? at h
  split at h
  · exact List.forall_mem_cons.2 ⟨rfl, not_isBlank_of_numeral? h⟩
  · exact not_isBlank_of_numeral? h

theorem not_isBlank_of_integer? {n : ℤ} (h : integer? cs = some n) :
    ∀ c ∈ cs, Text.isBlank c = false := by
  unfold integer? at h
  split at h
  · obtain ⟨m, hm, -⟩ := Option.map_eq_some_iff.1 h
    obtain ⟨k, hk, -⟩ := Option.bind_eq_some_iff.1 hm
    exact List.forall_mem_cons.2 ⟨rfl, not_isBlank_of_numeral? hk⟩
  · obtain ⟨m, hm, -⟩ := Option.map_eq_some_iff.1 h
    obtain ⟨k, hk, -⟩ := Option.bind_eq_some_iff.1 hm
    exact not_isBlank_of_natural? hk

theorem not_isBlank_of_exponent? {e : ℤ} (h : Scientific.exponent? cs = some e) :
    ∀ c ∈ cs, Text.isBlank c = false := by
  unfold Scientific.exponent? at h
  split at h
  · exact fun c hc => absurd hc List.not_mem_nil
  · rw [Option.ite_none_right_eq_some] at h
    obtain ⟨hletter, hinteger⟩ := h
    refine List.forall_mem_cons.2 ⟨?_, not_isBlank_of_integer? hinteger⟩
    rcases hletter with rfl | rfl <;> rfl

/-- There are no blanks in what stands before the exponent of a numeral if there are none in the
exponent. -/
theorem not_isBlank_of_fraction
    (h : ∀ c ∈ (Scientific.fraction cs).2, Text.isBlank c = false) :
    ∀ c ∈ cs, Text.isBlank c = false := by
  unfold Scientific.fraction at h
  split at h
  · next ds =>
      rw [← List.takeWhile_append_dropWhile (p := Char.isDigit) (l := ds)]
      exact List.forall_mem_cons.2 ⟨rfl, List.forall_mem_append.2
        ⟨fun c hc => isBlank_of_isDigit (Text.mem_takeWhile hc), h⟩⟩
  · exact h

/-- There are no blanks in a numeral. -/
theorem not_isBlank_of_denoted? (h : denoted? cs = some q) :
    ∀ c ∈ cs, Text.isBlank c = false := by
  obtain ⟨s, hs, -⟩ := Option.map_eq_some_iff.1 h
  unfold Scientific.ofChars? at hs
  dsimp only at hs
  split at hs
  · cases hs
  · obtain ⟨e, he, -⟩ := Option.map_eq_some_iff.1 hs
    rw [← List.takeWhile_append_dropWhile (p := Char.isDigit) (l := cs)]
    exact List.forall_mem_append.2 ⟨fun c hc => isBlank_of_isDigit (Text.mem_takeWhile hc),
      not_isBlank_of_fraction (not_isBlank_of_exponent? he)⟩

/-- What is read is the magnitude of a finite double. -/
theorem isFinite_of_finite? {v : Binary64} (h : finite? cs = some v) : v.magnitude.IsFinite := by
  have hread : ∀ negative (ds : List Char), ((Scientific.ofChars? ds).bind fun s =>
      s.magnitude?.map (Binary64.mk negative)) = some v → v.magnitude.IsFinite := by
    intro negative ds hds
    obtain ⟨s, hs, hmap⟩ := Option.bind_eq_some_iff.1 hds
    obtain ⟨m, hm, rfl⟩ := Option.map_eq_some_iff.1 hmap
    rw [Scientific.magnitude?_eq_nearest? (isDigit_of_ofChars? hs)] at hm
    exact Magnitude.isFinite_of_nearest? s.toRat_nonneg hm
  unfold finite? at h
  split at h
  · exact hread true _ h
  · exact hread false _ h
  · exact hread false _ h

end DeviceMessages.Decimal
