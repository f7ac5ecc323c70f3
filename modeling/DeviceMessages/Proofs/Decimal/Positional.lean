import DeviceMessages.Decimal.Numeral
import DeviceMessages.Definition.Leaf
import DeviceMessages.Text.Basic
import Mathlib.Data.Nat.Digits.Defs

/-!
# Numbers in a base

A number that is written in octal or hexadecimal digits has to be read back in the same base. The
reader here, `numberIn?`, takes digits of any base up to 16, letters in either case, and gives them
their positional value. Formatting does not use it.

## Main results

* `numberIn?_leadingZeros` — the digits of a number are read back, after any number of leading zeros
  and in either case.
* `numeral?_leadingZeros` — the same for the digits of a decimal numeral.
-/

namespace DeviceMessages.Decimal

open Definition (hexDigit?)

/-- Whether a character is a digit of a base up to 16. -/
def isDigitIn (base : Nat) (c : Char) : Bool :=
  (hexDigit? c).any (· < base)

def digitValue (c : Char) : Nat :=
  (hexDigit? c).getD 0

/-- The number that one or more digits of a base up to 16 write, the most significant one first. -/
def numberIn? (base : Nat) (cs : List Char) : Option Nat :=
  if !cs.isEmpty && cs.all (isDigitIn base) then
    some (Nat.ofDigits base (cs.map digitValue).reverse)
  else none

/-! ## Digits -/

/-- Ways to write digits that leave their values alone: as they are, or in upper case. -/
def KeepsDigits (write : Char → Char) : Prop :=
  ∀ d < 16, hexDigit? (write (Nat.digitChar d)) = some d

theorem keepsDigits_id : KeepsDigits id := by
  unfold KeepsDigits
  decide

theorem keepsDigits_toUpper : KeepsDigits Char.toUpper := by
  unfold KeepsDigits
  decide

variable {base : Nat} {write : Char → Char}

theorem isDigitIn_write (hle : base ≤ 16) (hwrite : KeepsDigits write) {d : Nat} (hd : d < base) :
    isDigitIn base (write (Nat.digitChar d)) = true := by
  rw [isDigitIn, hwrite d (by omega)]
  simpa using hd

theorem digitValue_write (hwrite : KeepsDigits write) {d : Nat} (hd : d < 16) :
    digitValue (write (Nat.digitChar d)) = d := by
  rw [digitValue, hwrite d hd]
  rfl

theorem isDigitIn_zero (hbase : 1 < base) : isDigitIn base '0' = true := by
  have hhex : hexDigit? '0' = some 0 := rfl
  rw [isDigitIn, hhex]
  simpa using by omega

/-- The digits of a number are digits of the base, and their positional value is the number. -/
theorem toDigits_facts (hbase : 1 < base) (hle : base ≤ 16) (hwrite : KeepsDigits write)
    (n : Nat) :
    (∀ c ∈ (Nat.toDigits base n).map write, isDigitIn base c = true) ∧
      Nat.ofDigits base (((Nat.toDigits base n).map write).map digitValue).reverse = n := by
  induction n using Nat.strongRecOn with
  | ind n ih =>
      by_cases hlt : n < base
      · rw [Nat.toDigits_of_lt_base hlt]
        have hvalue := digitValue_write hwrite (d := n) (by omega)
        have hdigit := isDigitIn_write hle hwrite hlt
        simp [hvalue, hdigit]
      · have hmod : n % base < base := Nat.mod_lt _ (by omega)
        obtain ⟨hdigits, hvalue⟩ := ih (n / base) (Nat.div_lt_self (by omega) hbase)
        rw [Nat.toDigits_of_base_le hbase (by omega), List.map_append]
        constructor
        · intro c hc
          rcases List.mem_append.1 hc with hfront | hlast
          · exact hdigits c hfront
          · rw [List.map_singleton, List.mem_singleton] at hlast
            rw [hlast]
            exact isDigitIn_write hle hwrite hmod
        · have hlast := digitValue_write hwrite (d := n % base) (by omega)
          have hsplit := Nat.mod_add_div n base
          rw [List.map_append, List.reverse_append, List.map_singleton, List.map_singleton,
            List.reverse_singleton, List.singleton_append, Nat.ofDigits_cons, hvalue, hlast]
          simpa using hsplit

/-- The digits of a number are read back after any number of leading zeros. -/
theorem numberIn?_leadingZeros (hbase : 1 < base) (hle : base ≤ 16) (hwrite : KeepsDigits write)
    (k n : Nat) :
    numberIn? base (List.replicate k '0' ++ (Nat.toDigits base n).map write) = some n := by
  obtain ⟨hdigits, hvalue⟩ := toDigits_facts hbase hle hwrite n
  have hall : ∀ c ∈ List.replicate k '0' ++ (Nat.toDigits base n).map write,
      isDigitIn base c = true :=
    List.forall_mem_append.2
      ⟨List.forall_mem_replicate.2 (.inr (isDigitIn_zero hbase)), hdigits⟩
  have hne : List.replicate k '0' ++ (Nat.toDigits base n).map write ≠ [] := by
    simp [Nat.toDigits_ne_nil]
  have hzeroValue : digitValue '0' = 0 := rfl
  have hdigitsOnly : (!(List.replicate k '0' ++ (Nat.toDigits base n).map write).isEmpty &&
      (List.replicate k '0' ++ (Nat.toDigits base n).map write).all (isDigitIn base)) = true := by
    rw [List.isEmpty_eq_false_iff.2 hne, List.all_eq_true.2 hall]
    rfl
  rw [numberIn?, if_pos hdigitsOnly, List.map_append, List.map_replicate, hzeroValue,
    List.reverse_append, List.reverse_replicate, Nat.ofDigits_append_replicate_zero, hvalue]

theorem isDigitIn_of_numberIn? {cs : List Char} {n : Nat} (h : numberIn? base cs = some n) :
    ∀ c ∈ cs, isDigitIn base c = true := by
  rw [numberIn?, Option.ite_none_right_eq_some, Bool.and_eq_true, List.all_eq_true] at h
  exact h.1.2

private theorem hexDigit?_ne_none {c : Char} (h : isDigitIn base c = true) :
    hexDigit? c ≠ none := by
  intro hnone
  rw [isDigitIn, hnone] at h
  cases h

/-- Digits of a base are between the first decimal digit and the last letter. -/
theorem isDigitIn_bounds {c : Char} (h : isDigitIn base c = true) :
    48 ≤ c.toNat ∧ c.toNat ≤ 102 := by
  obtain ⟨d, hd⟩ := Option.ne_none_iff_exists'.1 (hexDigit?_ne_none h)
  exact Definition.hexDigit?_bounds hd

/-- Digits of a base are none of the characters that stand around a number. -/
theorem isDigitIn_facts {c : Char} (h : isDigitIn base c = true) :
    Text.isBlank c = false ∧ c ≠ 'x' ∧ c ≠ 'X' ∧ c ≠ '-' ∧ c ≠ '+' := by
  refine ⟨?_, ?_⟩
  · have hbounds := isDigitIn_bounds h
    rw [← Bool.not_eq_true]
    simp only [Text.isBlank, Bool.or_eq_true, Bool.and_eq_true, decide_eq_true_eq,
      beq_iff_eq]
    omega
  · have hhex := hexDigit?_ne_none h
    refine ⟨?_, ?_, ?_, ?_⟩ <;> rintro rfl <;> exact hhex rfl

/-! ## Decimal numerals -/

theorem numeral?_leadingZeros (k n : Nat) :
    numeral? (List.replicate k '0' ++ digits n) = some n := by
  have hdigits : ∀ c ∈ List.replicate k '0' ++ digits n, c.isDigit = true :=
    List.forall_mem_append.2
      ⟨List.forall_mem_replicate.2 (.inr rfl), fun _ hc => isDigit_of_mem_digits hc⟩
  have hnumeral : isNumeral (List.replicate k '0' ++ digits n) = true := by
    have hne : List.replicate k '0' ++ digits n ≠ [] := by simp [digits, Nat.toDigits_ne_nil]
    rw [isNumeral, List.all_eq_true.2 hdigits, List.isEmpty_eq_false_iff.2 hne]
    rfl
  have hvalue : valueOf (List.replicate k '0' ++ digits n) = n := by
    rw [valueOf, Nat.ofDigitChars_append, Nat.ofDigitChars_replicate_zero, Nat.mul_zero]
    exact valueOf_digits n
  rw [numeral?, if_pos hnumeral, hvalue]

theorem numeral?_paddedDigits (width n : Nat) : numeral? (paddedDigits width n) = some n :=
  numeral?_leadingZeros _ n

/-- A numeral is digits, and its value is what they denote. -/
theorem isDigit_of_numeral? {cs : List Char} {n : Nat} (h : numeral? cs = some n) :
    (∀ c ∈ cs, c.isDigit = true) ∧ valueOf cs = n := by
  obtain ⟨hnumeral, hvalue⟩ := Option.ite_none_right_eq_some.1 h
  rw [isNumeral, Bool.and_eq_true, List.all_eq_true] at hnumeral
  exact ⟨hnumeral.2, Option.some.inj hvalue⟩

/-- A numeral without a sign is a natural number and an integer. -/
theorem integer?_of_numeral? {cs : List Char} {n : Nat} (h : numeral? cs = some n) :
    natural? cs = some n ∧ integer? cs = some (n : Int) := by
  have hnumeral : isNumeral cs = true := (Option.ite_none_right_eq_some.1 h).1
  cases cs with
  | nil => cases h
  | cons c cs =>
      have hdigit : c.isDigit = true := by
        rw [isNumeral, Bool.and_eq_true, List.all_eq_true] at hnumeral
        exact hnumeral.2 c List.mem_cons_self
      have hminus : c ≠ '-' := by
        rintro rfl
        cases hdigit
      have hplus : c ≠ '+' := by
        rintro rfl
        cases hdigit
      have hnatural : natural? (c :: cs) = some n := by simpa [natural?, hplus] using h
      exact ⟨hnatural, by simp [integer?, hminus, hnatural]⟩

/-- A numeral after a sign is an integer. -/
theorem integer?_of_sign {cs : List Char} {n : Nat} (h : numeral? cs = some n) :
    integer? ('-' :: cs) = some (-(n : Int)) ∧ integer? ('+' :: cs) = some (n : Int) := by
  simp [integer?, natural?, h]

theorem signed64?_eq_some_iff {cs : List Char} {n : Int} :
    signed64? cs = some n ↔
      integer? cs = some n ∧ -0x8000000000000000 ≤ n ∧ n < 0x8000000000000000 := by
  simp [signed64?, Option.filter_eq_some_iff]

theorem unsigned64?_eq_some_iff {cs : List Char} {n : Nat} :
    unsigned64? cs = some n ↔ natural? cs = some n ∧ n < wordSize := by
  simp [unsigned64?, Option.filter_eq_some_iff]

end DeviceMessages.Decimal
