import DeviceMessages.Proofs.Decimal.Positional
import DeviceMessages.Proofs.Template.Checksum

/-!
# Fill characters

`repeat` is called with what is to be repeated and how often. A numeral as the first argument is
the code of a byte, and everything else stands for its first character (`IsFillUnit`). The second
argument has to be a numeral that is not too large (`IsFillCount`). A numeral has any number of
digits here, so one that is no code of a byte is a mistake however large it is.

The function itself reads the code as an integer of 64 bits. A numeral that does not fit these is
not found too large, it is not found to be a numeral at all, and so its first character is repeated
(`HasOverlongCode`). The count is read in the same way, but there a text that is no numeral is
refused like one that is too large, so nothing is lost.

## Main result

* `repeat_fills_iff` — a call does what its arguments say unless the code has more than 64 bits and
  the count is right.
-/

namespace DeviceMessages.Generator

open Decimal (natural? numeral? isNumeral unsigned64? unsigned64?_eq_some_iff valueOf wordSize)
open Text (trim utf8)

/-! ## What the arguments stand for -/

/-- One or more digits, perhaps after a plus sign, and the number that they denote. -/
def WritesNatural (cs : List Char) (n : Nat) : Prop :=
  ∃ sign ds, cs = sign ++ ds ∧ (sign = [] ∨ sign = ['+']) ∧ ds ≠ [] ∧
    (∀ c ∈ ds, c.isDigit = true) ∧ valueOf ds = n

/-- What the first argument of `repeat` stands for: the byte of a code, or its first character. -/
inductive IsFillUnit (argument : String) : Bytes → Prop
  | code {n : Nat} (hn : WritesNatural (trim argument.toList) n) (hle : n ≤ 255) :
      IsFillUnit argument [UInt8.ofNat n]
  | character {c : Char} {cs : List Char} (hno : ∀ n, ¬ WritesNatural (trim argument.toList) n)
      (hcs : argument.toList = c :: cs) : IsFillUnit argument (utf8 (String.singleton c))

/-- What the second argument of `repeat` stands for. -/
def IsFillCount (argument : String) (n : Nat) : Prop :=
  WritesNatural (trim argument.toList) n ∧ n ≤ 65535

/-- A generator that adds copies of a unit to what has been written. -/
def AddsCopies (g : Generator) (unit : Bytes) (n : Nat) : Prop :=
  ∀ moment before, g.apply moment before = some (before ++ (List.replicate n unit).flatten)

/-- A call of `repeat` does what its arguments say. -/
structure Fills (character count : String) (result : Except CallError Generator) : Prop where
  /-- The copies are written if both arguments stand for something. -/
  adds : ∀ unit n, IsFillUnit character unit → IsFillCount count n →
    ∃ g, result = .ok g ∧ AddsCopies g unit n
  /-- An argument that stands for nothing is a mistake. -/
  refuses : (¬ ∃ unit, IsFillUnit character unit) ∨ (¬ ∃ n, IsFillCount count n) →
    ∃ fault, result = .error (.badArgument "repeat" fault)

/-- The first argument is the numeral of a code that does not fit 64 bits. -/
def HasOverlongCode (argument : String) : Prop :=
  ∃ n, WritesNatural (trim argument.toList) n ∧ wordSize ≤ n

/-! ## Numerals -/

variable {argument : String} {cs : List Char} {n : Nat}

/-- Numerals with or without a plus sign are what the reader of natural numbers takes. -/
theorem natural?_eq_some_iff : natural? cs = some n ↔ WritesNatural cs n := by
  have hnumeral : ∀ {ds : List Char}, numeral? ds = some n ↔
      ds ≠ [] ∧ (∀ c ∈ ds, c.isDigit = true) ∧ valueOf ds = n := by
    simp [numeral?, isNumeral, and_assoc]
  constructor
  · intro h
    unfold natural? at h
    split at h
    · next ds => exact ⟨['+'], ds, rfl, .inr rfl, hnumeral.1 h⟩
    · exact ⟨[], cs, rfl, .inl rfl, hnumeral.1 h⟩
  · rintro ⟨sign, ds, rfl, rfl | rfl, hds⟩
    · exact (Decimal.integer?_of_numeral? (hnumeral.2 hds)).1
    · exact hnumeral.2 hds

/-- The reader of 64 bits takes the same numerals, as far as they fit. -/
theorem unsigned64?_eq_some_iff_writes :
    unsigned64? cs = some n ↔ WritesNatural cs n ∧ n < wordSize := by
  rw [unsigned64?_eq_some_iff, natural?_eq_some_iff]

theorem unsigned64?_eq_none (h : ∀ m, WritesNatural cs m → wordSize ≤ m) :
    unsigned64? cs = none := by
  rw [Option.eq_none_iff_forall_ne_some]
  intro m hm
  obtain ⟨hwrites, hlt⟩ := unsigned64?_eq_some_iff_writes.1 hm
  exact Nat.not_lt.2 (h m hwrites) hlt

/-- Whatever is no larger than the largest count fits. -/
theorem lt_wordSize_of_le (h : n ≤ 65535) : n < wordSize := by
  have hsize : wordSize = 0x10000000000000000 := rfl
  omega

theorem WritesNatural.unique {m : Nat} (hm : WritesNatural cs m) (hn : WritesNatural cs n) :
    m = n :=
  Option.some.inj ((natural?_eq_some_iff.2 hm).symm.trans (natural?_eq_some_iff.2 hn))

/-! ## The first argument -/

variable {unit : Bytes}

/-- A text that is not read as a code stands for its first character. -/
theorem repeatUnit_of_none {c : Char} (hread : unsigned64? (trim argument.toList) = none)
    (hcs : argument.toList = c :: cs) :
    repeatUnit argument = .ok (utf8 (String.singleton c)) := by
  rw [repeatUnit, hread, hcs]
  simp [utf8]

theorem repeatUnit_of_isFillUnit (h : IsFillUnit argument unit) :
    repeatUnit argument = .ok unit := by
  cases h with
  | @code n hn hle =>
      have hread : unsigned64? (trim argument.toList) = some n :=
        unsigned64?_eq_some_iff_writes.2 ⟨hn, lt_wordSize_of_le (by omega)⟩
      simp only [repeatUnit, hread, if_pos (Nat.lt_succ_of_le hle)]
  | character hno hcs =>
      exact repeatUnit_of_none (unsigned64?_eq_none fun m hm => absurd hm (hno m)) hcs

/-- What is repeated is what the argument stands for, unless its code is too long. -/
theorem isFillUnit_of_repeatUnit (hshort : ¬ HasOverlongCode argument)
    (h : repeatUnit argument = .ok unit) : IsFillUnit argument unit := by
  unfold repeatUnit at h
  split at h
  · next code hread =>
      have hn := (unsigned64?_eq_some_iff_writes.1 hread).1
      split at h
      · next hlt =>
          cases h
          exact .code hn (Nat.le_of_lt_succ hlt)
      · cases h
  · next c cs hread hcs =>
      have hno : ∀ n, ¬ WritesNatural (trim argument.toList) n := by
        intro n hn
        have hlt : n < wordSize := Nat.lt_of_not_le fun hle => hshort ⟨n, hn, hle⟩
        have hsome := unsigned64?_eq_some_iff_writes.2 ⟨hn, hlt⟩
        rw [hread] at hsome
        cases hsome
      cases h
      have hunit := IsFillUnit.character hno hcs
      simpa [utf8] using hunit
  · cases h

/-- A code that is too long stands for nothing. -/
theorem HasOverlongCode.not_isFillUnit (h : HasOverlongCode argument) :
    ¬ ∃ unit, IsFillUnit argument unit := by
  obtain ⟨n, hn, hlong⟩ := h
  rintro ⟨unit, hunit⟩
  cases hunit with
  | @code m hm hle =>
      have hlt : m < wordSize := lt_wordSize_of_le (by omega)
      rw [hm.unique hn] at hlt
      exact absurd hlong (Nat.not_le.2 hlt)
  | character hno hcs => exact hno n hn

/-- Its first character is repeated all the same. -/
theorem HasOverlongCode.repeatUnit_eq (h : HasOverlongCode argument) :
    ∃ c cs, argument.toList = c :: cs ∧
      repeatUnit argument = .ok (utf8 (String.singleton c)) := by
  obtain ⟨n, hn, hlong⟩ := h
  have hread := unsigned64?_eq_none fun m hm => hm.unique hn ▸ hlong
  cases hcs : argument.toList with
  | nil =>
      obtain ⟨sign, ds, hempty, -, hne, -⟩ := hn
      rw [hcs, Text.trim_nil] at hempty
      exact absurd (List.append_eq_nil_iff.1 hempty.symm).2 hne
  | cons c cs => exact ⟨c, cs, rfl, repeatUnit_of_none hread hcs⟩

/-! ## The second argument -/

theorem repeatCount_eq_ok_iff : repeatCount argument = .ok n ↔ IsFillCount argument n := by
  unfold repeatCount
  constructor
  · intro h
    split at h
    · cases h
    · next count hread =>
        have hn := (unsigned64?_eq_some_iff_writes.1 hread).1
        split at h
        · next hle =>
            cases h
            exact ⟨hn, hle⟩
        · cases h
  · rintro ⟨hn, hle⟩
    have hread : unsigned64? (trim argument.toList) = some n :=
      unsigned64?_eq_some_iff_writes.2 ⟨hn, lt_wordSize_of_le hle⟩
    have hmax : n ≤ maxRepeat := hle
    simp only [hread, if_pos hmax]

/-! ## The call -/

variable {character count : String} (more : List String)

theorem makeRepeat_of_ok (hunit : repeatUnit character = .ok unit)
    (hcount : repeatCount count = .ok n) :
    ∃ g, makeRepeat (character :: count :: more) = .ok g ∧ AddsCopies g unit n :=
  ⟨repeated unit n, by simp only [makeRepeat, hunit, hcount], fun _ _ => rfl⟩

theorem makeRepeat_of_error
    (h : (∀ unit, repeatUnit character ≠ .ok unit) ∨ ∀ n, repeatCount count ≠ .ok n) :
    ∃ fault, makeRepeat (character :: count :: more) = .error (.badArgument "repeat" fault) := by
  cases hunit : repeatUnit character with
  | error fault => exact ⟨fault, by simp only [makeRepeat, hunit]⟩
  | ok unit =>
      cases hcount : repeatCount count with
      | error fault => exact ⟨fault, by simp only [makeRepeat, hunit, hcount]⟩
      | ok n =>
          rcases h with hnone | hnone
          · exact absurd hunit (hnone unit)
          · exact absurd hcount (hnone n)

/-- A call of `repeat` does what its first two arguments say, unless the code of the first does not
fit 64 bits and the count is right. Then the first character of the code is repeated. -/
theorem repeat_fills_iff (character count : String) (more : List String) :
    (Fills character count (Functions.builtin.call "repeat" (character :: count :: more)) ↔
      ¬ (HasOverlongCode character ∧ ∃ n, IsFillCount count n)) ∧
    ∀ n, HasOverlongCode character → IsFillCount count n →
      ∃ c cs g, character.toList = c :: cs ∧
        Functions.builtin.call "repeat" (character :: count :: more) = .ok g ∧
        AddsCopies g (utf8 (String.singleton c)) n := by
  have hcall : Functions.builtin.call "repeat" (character :: count :: more) =
      makeRepeat (character :: count :: more) := by
    rw [Functions.call_builtin]
    rfl
  have hoverlong : ∀ n, HasOverlongCode character → IsFillCount count n →
      ∃ c cs g, character.toList = c :: cs ∧
        makeRepeat (character :: count :: more) = .ok g ∧
        AddsCopies g (utf8 (String.singleton c)) n := by
    intro n hlong hn
    obtain ⟨c, cs, hcs, hunit⟩ := hlong.repeatUnit_eq
    obtain ⟨g, hg, hadds⟩ := makeRepeat_of_ok more hunit (repeatCount_eq_ok_iff.2 hn)
    exact ⟨c, cs, g, hcs, hg, hadds⟩
  rw [hcall]
  refine ⟨⟨?_, ?_⟩, hoverlong⟩
  · rintro hfills ⟨hlong, n, hn⟩
    obtain ⟨fault, herror⟩ := hfills.refuses (.inl hlong.not_isFillUnit)
    obtain ⟨c, cs, g, -, hok, -⟩ := hoverlong n hlong hn
    rw [herror] at hok
    cases hok
  · intro hnot
    refine ⟨?_, ?_⟩
    · intro unit n hunit hn
      exact makeRepeat_of_ok more (repeatUnit_of_isFillUnit hunit) (repeatCount_eq_ok_iff.2 hn)
    · intro hnothing
      refine makeRepeat_of_error more ?_
      by_cases hcount : ∃ n, IsFillCount count n
      · have hshort : ¬ HasOverlongCode character := fun hlong => hnot ⟨hlong, hcount⟩
        have hnone := hnothing.resolve_right (not_not_intro hcount)
        exact .inl fun unit hunit => hnone ⟨unit, isFillUnit_of_repeatUnit hshort hunit⟩
      · exact .inr fun n hn => hcount ⟨n, repeatCount_eq_ok_iff.1 hn⟩

/-- The least code with more than 64 bits is not refused. -/
theorem repeat_overlong_code :
    ¬ Fills "18446744073709551616" "2"
      (Functions.builtin.call "repeat" ["18446744073709551616", "2"]) := by
  have hcode : WritesNatural (trim "18446744073709551616".toList) wordSize :=
    natural?_eq_some_iff.1 (by decide)
  intro hfills
  have hlong : HasOverlongCode "18446744073709551616" := ⟨wordSize, hcode, Nat.le_refl _⟩
  obtain ⟨fault, herror⟩ := hfills.refuses (.inl hlong.not_isFillUnit)
  have hok : ∃ g, makeRepeat ["18446744073709551616", "2"] = .ok g := ⟨_, rfl⟩
  obtain ⟨g, hg⟩ := hok
  rw [Functions.call_builtin] at herror
  exact absurd (hg.symm.trans herror) nofun

end DeviceMessages.Generator
