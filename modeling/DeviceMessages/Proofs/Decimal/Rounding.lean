import DeviceMessages.Decimal.Notation
import Mathlib.Algebra.Order.Ring.Abs
import Mathlib.Data.Int.Log
import Mathlib.Data.Rat.Floor
import Mathlib.Tactic.Linarith
import Mathlib.Tactic.NormNum
import Mathlib.Tactic.Ring

/-!
# Rounding to significant digits

A rational number is rounded to `P` significant digits by rounding its multiple of a unit, which is
the power of ten that is `P - 1` places below its exponent (`IsRounded`). The exponent of the
result can be one higher than before: `9.96` becomes `10.0`.

The notations that follow the general rule round twice. They round once to find the exponent, and
once more at the last place that they then write. The two agree (`roundHalfEven_at_exponent`): as
long as the exponent stays, the places are the same, and if it does not, the value is so close to
the power of ten that the shorter number of places gives it as well.

## Main results

* `roundHalfEven_eq_iff` — rounding gives the nearest integer, and the even one of two.
* `floorLog10_eq_log` — the exponent that is computed from digits is the logarithm.
* `isRounded_ofRat` — the digits and the exponent that are computed are those of the rounded value.
-/

namespace DeviceMessages.Decimal

/-! ## Rounding to an integer -/

/-- An integer that no other one is nearer to, and that is even if another one is as near. -/
def IsNearestEven (x : ℚ) (n : ℤ) : Prop :=
  |x - n| ≤ 1 / 2 ∧ (|x - n| = 1 / 2 → Even n)

theorem isNearestEven_roundHalfEven (x : ℚ) : IsNearestEven x (roundHalfEven x) := by
  have hle : (x.floor : ℚ) ≤ x := Rat.le_floor_iff.1 le_rfl
  have hlt : x < x.floor + 1 := by
    have h := Int.lt_floor_add_one x
    exact h
  unfold IsNearestEven roundHalfEven
  dsimp only
  split
  · next hbelow =>
      have habs : |x - x.floor| = x - x.floor := abs_of_nonneg (by linarith)
      rw [habs]
      exact ⟨by linarith, fun h => by linarith⟩
  · split
    · next habove =>
        have habs : |x - ((x.floor + 1 : ℤ) : ℚ)| = 1 - (x - x.floor) := by
          push_cast
          rw [abs_of_neg (by linarith)]
          ring
        rw [habs]
        exact ⟨by linarith, fun h => by linarith⟩
    · next hnotBelow hnotAbove =>
        have hhalf : x - x.floor = 1 / 2 := by linarith
        rcases Int.emod_two_eq_zero_or_one x.floor with heven | hodd
        · rw [heven, add_zero, hhalf]
          exact ⟨by norm_num, fun _ => Int.even_iff.2 heven⟩
        · have habs : |x - ((x.floor + 1 : ℤ) : ℚ)| = 1 / 2 := by
            push_cast
            rw [abs_of_neg (by linarith)]
            linarith
          rw [hodd, habs]
          exact ⟨le_rfl, fun _ => Int.even_iff.2 (by omega)⟩

/-- Two neighbours are not both nearest: one of them is odd. -/
private theorem not_isNearestEven_succ {x : ℚ} {n : ℤ} (hn : IsNearestEven x n)
    (hsucc : IsNearestEven x (n + 1)) : False := by
  have hupper := (abs_le.1 hn.1).2
  have hlower := (abs_le.1 hsucc.1).1
  push_cast at hlower
  have hbelow : |x - n| = 1 / 2 := by
    rw [abs_of_nonneg (by linarith)]
    linarith
  have habove : |x - ((n + 1 : ℤ) : ℚ)| = 1 / 2 := by
    push_cast
    rw [abs_of_neg (by linarith)]
    linarith
  have heven := Int.even_iff.1 (hn.2 hbelow)
  have hodd := Int.even_iff.1 (hsucc.2 habove)
  omega

/-- There is only one such integer. -/
theorem IsNearestEven.unique {x : ℚ} {m n : ℤ} (hm : IsNearestEven x m)
    (hn : IsNearestEven x n) : m = n := by
  have hmbounds := abs_le.1 hm.1
  have hnbounds := abs_le.1 hn.1
  have hupper : m ≤ n + 1 := by
    have h : (m : ℚ) ≤ n + 1 := by linarith
    exact_mod_cast h
  have hlower : n ≤ m + 1 := by
    have h : (n : ℚ) ≤ m + 1 := by linarith
    exact_mod_cast h
  rcases Int.lt_trichotomy m n with hlt | heq | hgt
  · have hsucc : n = m + 1 := by omega
    exact (not_isNearestEven_succ hm (hsucc ▸ hn)).elim
  · exact heq
  · have hsucc : m = n + 1 := by omega
    exact (not_isNearestEven_succ hn (hsucc ▸ hm)).elim

theorem roundHalfEven_eq_iff {x : ℚ} {n : ℤ} : roundHalfEven x = n ↔ IsNearestEven x n := by
  constructor
  · intro h
    rw [← h]
    exact isNearestEven_roundHalfEven x
  · exact (isNearestEven_roundHalfEven x).unique

theorem roundHalfEven_of_abs_lt {x : ℚ} {n : ℤ} (h : |x - n| < 1 / 2) : roundHalfEven x = n :=
  roundHalfEven_eq_iff.2 ⟨le_of_lt h, fun hhalf => absurd hhalf (ne_of_lt h)⟩

theorem roundHalfEven_intCast (n : ℤ) : roundHalfEven (n : ℚ) = n :=
  roundHalfEven_of_abs_lt (by norm_num)

/-- Rounding does not pass an integer. -/
theorem le_roundHalfEven {x : ℚ} {k : ℤ} (h : (k : ℚ) ≤ x) : k ≤ roundHalfEven x := by
  have hbounds := abs_le.1 (isNearestEven_roundHalfEven x).1
  have hlt : (k : ℚ) < roundHalfEven x + 1 := by linarith
  have hint : k < roundHalfEven x + 1 := by exact_mod_cast hlt
  omega

theorem roundHalfEven_le {x : ℚ} {k : ℤ} (h : x ≤ k) : roundHalfEven x ≤ k := by
  have hbounds := abs_le.1 (isNearestEven_roundHalfEven x).1
  have hlt : (roundHalfEven x : ℚ) < k + 1 := by linarith
  have hint : roundHalfEven x < k + 1 := by exact_mod_cast hlt
  omega

/-! ## The exponent -/

theorem length_digits_le_iff {n k : Nat} (hk : 0 < k) : (digits n).length ≤ k ↔ n < 10 ^ k :=
  Nat.length_toDigits_le_iff (by decide) hk

theorem length_digits_pos (n : Nat) : 0 < (digits n).length :=
  Nat.length_toDigits_pos

/-- A positive number has one digit more than its logarithm. -/
theorem length_digits_eq_log {n : Nat} (hn : n ≠ 0) : (digits n).length = Nat.log 10 n + 1 := by
  have hle : (digits n).length ≤ Nat.log 10 n + 1 :=
    (length_digits_le_iff (Nat.succ_pos _)).2 (Nat.lt_pow_succ_log_self (by decide) n)
  by_cases hzero : Nat.log 10 n = 0
  · have hpos := length_digits_pos n
    omega
  · have hnot : ¬ (digits n).length ≤ Nat.log 10 n := by
      rw [length_digits_le_iff (by omega), Nat.not_lt]
      exact Nat.pow_log_le_self 10 hn
    omega

/-- The number of digits of a predecessor is the logarithm rounded up. -/
theorem length_digits_pred_eq_clog {n : Nat} (hn : 1 < n) :
    (digits (n - 1)).length = Nat.clog 10 n := by
  have hiff : ∀ k, 0 < k → ((digits (n - 1)).length ≤ k ↔ Nat.clog 10 n ≤ k) := by
    intro k hk
    rw [length_digits_le_iff hk, Nat.clog_le_iff_le_pow (by decide)]
    omega
  have hlength := length_digits_pos (n - 1)
  have hclog : 0 < Nat.clog 10 n := Nat.clog_pos (by decide) hn
  have hle := (hiff _ hclog).2 le_rfl
  have hge := (hiff _ hlength).1 le_rfl
  omega

/-- The exponent that is computed from digits is the logarithm. -/
theorem floorLog10_eq_log {x : ℚ} (hx : 0 < x) : floorLog10 x = Int.log 10 x := by
  unfold floorLog10
  split
  · next hone =>
      have hfloor : x.floor.toNat = ⌊x⌋₊ := rfl
      have hne : ⌊x⌋₊ ≠ 0 := by
        have hpos := Nat.floor_pos.2 hone
        omega
      rw [hfloor, Int.log_of_one_le_right 10 hone, length_digits_eq_log hne]
      push_cast
      ring
  · next hone =>
      have hceil : x⁻¹.ceil.toNat = ⌈x⁻¹⌉₊ := by
        rw [Rat.ceil_eq_neg_floor_neg, ← Int.ceil_toNat]
        rfl
      have hlt : 1 < ⌈x⁻¹⌉₊ := by
        rw [Nat.lt_ceil, Nat.cast_one]
        exact (one_lt_inv₀ hx).2 (lt_of_not_ge hone)
      rw [hceil, Int.log_of_right_le_one 10 (by linarith), length_digits_pred_eq_clog hlt]

theorem log_eq_of_bounds {x : ℚ} {k : ℤ} (hle : (10 : ℚ) ^ k ≤ x) (hlt : x < (10 : ℚ) ^ (k + 1)) :
    Int.log 10 x = k := by
  have hten : (0 : ℚ) < 10 ^ k := zpow_pos (by norm_num) k
  have hpos : 0 < x := lt_of_lt_of_le hten hle
  have hlow : k ≤ Int.log 10 x :=
    (Int.zpow_le_iff_le_log (by decide) hpos).1 (by exact_mod_cast hle)
  have hhigh : Int.log 10 x < k + 1 :=
    (Int.lt_zpow_iff_log_lt (by decide) hpos).1 (by exact_mod_cast hlt)
  omega

/-! ## Significant digits -/

/-- The unit of the last of `P` significant digits of a number. -/
def lastUnit (P : Nat) (x : ℚ) : ℚ :=
  (10 : ℚ) ^ (Int.log 10 x - ((P : ℤ) - 1))

/-- A number rounded to `P` significant digits, a tie going to the even last digit. -/
def IsRounded (P : Nat) (x rounded : ℚ) : Prop :=
  ∃ n : ℤ, IsNearestEven (x / lastUnit P x) n ∧ rounded = n * lastUnit P x

theorem IsRounded.unique {P : Nat} {x r s : ℚ} (hr : IsRounded P x r) (hs : IsRounded P x s) :
    r = s := by
  obtain ⟨m, hm, rfl⟩ := hr
  obtain ⟨n, hn, rfl⟩ := hs
  rw [hm.unique hn]

theorem ten_zpow_pos (k : ℤ) : (0 : ℚ) < 10 ^ k :=
  zpow_pos (by norm_num) k

theorem ten_zpow_add (j k : ℤ) : (10 : ℚ) ^ (j + k) = 10 ^ j * 10 ^ k :=
  zpow_add₀ (by norm_num) j k

/-- A positive number in units of the last of its digits. -/
theorem div_lastUnit (places : Nat) (x : ℚ) :
    x / lastUnit (places + 1) x = x * (10 : ℚ) ^ ((places : ℤ) - Int.log 10 x) := by
  have hneg : (places : ℤ) - Int.log 10 x = -(Int.log 10 x - (((places + 1 : Nat) : ℤ) - 1)) := by
    push_cast
    ring
  rw [lastUnit, hneg, zpow_neg, div_eq_mul_inv]

/-- There are `places + 1` digits before the point of a number in units of the last of them. -/
theorem scaled_bounds (places : Nat) {x : ℚ} (hx : 0 < x) :
    (10 : ℚ) ^ places ≤ x * (10 : ℚ) ^ ((places : ℤ) - Int.log 10 x) ∧
      x * (10 : ℚ) ^ ((places : ℤ) - Int.log 10 x) < (10 : ℚ) ^ (places + 1) := by
  have hle : (10 : ℚ) ^ Int.log 10 x ≤ x := by
    exact_mod_cast Int.zpow_log_le_self (b := 10) (by decide) hx
  have hlt : x < (10 : ℚ) ^ (Int.log 10 x + 1) := by
    exact_mod_cast Int.lt_zpow_succ_log_self (b := 10) (by decide) x
  have hscale := ten_zpow_pos ((places : ℤ) - Int.log 10 x)
  constructor
  · calc (10 : ℚ) ^ places = (10 : ℚ) ^ Int.log 10 x * 10 ^ ((places : ℤ) - Int.log 10 x) := by
          rw [← ten_zpow_add, ← zpow_natCast]
          congr 1
          ring
      _ ≤ x * (10 : ℚ) ^ ((places : ℤ) - Int.log 10 x) :=
          mul_le_mul_of_nonneg_right hle (le_of_lt hscale)
  · calc x * (10 : ℚ) ^ ((places : ℤ) - Int.log 10 x)
        < (10 : ℚ) ^ (Int.log 10 x + 1) * 10 ^ ((places : ℤ) - Int.log 10 x) :=
          mul_lt_mul_of_pos_right hlt hscale
      _ = (10 : ℚ) ^ (places + 1) := by
          rw [← ten_zpow_add, ← zpow_natCast]
          congr 1
          push_cast
          ring

/-- The digits of a rounded positive number, and what is kept as its digits and its exponent: when
rounding carries, one more place and a last digit less. -/
theorem exists_ofRat_eq (places : Nat) {x : ℚ} (hx : 0 < x) :
    ∃ n : Nat, roundHalfEven (x * (10 : ℚ) ^ ((places : ℤ) - Int.log 10 x)) = n ∧
      10 ^ places ≤ n ∧ n ≤ 10 ^ (places + 1) ∧
      Rounded.ofRat places x = if n < 10 ^ (places + 1) then ⟨n, Int.log 10 x⟩
        else ⟨10 ^ places, Int.log 10 x + 1⟩ := by
  obtain ⟨hle, hlt⟩ := scaled_bounds places hx
  have hlow := le_roundHalfEven (k := 10 ^ places) (by exact_mod_cast hle)
  have hhigh := roundHalfEven_le (k := 10 ^ (places + 1)) (by exact_mod_cast le_of_lt hlt)
  obtain ⟨n, hn⟩ : ∃ n : Nat,
      roundHalfEven (x * (10 : ℚ) ^ ((places : ℤ) - Int.log 10 x)) = n := by
    refine ⟨_, (Int.toNat_of_nonneg ?_).symm⟩
    have hpos : (0 : ℤ) < 10 ^ places := by positivity
    omega
  rw [hn] at hlow hhigh
  refine ⟨n, hn, by exact_mod_cast hlow, by exact_mod_cast hhigh, ?_⟩
  unfold Rounded.ofRat
  rw [if_neg (ne_of_gt hx)]
  dsimp only
  rw [floorLog10_eq_log hx, hn, Int.toNat_natCast]
  rfl

/-- The digits and the exponent that are computed for a positive number. -/
theorem ofRat_facts (places : Nat) {x : ℚ} (hx : 0 < x) :
    10 ^ places ≤ (Rounded.ofRat places x).digits ∧
      (Rounded.ofRat places x).digits < 10 ^ (places + 1) ∧
      IsRounded (places + 1) x ((Rounded.ofRat places x).digits *
        (10 : ℚ) ^ ((Rounded.ofRat places x).exponent - places)) := by
  obtain ⟨n, hn, hlow, hhigh, hrounded⟩ := exists_ofRat_eq places hx
  have hnearest : IsNearestEven (x / lastUnit (places + 1) x) n := by
    rw [div_lastUnit]
    exact roundHalfEven_eq_iff.1 hn
  have hunit : lastUnit (places + 1) x = (10 : ℚ) ^ (Int.log 10 x - places) := by
    rw [lastUnit]
    congr 1
    push_cast
    ring
  have hpow : (10 : Nat) ^ places < 10 ^ (places + 1) :=
    Nat.pow_lt_pow_right (by decide) (Nat.lt_succ_self places)
  rw [hrounded]
  by_cases hlt : n < 10 ^ (places + 1)
  · rw [if_pos hlt]
    refine ⟨hlow, hlt, n, hnearest, ?_⟩
    rw [hunit]
    push_cast
    rfl
  · rw [if_neg hlt]
    refine ⟨le_rfl, hpow, n, hnearest, ?_⟩
    have hn' : n = 10 ^ (places + 1) := by omega
    have hshift : Int.log 10 x + 1 - (places : ℤ) = 1 + (Int.log 10 x - places) := by ring
    rw [hunit, hn', hshift, ten_zpow_add, zpow_one]
    push_cast
    ring

/-- The value of rounded digits: the last of them stands `places` below the exponent. -/
def Rounded.toRat (places : Nat) (r : Rounded) : ℚ :=
  r.digits * (10 : ℚ) ^ (r.exponent - places)

/-- The exponent that is kept is that of the rounded value. -/
theorem log_toRat_ofRat (places : Nat) {x : ℚ} (hx : 0 < x) :
    Int.log 10 ((Rounded.ofRat places x).toRat places) = (Rounded.ofRat places x).exponent := by
  obtain ⟨hlow, hhigh, _⟩ := ofRat_facts places hx
  have hscale := ten_zpow_pos ((Rounded.ofRat places x).exponent - places)
  refine log_eq_of_bounds ?_ ?_
  · calc (10 : ℚ) ^ (Rounded.ofRat places x).exponent
        = (10 : ℚ) ^ places * 10 ^ ((Rounded.ofRat places x).exponent - places) := by
          rw [← zpow_natCast, ← ten_zpow_add]
          congr 1
          ring
      _ ≤ (Rounded.ofRat places x).toRat places :=
          mul_le_mul_of_nonneg_right (by exact_mod_cast hlow) (le_of_lt hscale)
  · calc (Rounded.ofRat places x).toRat places
        < (10 : ℚ) ^ (places + 1) * 10 ^ ((Rounded.ofRat places x).exponent - places) :=
          mul_lt_mul_of_pos_right (by exact_mod_cast hhigh) hscale
      _ = (10 : ℚ) ^ ((Rounded.ofRat places x).exponent + 1) := by
          rw [← zpow_natCast, ← ten_zpow_add]
          congr 1
          push_cast
          ring

theorem ofRat_zero (places : Nat) : Rounded.ofRat places 0 = ⟨0, 0⟩ := by
  rw [Rounded.ofRat, if_pos rfl]

/-- The digits and the exponent that are computed are those of the number rounded to as many
significant digits. -/
theorem isRounded_ofRat (places : Nat) {x : ℚ} (hx : 0 ≤ x) :
    IsRounded (places + 1) x ((Rounded.ofRat places x).toRat places) ∧
      Int.log 10 ((Rounded.ofRat places x).toRat places) = (Rounded.ofRat places x).exponent ∧
      (Rounded.ofRat places x).digits < 10 ^ (places + 1) := by
  rcases hx.eq_or_lt with hzero | hpos
  · rw [← hzero, ofRat_zero]
    have hvalue : (⟨0, 0⟩ : Rounded).toRat places = 0 := by simp [Rounded.toRat]
    rw [hvalue]
    refine ⟨⟨0, ⟨by norm_num, by norm_num⟩, by simp⟩, Int.log_zero_right 10, by positivity⟩
  · obtain ⟨_, hhigh, hrounded⟩ := ofRat_facts places hpos
    exact ⟨hrounded, log_toRat_ofRat places hpos, hhigh⟩

/-- Rounding to significant digits leaves the exponent of a number or raises it by one. -/
theorem IsRounded.log_bounds {places : Nat} {x r : ℚ} (h : IsRounded (places + 1) x r)
    (hx : 0 ≤ x) : Int.log 10 x ≤ Int.log 10 r ∧ Int.log 10 r ≤ Int.log 10 x + 1 := by
  obtain ⟨hrounded, hlog, -⟩ := isRounded_ofRat places hx
  rw [h.unique hrounded, hlog]
  rcases hx.eq_or_lt with hzero | hpos
  · rw [← hzero, ofRat_zero, Int.log_zero_right]
    exact ⟨le_rfl, by decide⟩
  · obtain ⟨n, -, -, -, hdigits⟩ := exists_ofRat_eq places hpos
    rw [hdigits]
    split
    · exact ⟨le_rfl, by dsimp only; omega⟩
    · exact ⟨by dsimp only; omega, le_rfl⟩

/-- Rounding at the last place of the rounded value gives the same digits, also when its exponent is
one higher than that of the number. -/
theorem roundHalfEven_at_exponent {places : Nat} {x : ℚ} (hx : 0 ≤ x) {p : Nat}
    (hp : (p : ℤ) = places - (Rounded.ofRat places x).exponent) :
    roundHalfEven (x * (10 : ℚ) ^ (p : ℤ)) = (Rounded.ofRat places x).digits := by
  rcases hx.eq_or_lt with hzero | hpos
  · rw [← hzero, ofRat_zero, zero_mul]
    exact roundHalfEven_intCast 0
  · obtain ⟨n, hn, _, hhigh, hrounded⟩ := exists_ofRat_eq places hpos
    rw [hrounded] at hp ⊢
    by_cases hlt : n < 10 ^ (places + 1)
    · rw [if_pos hlt] at hp ⊢
      rw [hp]
      exact hn
    · rw [if_neg hlt] at hp ⊢
      have hcarry : n = 10 ^ (places + 1) := by omega
      have hnear := (isNearestEven_roundHalfEven
        (x * (10 : ℚ) ^ ((places : ℤ) - Int.log 10 x))).1
      have hlt := (scaled_bounds places hpos).2
      rw [hn, hcarry] at hnear
      -- one place less: a tenth of the number in units of the last of its digits
      have htenth : x * (10 : ℚ) ^ (p : ℤ) =
          x * (10 : ℚ) ^ ((places : ℤ) - Int.log 10 x) / 10 := by
        have hshift : (p : ℤ) = (places : ℤ) - Int.log 10 x + -1 := by
          rw [hp]
          ring
        rw [hshift, ten_zpow_add, zpow_neg_one, ← mul_assoc, div_eq_mul_inv]
      have hbounds := abs_le.1 hnear
      push_cast at hbounds
      have hpow : (10 : ℚ) ^ (places + 1) = 10 * 10 ^ places := by ring
      refine roundHalfEven_of_abs_lt ?_
      rw [htenth, abs_lt]
      push_cast
      constructor <;> linarith

end DeviceMessages.Decimal
