import DeviceMessages.Decimal.Binary64
import DeviceMessages.Proofs.Decimal.Rounding

/-!
# The double nearest to a number

The doubles around a number are multiples of a power of two, the unit of their last place. The unit
depends on the size of the number (`lastPlace`), and in that unit a double is an integer of 53 bits
at most. So the nearest double is found by rounding to an integer, and what is shown about it here
comes from the bounds of the number in its unit, `scaled_lt` and `le_scaled`.

The integer can be rounded up to 54 bits. Then it is a power of two, which is a double at the next
larger unit, unless it is beyond the largest unit that there is.

## Main results

* `abs_sub_le_of_nearest?` — no double is nearer to the number than the one that is found.
* `nearest?_eq_none_iff` — none is found from half a unit above the largest double on.
-/

namespace DeviceMessages.Decimal

/-- No integer is nearer than a nearest one. -/
theorem IsNearestEven.le_abs_sub {x : ℚ} {n : ℤ} (h : IsNearestEven x n) (k : ℤ) :
    |x - n| ≤ |x - k| := by
  by_cases heq : n = k
  · rw [heq]
  · have hapart : (1 : ℚ) ≤ |(n : ℚ) - k| := by
      have hint : 1 ≤ |n - k| := Int.one_le_abs (sub_ne_zero.2 heq)
      exact_mod_cast hint
    have htriangle := abs_sub_le (n : ℚ) x k
    rw [abs_sub_comm (n : ℚ) x] at htriangle
    have hhalf := h.1
    linarith

/-- A number that is no further from an integer than one that is rounded to it is rounded to it as
well. -/
theorem IsNearestEven.of_abs_sub_le {x y : ℚ} {n : ℤ} (h : IsNearestEven x n)
    (hle : |y - n| ≤ |x - n|) : IsNearestEven y n := by
  obtain ⟨hnear, htie⟩ := h
  refine ⟨hle.trans hnear, fun hhalf => htie ?_⟩
  rw [hhalf] at hle
  exact le_antisymm hnear hle

theorem two_zpow_pos (k : ℤ) : (0 : ℚ) < 2 ^ k :=
  zpow_pos (by norm_num) k

theorem two_zpow_add (j k : ℤ) : (2 : ℚ) ^ (j + k) = 2 ^ j * 2 ^ k :=
  zpow_add₀ (by norm_num) j k

namespace Magnitude

/-- The exponent that is computed from the lengths of the numerator and the denominator is that of
the largest power of two in the number. -/
theorem floorLog2_bounds {x : ℚ} (hx : 0 < x) :
    (2 : ℚ) ^ floorLog2 x ≤ x ∧ x < (2 : ℚ) ^ (floorLog2 x + 1) := by
  have hnum : 0 < x.num := Rat.num_pos.2 hx
  have hden : (0 : ℚ) < x.den := by exact_mod_cast x.den_pos
  have hvalue : x * x.den = x.num.toNat := by
    have hcast : ((x.num.toNat : ℤ) : ℚ) = x.num := by rw [Int.toNat_of_nonneg hnum.le]
    rw [Rat.mul_den_eq_num, ← hcast]
    norm_cast
  have hnumLow : (2 : ℚ) ^ (x.num.toNat.log2 : ℤ) ≤ x.num.toNat := by
    exact_mod_cast Nat.log2_self_le (by omega)
  have hnumHigh : (x.num.toNat : ℚ) < (2 : ℚ) ^ ((x.num.toNat.log2 : ℤ) + 1) := by
    exact_mod_cast Nat.lt_log2_self
  have hdenLow : (2 : ℚ) ^ (x.den.log2 : ℤ) ≤ x.den := by
    exact_mod_cast Nat.log2_self_le x.den_nz
  have hdenHigh : (x.den : ℚ) < (2 : ℚ) ^ ((x.den.log2 : ℤ) + 1) := by
    exact_mod_cast Nat.lt_log2_self
  unfold floorLog2
  dsimp only
  generalize (x.num.toNat.log2 : ℤ) = a at *
  generalize (x.den.log2 : ℤ) = b at *
  have hlow : (2 : ℚ) ^ (a - b - 1) < x := by
    have hsplit : (2 : ℚ) ^ a = 2 ^ (a - b - 1) * 2 ^ (b + 1) := by
      rw [← two_zpow_add]
      congr 1
      ring
    have hscaled : (2 : ℚ) ^ (a - b - 1) * x.den < x * x.den := by
      calc (2 : ℚ) ^ (a - b - 1) * x.den < 2 ^ (a - b - 1) * 2 ^ (b + 1) :=
            mul_lt_mul_of_pos_left hdenHigh (two_zpow_pos _)
        _ = 2 ^ a := hsplit.symm
        _ ≤ x * x.den := by rw [hvalue]; exact hnumLow
    exact lt_of_mul_lt_mul_right hscaled hden.le
  have hhigh : x < (2 : ℚ) ^ (a - b + 1) := by
    have hsplit : (2 : ℚ) ^ (a + 1) = 2 ^ (a - b + 1) * 2 ^ b := by
      rw [← two_zpow_add]
      congr 1
      ring
    have hscaled : x * x.den < (2 : ℚ) ^ (a - b + 1) * x.den := by
      calc x * x.den < (2 : ℚ) ^ (a + 1) := by rw [hvalue]; exact hnumHigh
        _ = 2 ^ (a - b + 1) * 2 ^ b := hsplit
        _ ≤ 2 ^ (a - b + 1) * x.den := mul_le_mul_of_nonneg_left hdenLow (two_zpow_pos _).le
    exact lt_of_mul_lt_mul_right hscaled hden.le
  split
  · next hguess => exact ⟨hguess, hhigh⟩
  · next hguess =>
      rw [sub_add_cancel]
      exact ⟨hlow.le, lt_of_not_ge hguess⟩

/-! ## A number in units of the last place -/

/-- The exponent of the last place of the doubles around a number. -/
def lastPlace (x : ℚ) : ℤ :=
  if x = 0 then -1074 else max (floorLog2 x - 52) (-1074)

/-- The number in units of the last place of the doubles around it. -/
def scaled (x : ℚ) : ℚ :=
  x * (2 : ℚ) ^ (-lastPlace x)

variable {x : ℚ}

theorem le_lastPlace (x : ℚ) : -1074 ≤ lastPlace x := by
  unfold lastPlace
  split
  · exact le_rfl
  · exact le_max_right _ _

theorem scaled_mul_two_zpow (x : ℚ) : scaled x * (2 : ℚ) ^ lastPlace x = x := by
  rw [scaled, mul_assoc, ← two_zpow_add, neg_add_cancel, zpow_zero, mul_one]

theorem scaled_nonneg (hx : 0 ≤ x) : 0 ≤ scaled x :=
  mul_nonneg hx (two_zpow_pos _).le

/-- It has 53 binary digits at most before the point. -/
theorem scaled_lt (hx : 0 ≤ x) : scaled x < 2 ^ 53 := by
  rcases hx.eq_or_lt with hzero | hpos
  · rw [← hzero, scaled, zero_mul]
    norm_num
  · have hplace : floorLog2 x - 52 ≤ lastPlace x := by
      rw [lastPlace, if_neg hpos.ne']
      exact le_max_left _ _
    calc scaled x < (2 : ℚ) ^ (floorLog2 x + 1) * 2 ^ (-lastPlace x) :=
          mul_lt_mul_of_pos_right (floorLog2_bounds hpos).2 (two_zpow_pos _)
      _ = (2 : ℚ) ^ (floorLog2 x + 1 + -lastPlace x) := (two_zpow_add _ _).symm
      _ ≤ (2 : ℚ) ^ (53 : ℤ) := zpow_le_zpow_right₀ (by norm_num) (by omega)
      _ = 2 ^ 53 := by norm_num

/-- It has all of them unless the unit is the smallest one. -/
theorem le_scaled (hx : 0 ≤ x) (hplace : lastPlace x ≠ -1074) : 2 ^ 52 ≤ scaled x := by
  rcases hx.eq_or_lt with hzero | hpos
  · rw [← hzero, lastPlace, if_pos rfl] at hplace
    exact absurd rfl hplace
  · have hlarge : lastPlace x = floorLog2 x - 52 := by
      rw [lastPlace, if_neg hpos.ne'] at hplace ⊢
      omega
    calc (2 : ℚ) ^ 52 = (2 : ℚ) ^ (52 : ℤ) := by norm_num
      _ = (2 : ℚ) ^ floorLog2 x * 2 ^ (-lastPlace x) := by
          rw [hlarge, ← two_zpow_add]
          congr 1
          ring
      _ ≤ scaled x :=
          mul_le_mul_of_nonneg_right (floorLog2_bounds hpos).1 (two_zpow_pos _).le

/-- The unit shows between which powers of two the number is. -/
theorem lastPlace_le_iff (hx : 0 ≤ x) {k : ℤ} (hk : -1074 ≤ k) :
    lastPlace x ≤ k ↔ x < (2 : ℚ) ^ (k + 53) := by
  constructor
  · intro hplace
    calc x = scaled x * (2 : ℚ) ^ lastPlace x := (scaled_mul_two_zpow x).symm
      _ < 2 ^ 53 * (2 : ℚ) ^ lastPlace x :=
          mul_lt_mul_of_pos_right (scaled_lt hx) (two_zpow_pos _)
      _ = (2 : ℚ) ^ (lastPlace x + 53) := by
          rw [two_zpow_add, mul_comm]
          norm_num
      _ ≤ (2 : ℚ) ^ (k + 53) := zpow_le_zpow_right₀ (by norm_num) (by omega)
  · intro hlt
    by_contra hplace
    have hfull := le_scaled hx (by omega)
    refine absurd hlt (not_lt_of_ge ?_)
    calc (2 : ℚ) ^ (k + 53) ≤ (2 : ℚ) ^ (52 + lastPlace x) :=
          zpow_le_zpow_right₀ (by norm_num) (by omega)
      _ = 2 ^ 52 * (2 : ℚ) ^ lastPlace x := by
          rw [two_zpow_add]
          norm_num
      _ ≤ scaled x * (2 : ℚ) ^ lastPlace x :=
          mul_le_mul_of_nonneg_right hfull (two_zpow_pos _).le
      _ = x := scaled_mul_two_zpow x

/-! ## The double that is found -/

/-- What the magnitude of a finite double is: a significand of 53 bits at most at one of the
exponents that there are. -/
structure IsFinite (m : Magnitude) : Prop where
  significand_lt : m.significand < 2 ^ 53
  le_exponent : -1074 ≤ m.exponent
  exponent_le : m.exponent ≤ 971

/-- An integer in units of the last place as a magnitude: with 54 bits it takes the next unit. -/
def ofScaled (x : ℚ) (n : Nat) : Magnitude :=
  if n < 2 ^ 53 then ⟨n, lastPlace x⟩ else ⟨2 ^ 52, lastPlace x + 1⟩

theorem toRat_ofScaled {n : Nat} (hn : n ≤ 2 ^ 53) :
    (ofScaled x n).toRat = n * (2 : ℚ) ^ lastPlace x := by
  unfold ofScaled
  split
  · rfl
  · next hlt =>
      have hcarry : n = 2 ^ 53 := by omega
      rw [hcarry, toRat, two_zpow_add, zpow_one]
      push_cast
      ring

/-- The number is rounded to an integer in units of the last place, and the double is that integer
if its exponent is not too large. -/
theorem exists_nearest?_eq (hx : 0 ≤ x) :
    ∃ n : Nat, IsNearestEven (scaled x) n ∧ n ≤ 2 ^ 53 ∧
      nearest? x = if (ofScaled x n).exponent ≤ 971 then some (ofScaled x n) else none := by
  have hlow := le_roundHalfEven (k := 0) (by exact_mod_cast scaled_nonneg hx)
  have hhigh := roundHalfEven_le (k := 2 ^ 53) (by exact_mod_cast (scaled_lt hx).le)
  obtain ⟨n, hn⟩ : ∃ n : Nat, roundHalfEven (scaled x) = n :=
    ⟨_, (Int.toNat_of_nonneg hlow).symm⟩
  rw [hn] at hhigh
  refine ⟨n, roundHalfEven_eq_iff.1 hn, by omega, ?_⟩
  have htoNat : (roundHalfEven (x * (2 : ℚ) ^ (-lastPlace x))).toNat = n := by
    show (roundHalfEven (scaled x)).toNat = n
    rw [hn, Int.toNat_natCast]
  show (let rounded : Magnitude :=
      if (roundHalfEven (x * (2 : ℚ) ^ (-lastPlace x))).toNat < 2 ^ 53 then
        ⟨(roundHalfEven (x * (2 : ℚ) ^ (-lastPlace x))).toNat, lastPlace x⟩
      else ⟨2 ^ 52, lastPlace x + 1⟩
    if rounded.exponent ≤ 971 then some rounded else none) = _
  rw [htoNat]
  rfl

theorem isFinite_of_nearest? (hx : 0 ≤ x) {m : Magnitude} (h : nearest? x = some m) :
    m.IsFinite := by
  obtain ⟨n, -, hn, hnearest⟩ := exists_nearest?_eq hx
  rw [hnearest, Option.ite_none_right_eq_some] at h
  obtain ⟨hexponent, heq⟩ := h
  cases heq
  have hplace := le_lastPlace x
  refine ⟨?_, ?_, hexponent⟩
  · unfold ofScaled
    split
    · assumption
    · norm_num
  · unfold ofScaled
    split <;> dsimp only <;> omega

/-- Below half of the smallest double the nearest one is zero. -/
theorem nearest?_of_lt (hx : 0 ≤ x) (hlt : x < (2 : ℚ) ^ (-1075 : ℤ)) :
    nearest? x = some ⟨0, -1074⟩ := by
  obtain ⟨n, hnear, -, hnearest⟩ := exists_nearest?_eq hx
  have hplace : lastPlace x = -1074 := by
    have hle : lastPlace x ≤ -1074 := (lastPlace_le_iff hx le_rfl).2
      (hlt.trans_le (zpow_le_zpow_right₀ (by norm_num) (by norm_num)))
    have hge := le_lastPlace x
    omega
  have hhalf : scaled x < 1 / 2 := by
    calc scaled x < (2 : ℚ) ^ (-1075 : ℤ) * 2 ^ (1074 : ℤ) := by
          rw [scaled, hplace]
          exact mul_lt_mul_of_pos_right hlt (two_zpow_pos _)
      _ = 1 / 2 := by
          rw [← two_zpow_add]
          norm_num
  have hzero : IsNearestEven (scaled x) 0 := by
    have hdistance : |scaled x - (0 : ℤ)| = scaled x := by
      rw [Int.cast_zero, sub_zero, abs_of_nonneg (scaled_nonneg hx)]
    rw [IsNearestEven, hdistance]
    exact ⟨hhalf.le, fun htie => absurd htie hhalf.ne⟩
  have hn : n = 0 := by exact_mod_cast hnear.unique hzero
  rw [hnearest, hn, ofScaled, hplace]
  rfl

/-! ## No double is nearer -/

/-- A double that is not a multiple of the unit is below the number, with a multiple between
them. -/
private theorem abs_scaled_sub_le (hx : 0 ≤ x) {n : ℤ} (hn : IsNearestEven (scaled x) n)
    {w : Magnitude} (hw : w.IsFinite) :
    |scaled x - n| ≤ |scaled x - w.toRat * (2 : ℚ) ^ (-lastPlace x)| := by
  by_cases hplace : lastPlace x ≤ w.exponent
  · obtain ⟨k, hk⟩ : ∃ k : Nat, w.exponent + -lastPlace x = k :=
      ⟨_, (Int.toNat_of_nonneg (by omega)).symm⟩
    have hmultiple : w.toRat * (2 : ℚ) ^ (-lastPlace x) = ((w.significand * 2 ^ k : ℤ) : ℚ) := by
      rw [toRat, mul_assoc, ← two_zpow_add, hk]
      push_cast
      rw [zpow_natCast]
    rw [hmultiple]
    exact hn.le_abs_sub _
  · have hfull := le_scaled hx (by have := hw.le_exponent; omega)
    have hsmall : w.toRat * (2 : ℚ) ^ (-lastPlace x) ≤ 2 ^ 52 := by
      have hsignificand : (w.significand : ℚ) ≤ 2 ^ 53 := by
        exact_mod_cast hw.significand_lt.le
      calc w.toRat * (2 : ℚ) ^ (-lastPlace x)
          = w.significand * 2 ^ (w.exponent + -lastPlace x) := by
            rw [toRat, mul_assoc, two_zpow_add]
        _ ≤ 2 ^ 53 * 2 ^ (-1 : ℤ) := by
            refine mul_le_mul hsignificand ?_ (two_zpow_pos _).le (by norm_num)
            exact zpow_le_zpow_right₀ (by norm_num) (by omega)
        _ = 2 ^ 52 := by norm_num
    have hbetween := hn.le_abs_sub (2 ^ 52)
    rw [Int.cast_pow, Int.cast_ofNat] at hbetween
    calc |scaled x - n| ≤ |scaled x - 2 ^ 52| := hbetween
      _ = scaled x - 2 ^ 52 := abs_of_nonneg (by linarith)
      _ ≤ scaled x - w.toRat * (2 : ℚ) ^ (-lastPlace x) := by linarith
      _ ≤ |scaled x - w.toRat * (2 : ℚ) ^ (-lastPlace x)| := le_abs_self _

/-- No double is nearer to a number than the one that is found. -/
theorem abs_sub_le_of_nearest? (hx : 0 ≤ x) {m : Magnitude} (h : nearest? x = some m)
    {w : Magnitude} (hw : w.IsFinite) : |x - m.toRat| ≤ |x - w.toRat| := by
  obtain ⟨n, hnear, hn, hnearest⟩ := exists_nearest?_eq hx
  rw [hnearest, Option.ite_none_right_eq_some] at h
  obtain ⟨-, heq⟩ := h
  cases heq
  have hunit := two_zpow_pos (lastPlace x)
  have hdistance : ∀ y : ℚ, |x - y| =
      |scaled x - y * (2 : ℚ) ^ (-lastPlace x)| * 2 ^ lastPlace x := by
    intro y
    have hunscaled : (scaled x - y * (2 : ℚ) ^ (-lastPlace x)) * 2 ^ lastPlace x = x - y := by
      rw [sub_mul, scaled_mul_two_zpow, mul_assoc, ← two_zpow_add, neg_add_cancel, zpow_zero,
        mul_one]
    rw [← hunscaled, abs_mul, abs_of_pos hunit]
  have hfound : (ofScaled x n).toRat * (2 : ℚ) ^ (-lastPlace x) = ((n : ℤ) : ℚ) := by
    rw [toRat_ofScaled hn, mul_assoc, ← two_zpow_add, add_neg_cancel, zpow_zero, mul_one]
    norm_cast
  rw [hdistance, hdistance w.toRat, hfound]
  exact mul_le_mul_of_nonneg_right (abs_scaled_sub_le hx hnear hw) hunit.le

/-- The double nearest to a number that is one or more is not below one. -/
theorem one_le_toRat_of_nearest? (hx : 1 ≤ x) {m : Magnitude} (h : nearest? x = some m) :
    1 ≤ m.toRat := by
  have hone : IsFinite ⟨1, 0⟩ := ⟨by norm_num, by norm_num, by norm_num⟩
  have hvalue : toRat ⟨1, 0⟩ = 1 := by norm_num [toRat]
  have hnear := abs_sub_le_of_nearest? (zero_le_one.trans hx) h hone
  rw [hvalue, abs_of_nonneg (sub_nonneg.2 hx)] at hnear
  linarith [le_abs_self (x - m.toRat)]

/-! ## Numbers that are too large -/

/-- Half a unit above the largest double. From here on a number is nearer to `2 ^ 1024`, which is
not a double. -/
def overflowBound : ℚ := 2 ^ 1024 - 2 ^ 970

theorem overflowBound_eq : overflowBound = (2 ^ 53 - 1 / 2) * (2 : ℚ) ^ (971 : ℤ) := by
  have hlarge : (2 : ℚ) ^ 1024 = 2 ^ 54 * 2 ^ 970 := pow_add 2 54 970
  rw [overflowBound, hlarge, show (971 : ℤ) = 1 + 970 by norm_num, two_zpow_add, zpow_one,
    zpow_ofNat]
  generalize (2 : ℚ) ^ 970 = half
  ring

def largest : ℚ := (2 ^ 53 - 1) * (2 : ℚ) ^ (971 : ℤ)

private theorem cast_le_of_lt {n : Nat} (h : n < 2 ^ 53) : (n : ℚ) ≤ 2 ^ 53 - 1 := by
  have hcast : ((n + 1 : Nat) : ℚ) ≤ ((2 ^ 53 : Nat) : ℚ) := by exact_mod_cast h
  push_cast at hcast
  linarith

theorem IsFinite.toRat_le_largest {m : Magnitude} (h : m.IsFinite) : m.toRat ≤ largest := by
  calc m.toRat ≤ (2 ^ 53 - 1) * (2 : ℚ) ^ m.exponent :=
        mul_le_mul_of_nonneg_right (cast_le_of_lt h.significand_lt) (two_zpow_pos _).le
    _ ≤ largest := by
        refine mul_le_mul_of_nonneg_left ?_ (by norm_num)
        exact zpow_le_zpow_right₀ (by norm_num) h.exponent_le

/-- It is an integer. -/
theorem exists_largest_eq_intCast : ∃ n : ℤ, largest = n := by
  refine ⟨(2 ^ 53 - 1) * 2 ^ 971, ?_⟩
  rw [largest, show (971 : ℤ) = (971 : Nat) by rfl, zpow_natCast]
  generalize (971 : Nat) = k
  push_cast
  ring

theorem largest_lt_overflowBound : largest < overflowBound := by
  rw [overflowBound_eq, largest]
  exact mul_lt_mul_of_pos_right (by norm_num) (two_zpow_pos _)

/-- The largest odd significand is not rounded to from half a unit above it on: that is a tie, which
goes to the even power of two. -/
private theorem lt_iff_of_isNearestEven {y : ℚ} {n : Nat} (hy : IsNearestEven y n)
    (hn : n ≤ 2 ^ 53) : n < 2 ^ 53 ↔ y < 2 ^ 53 - 1 / 2 := by
  obtain ⟨hnear, htie⟩ := hy
  have hbounds := abs_le.1 hnear
  push_cast at hbounds htie
  constructor
  · intro hlt
    have hle := cast_le_of_lt hlt
    by_contra hhigh
    have hhalf : y - n = 1 / 2 := by linarith
    have hmax : (n : ℚ) = 2 ^ 53 - 1 := by linarith
    have heven : Even (n : ℤ) := htie (by rw [hhalf]; norm_num)
    have hodd : n = 2 ^ 53 - 1 := by
      have hcast : ((n + 1 : Nat) : ℚ) = ((2 ^ 53 : Nat) : ℚ) := by
        push_cast
        linarith
      have hint : n + 1 = 2 ^ 53 := by exact_mod_cast hcast
      omega
    rw [hodd] at heven
    revert heven
    decide
  · intro hlt
    by_contra hge
    have hcarry : n = 2 ^ 53 := by omega
    rw [hcarry] at hbounds
    push_cast at hbounds
    linarith

/-- There is no nearest double from half a unit above the largest one on. -/
theorem nearest?_eq_none_iff (hx : 0 ≤ x) : nearest? x = none ↔ overflowBound ≤ x := by
  obtain ⟨n, hnear, hn, hnearest⟩ := exists_nearest?_eq hx
  have hcarry := lt_iff_of_isNearestEven hnear hn
  have hbound : overflowBound < (2 : ℚ) ^ ((971 : ℤ) + 53) := by
    rw [overflowBound_eq, add_comm, two_zpow_add]
    exact mul_lt_mul_of_pos_right (by norm_num) (two_zpow_pos _)
  have hsome : nearest? x ≠ none ↔ (ofScaled x n).exponent ≤ 971 := by
    rw [hnearest]
    simp
  rw [← not_iff_not, ← ne_eq, hsome, not_le]
  by_cases hplace : lastPlace x ≤ 970
  · -- there is room for a carry
    have hexponent : (ofScaled x n).exponent ≤ 971 := by
      unfold ofScaled
      split <;> dsimp only <;> omega
    have hlt := (lastPlace_le_iff hx (by norm_num)).1 hplace
    refine iff_of_true hexponent (lt_of_lt_of_le hlt ?_)
    rw [overflowBound_eq, show (970 : ℤ) + 53 = 52 + 971 by norm_num, two_zpow_add]
    exact mul_le_mul_of_nonneg_right (by norm_num) (two_zpow_pos _).le
  · by_cases hlargest : lastPlace x = 971
    · have hexponent : (ofScaled x n).exponent ≤ 971 ↔ n < 2 ^ 53 := by
        unfold ofScaled
        rw [hlargest]
        split <;> simp_all
      have hunscaled : scaled x * (2 : ℚ) ^ (971 : ℤ) = x := by
        rw [← hlargest]
        exact scaled_mul_two_zpow x
      rw [hexponent, hcarry, overflowBound_eq]
      conv => rhs; lhs; rw [← hunscaled]
      exact (mul_lt_mul_iff_of_pos_right (two_zpow_pos _)).symm
    · have hexponent : ¬ (ofScaled x n).exponent ≤ 971 := by
        unfold ofScaled
        split <;> dsimp only <;> omega
      have hnot : ¬ x < (2 : ℚ) ^ ((971 : ℤ) + 53) := by
        rw [← lastPlace_le_iff hx (by norm_num)]
        omega
      exact iff_of_false hexponent fun hlt => hnot (hlt.trans hbound)

end Magnitude

end DeviceMessages.Decimal
