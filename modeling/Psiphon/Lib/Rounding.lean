import Mathlib.Algebra.Order.Round
import Mathlib.Data.Int.Log
import Mathlib.Tactic.Ring

/-!
# Rounding to a significand of fixed width

`nearest p x` is the number with a significand of `p` bits that is nearest to `x`, the one with an
even significand where two are as near.
-/

namespace Rounding

variable {K : Type*} [Field K] [LinearOrder K] [IsStrictOrderedRing K] [FloorRing K]

/-- The nearest integer, the even one of two. -/
def roundEven (x : K) : ℤ :=
  let r := ⌊x + 1 / 2⌋
  if x + 1 / 2 = r ∧ r % 2 = 1 then r - 1 else r

/-- The weight of the last bit of a significand of `p` bits at `x`. -/
def ulp (p : ℕ) (x : K) : K := 2 ^ (Int.log 2 x + 1 - p)

def nearest (p : ℕ) (x : K) : K := roundEven (x / ulp p x) * ulp p x

theorem le_roundEven_iff {k : ℤ} (hk : Even k) (x : K) : k ≤ roundEven x ↔ (k : K) - 1 / 2 ≤ x := by
  have hf : k ≤ ⌊x + 1 / 2⌋ ↔ (k : K) - 1 / 2 ≤ x := by
    rw [Int.le_floor,sub_le_iff_le_add]
  rw [← hf,roundEven]
  split
  · next htie =>
    -- a tie at an odd integer goes down, and no even one lies between
    obtain ⟨j,rfl⟩ := hk
    omega
  · rfl

theorem abs_roundEven_sub_le (x : K) : |(roundEven x : K) - x| ≤ 1 / 2 := by
  have hle := Int.floor_le (x + 1 / 2)
  have hlt := Int.lt_floor_add_one (x + 1 / 2)
  rw [abs_le,roundEven]
  split
  · next htie =>
    push_cast
    constructor <;> linarith
  · constructor <;> linarith

section

variable {p : ℕ} {x y : K}

theorem ulp_pos : 0 < ulp p x := zpow_pos two_pos _

theorem ulp_le (hx : 0 < x) : ulp p x ≤ x * 2 ^ (1 - p : ℤ) := by
  have hl : ((2 : ℕ) : K) ^ Int.log 2 x ≤ x := Int.zpow_log_le_self one_lt_two hx
  calc ulp p x = 2 ^ Int.log 2 x * 2 ^ (1 - p : ℤ) := by
        rw [ulp,← zpow_add₀ two_ne_zero,add_sub_assoc]
    _ ≤ x * 2 ^ (1 - p : ℤ) := mul_le_mul_of_nonneg_right hl (zpow_nonneg two_pos.le _)

theorem ulp_le_ulp (hxy : x ≤ y) (hy : 1 ≤ y) : ulp p x ≤ ulp p y := by
  have hlog : Int.log 2 x ≤ Int.log 2 y := by
    rcases le_or_gt x 0 with hx | hx
    · rw [Int.log_of_right_le_zero 2 hx,Int.log_of_one_le_right 2 hy]
      exact Int.natCast_nonneg _
    · exact Int.log_mono_right hx hxy
  exact zpow_le_zpow_right₀ one_le_two (by omega)

theorem abs_nearest_sub_le : |nearest p x - x| ≤ ulp p x / 2 := by
  have hu : (0 : K) < ulp p x := ulp_pos
  have h := abs_roundEven_sub_le (x / ulp p x)
  calc |nearest p x - x| = |(roundEven (x / ulp p x) : K) - x / ulp p x| * ulp p x := by
        rw [← abs_of_pos hu,← abs_mul,abs_of_pos hu,sub_mul,div_mul_cancel₀ _ hu.ne',nearest]
    _ ≤ 1 / 2 * ulp p x := mul_le_mul_of_nonneg_right h hu.le
    _ = ulp p x / 2 := by ring

theorem le_nearest_iff {k : ℤ} (hk : Even k) :
    k * ulp p x ≤ nearest p x ↔ k * ulp p x - ulp p x / 2 ≤ x := by
  have hu : (0 : K) < ulp p x := ulp_pos
  have hs : k * ulp p x - ulp p x / 2 = (k - 1 / 2 : K) * ulp p x := by ring
  rw [nearest,mul_le_mul_iff_left₀ hu,Int.cast_le,le_roundEven_iff hk,hs,le_div_iff₀ hu]

/-! ### Rounding to an integer afterwards -/

theorem log_lt_of_lt (hp : 3 ≤ p) (hx : x < 2 ^ (p - 2)) : Int.log 2 x < (p : ℤ) - 2 := by
  rcases le_or_gt x 0 with h0 | h0
  · rw [Int.log_of_right_le_zero 2 h0]
    omega
  · rw [← Int.lt_zpow_iff_log_lt one_lt_two h0,Nat.cast_ofNat]
    calc x < 2 ^ (p - 2) := hx
      _ = 2 ^ ((p - 2 : ℕ) : ℤ) := (zpow_natCast 2 _).symm
      _ = 2 ^ ((p : ℤ) - 2) := by rw [Nat.cast_sub (by omega),Nat.cast_ofNat]

/-- Every half is an even multiple of the weight of the last bit. -/
theorem exists_even_mul_ulp (hp : 3 ≤ p) (hx : x < 2 ^ (p - 2)) (h : ℤ) :
    ∃ k : ℤ, Even k ∧ (h / 2 : K) = k * ulp p x := by
  have hlog := log_lt_of_lt hp hx
  -- the last bit has a weight of `2 ^ -(j + 2)`
  obtain ⟨j,hj⟩ : ∃ j : ℕ, Int.log 2 x + 1 - p = -(j + 2) :=
    ⟨(p - 3 - Int.log 2 x).toNat,by omega⟩
  refine ⟨h * 2 ^ (j + 1),(even_two.pow_of_ne_zero (by omega)).mul_left h,?_⟩
  have hpow : (2 : K) ^ (j + 1) * 2 ^ (-(j + 2) : ℤ) = 1 / 2 := by
    rw [← zpow_natCast,← zpow_add₀ two_ne_zero,
      show ((j + 1 : ℕ) : ℤ) + -(j + 2) = -1 by push_cast; ring,zpow_neg_one,one_div]
  rw [ulp,hj]
  push_cast
  rw [mul_assoc,hpow,mul_one_div]

/-- Rounding does not take a number below an integer. -/
theorem intCast_le_nearest (hp : 3 ≤ p) (hx : x < 2 ^ (p - 2)) {m : ℤ} (hm : m ≤ x) :
    m ≤ nearest p x := by
  obtain ⟨k,hk,heq⟩ := exists_even_mul_ulp hp hx (2 * m)
  have hc : (m : K) = k * ulp p x := by
    rw [← heq]
    push_cast
    ring
  have hu : (0 : K) < ulp p x := ulp_pos
  rw [hc,le_nearest_iff hk,← hc]
  linarith

theorem le_round_nearest_iff (hp : 3 ≤ p) (hx : x < 2 ^ (p - 2)) (m : ℤ) :
    m ≤ round (nearest p x) ↔ m - 1 / 2 - ulp p x / 2 ≤ x := by
  obtain ⟨k,hk,heq⟩ := exists_even_mul_ulp hp hx (2 * m - 1)
  have hh : (m - 1 / 2 : K) = k * ulp p x := by
    rw [← heq]
    push_cast
    ring
  rw [round_eq,Int.le_floor,← sub_le_iff_le_add,hh,le_nearest_iff hk]

theorem round_nearest_nonneg (hp : 3 ≤ p) (h0 : 0 ≤ x) (hx : x < 2 ^ (p - 2)) :
    0 ≤ round (nearest p x) := by
  have hu : (0 : K) < ulp p x := ulp_pos
  rw [le_round_nearest_iff hp hx,Int.cast_zero]
  linarith

/-- Numbers that are one apart are rounded to different integers. -/
theorem round_nearest_lt (hp : 3 ≤ p) (h0 : 0 ≤ x) (hxy : x + 1 ≤ y) (hy : y < 2 ^ (p - 2)) :
    round (nearest p x) < round (nearest p y) := by
  have hulp : ulp p x ≤ ulp p y := ulp_le_ulp (by linarith) (by linarith)
  have hx := (le_round_nearest_iff hp (by linarith) (round (nearest p x))).mp le_rfl
  rw [← Int.add_one_le_iff,le_round_nearest_iff hp hy]
  push_cast
  linarith

/-- A number close to an integer is rounded to it. -/
theorem round_nearest_eq (hp : 3 ≤ p) (hx : x < 2 ^ (p - 2)) {m : ℤ} (hm : |x - m| ≤ 1 / 4) :
    round (nearest p x) = m := by
  have hlog := log_lt_of_lt hp hx
  have hu : (0 : K) < ulp p x := ulp_pos
  have hulp : ulp p x ≤ 1 / 4 := by
    calc ulp p x ≤ 2 ^ (-2 : ℤ) := zpow_le_zpow_right₀ one_le_two (by omega)
      _ = 1 / 4 := by norm_num
  obtain ⟨hlo,hhi⟩ := abs_le.mp hm
  refine le_antisymm (Int.lt_add_one_iff.mp (lt_of_not_ge fun h => ?_)) ?_
  · rw [le_round_nearest_iff hp hx] at h
    push_cast at h
    linarith
  · rw [le_round_nearest_iff hp hx]
    linarith

end

end Rounding
