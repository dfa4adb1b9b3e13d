import Mathlib.Data.Rat.Floor
import Psiphon.Lib.Rounding
import Psiphon.Python

/-!
# Selecting a discovery server

`select_servers` of `psi_ops_discovery.py`. The places where the list is cut are computed in
doubles.
-/

namespace Psiphon.Discovery

open Rounding

def timeGranularity : ℕ := 3600

/-- `int(math.ceil(math.sqrt(length)))`. Doubles give the exact count for every length below `2 ^
52`. -/
def calculateBucketCount (length : ℕ) : ℕ :=
  if length.sqrt * length.sqrt = length then length.sqrt else length.sqrt + 1

/-- The double nearest to a fraction whose size is far from the limits of the format. -/
def toDouble (x : ℚ) : ℚ := nearest 53 x

/-- Longer lists do not fit the address space of a process. -/
def maxListLength : ℕ := 2 ^ 50

/-- `int(round(division * i))`: the start of bucket `i`. Both operations round to a double, and
`round` takes a half up. A list that no process can hold is cut at exact fractions. -/
def cut (length n i : ℕ) : ℕ :=
  if length < maxListLength then
    let division := toDouble (length / n)
    (round (toDouble (division * i))).toNat
  else (2 * (length * i) + n) / (2 * n)

def partition {α : Type*} (lst : List α) (n : ℕ) : List (List α) :=
  (List.range n).map fun i =>
    (lst.take (cut lst.length n (i + 1))).drop (cut lst.length n i)

/-- `select_servers`, with the time already read. -/
def selectServers {α : Type*} (servers : List α) (ipAddressStrategyValue timeInSeconds : ℕ) :
    Py (List α) :=
  if servers.length < 1 then .ok []
  else
    let timeStrategyValue := timeInSeconds / timeGranularity
    let buckets := partition servers (calculateBucketCount servers.length)
    match buckets[ipAddressStrategyValue % buckets.length]? with
    | none => .error .zeroDivisionError
    | some bucket =>
      match bucket[timeStrategyValue % bucket.length]? with
      | none => .error .zeroDivisionError
      | some server => .ok [server]

theorem calculateBucketCount_pos {length : ℕ} (h : 0 < length) :
    0 < calculateBucketCount length := by
  unfold calculateBucketCount
  split
  · exact Nat.sqrt_pos.mpr h
  · exact Nat.succ_pos _

theorem calculateBucketCount_le {length : ℕ} : calculateBucketCount length ≤ length := by
  unfold calculateBucketCount
  split
  · exact Nat.sqrt_le_self length
  · next hne =>
    -- 0 and 1 are squares, and from 2 on the root is smaller than the number
    match length with
    | 0 => simp at hne
    | 1 => simp at hne
    | length + 2 => exact Nat.sqrt_lt_self (by omega)

/-! ### Where the list is cut -/

section Division

variable {length n : ℕ}

theorem one_le_division (hn : 0 < n) (hle : n ≤ length) (hlt : length < maxListLength) :
    1 ≤ toDouble (length / n) := by
  have hn' : (0 : ℚ) < n := Nat.cast_pos.mpr hn
  have hone : (1 : ℚ) ≤ length / n := (one_le_div hn').mpr (Nat.cast_le.mpr hle)
  have hb : (length / n : ℚ) < 2 ^ (53 - 2) := by
    calc (length / n : ℚ) ≤ length := div_le_self (Nat.cast_nonneg _) (Nat.one_le_cast.mpr hn)
      _ < (maxListLength : ℕ) := Nat.cast_lt.mpr hlt
      _ ≤ 2 ^ (53 - 2) := by norm_num [maxListLength]
  have h := intCast_le_nearest (m := 1) (by norm_num) hb (by rwa [Int.cast_one])
  rwa [Int.cast_one] at h

theorem abs_division_mul_sub_le (hn : 0 < n) (hle : n ≤ length) (hlt : length < maxListLength) :
    |toDouble (length / n) * n - length| ≤ 1 / 4 := by
  have hn' : (0 : ℚ) < n := Nat.cast_pos.mpr hn
  have hpos : (0 : ℚ) < length / n := div_pos (Nat.cast_pos.mpr (by omega)) hn'
  have hlen : (length : ℚ) ≤ 2 ^ 50 := by exact_mod_cast hlt.le
  have herr : |toDouble (length / n) - length / n| ≤ length / n * 2 ^ (1 - 53 : ℤ) / 2 :=
    calc |toDouble (length / n) - length / n| ≤ ulp 53 (length / n : ℚ) / 2 :=
          abs_nearest_sub_le
      _ ≤ length / n * 2 ^ (1 - 53 : ℤ) / 2 := by
          have h := ulp_le (p := 53) hpos
          exact div_le_div_of_nonneg_right h two_pos.le
  calc |toDouble (length / n) * n - length| = |toDouble (length / n) - length / n| * n := by
        rw [← abs_of_pos hn',← abs_mul,abs_of_pos hn',sub_mul,div_mul_cancel₀ _ hn'.ne']
    _ ≤ length / n * 2 ^ (1 - 53 : ℤ) / 2 * n := mul_le_mul_of_nonneg_right herr hn'.le
    _ = length * 2 ^ (1 - 53 : ℤ) / 2 := by field_simp
    _ ≤ 2 ^ 50 * 2 ^ (1 - 53 : ℤ) / 2 := by gcongr
    _ ≤ 1 / 4 := by norm_num

theorem division_mul_lt (hn : 0 < n) (hle : n ≤ length) (hlt : length < maxListLength) {i : ℕ}
    (hi : i ≤ n) : toDouble (length / n) * i < 2 ^ (53 - 2) := by
  have hone := one_le_division hn hle hlt
  have herr := (abs_le.mp (abs_division_mul_sub_le hn hle hlt)).2
  have hlen : (length : ℚ) ≤ 2 ^ 50 := by exact_mod_cast hlt.le
  calc toDouble (length / n) * i ≤ toDouble (length / n) * n := by gcongr
    _ ≤ length + 1 / 4 := by linarith
    _ < 2 ^ (53 - 2) := by linarith

theorem cut_self (hn : 0 < n) (hle : n ≤ length) : cut length n n = length := by
  unfold cut
  split
  · next hlt =>
    have herr := abs_division_mul_sub_le hn hle hlt
    have hr : round (toDouble (toDouble (length / n) * n)) = (length : ℤ) :=
      round_nearest_eq (by norm_num) (division_mul_lt hn hle hlt le_rfl) (by rwa [Int.cast_natCast])
    simp only [hr,Int.toNat_natCast]
  · have h : 2 * (length * n) + n = n + length * (2 * n) := by ring
    rw [h,Nat.add_mul_div_right _ _ (by omega),Nat.div_eq_of_lt (by omega),Nat.zero_add]

/-- With at most as many buckets as servers no bucket is empty. -/
theorem cut_lt_cut_succ (hn : 0 < n) (hle : n ≤ length) {i : ℕ} (hi : i < n) :
    cut length n i < cut length n (i + 1) := by
  unfold cut
  split
  · next hlt =>
    -- the product grows by at least one, so the rounded product grows
    have hone := one_le_division hn hle hlt
    have hno : 0 ≤ toDouble (length / n) * i := mul_nonneg (by linarith) (Nat.cast_nonneg i)
    have hs : toDouble (length / n) * i + 1 ≤ toDouble (length / n) * (i + 1 : ℕ) := by
      rw [Nat.cast_succ,mul_add,mul_one]
      linarith
    have hr : round (toDouble (toDouble (length / n) * i)) <
        round (toDouble (toDouble (length / n) * (i + 1 : ℕ))) :=
      round_nearest_lt (by norm_num) hno hs (division_mul_lt hn hle hlt hi)
    have hz : 0 ≤ round (toDouble (toDouble (length / n) * i)) :=
      round_nearest_nonneg (by norm_num) hno (division_mul_lt hn hle hlt hi.le)
    exact (Int.toNat_lt_toNat (hz.trans_lt hr)).mpr hr
  · have h : 2 * (length * i) + n + 2 * n ≤ 2 * (length * (i + 1)) + n := by
      rw [Nat.mul_succ]
      omega
    calc (2 * (length * i) + n) / (2 * n) < (2 * (length * i) + n) / (2 * n) + 1 :=
          Nat.lt_succ_self _
      _ = (2 * (length * i) + n + 2 * n) / (2 * n) := (Nat.add_div_right _ (by omega)).symm
      _ ≤ (2 * (length * (i + 1)) + n) / (2 * n) := Nat.div_le_div_right h

-- the exact fraction is 252.5, which the double just misses
example : cut 303 18 15 = 252 := by decide +kernel

theorem cut_le_cut (hn : 0 < n) (hle : n ≤ length) {i j : ℕ} (hij : i ≤ j) (hj : j ≤ n) :
    cut length n i ≤ cut length n j := by
  induction j, hij using Nat.le_induction with
  | base => exact le_rfl
  | succ j hij ih =>
    calc cut length n i ≤ cut length n j := ih (by omega)
      _ ≤ cut length n (j + 1) := (cut_lt_cut_succ hn hle hj).le

theorem cut_succ_le (hle : n ≤ length) {i : ℕ} (hi : i < n) : cut length n (i + 1) ≤ length := by
  have hn : 0 < n := by omega
  calc cut length n (i + 1) ≤ cut length n n := cut_le_cut hn hle hi le_rfl
    _ = length := cut_self hn hle

end Division

/-! ### The buckets -/

theorem length_partition {α : Type*} (lst : List α) (n : ℕ) : (partition lst n).length = n := by
  simp [partition]

theorem getElem?_partition {α : Type*} (lst : List α) {n i : ℕ} (hi : i < n) :
    (partition lst n)[i]? =
      some ((lst.take (cut lst.length n (i + 1))).drop (cut lst.length n i)) := by
  simp [partition,hi]

theorem getElem?_bucket {α : Type*} (lst : List α) {a b j : ℕ} (hj : j < b - a) :
    ((lst.take b).drop a)[j]? = lst[a + j]? := by
  rw [List.getElem?_drop,List.getElem?_take_of_lt (by omega)]

/-! ### The selected server -/

def selectedIndex (length ipAddressStrategyValue timeInSeconds : ℕ) : ℕ :=
  let n := calculateBucketCount length
  let bucket := ipAddressStrategyValue % n
  cut length n bucket +
    timeInSeconds / timeGranularity % (cut length n (bucket + 1) - cut length n bucket)

theorem selectedIndex_lt {length : ℕ} (h : 0 < length) (v t : ℕ) :
    selectedIndex length v t < length := by
  have hn := calculateBucketCount_pos h
  have hb := Nat.mod_lt v hn
  have hlt := cut_lt_cut_succ hn calculateBucketCount_le hb
  have hmod := Nat.mod_lt (t / timeGranularity) (Nat.sub_pos_of_lt hlt)
  have hle := cut_succ_le calculateBucketCount_le hb
  simp only [selectedIndex]
  omega

/-- From a nonempty list the server at the selected place is returned, and no division by
zero can happen on the way. -/
theorem selectServers_eq {α : Type*} {servers : List α} (h : servers ≠ []) (v t : ℕ) :
    ∃ s, servers[selectedIndex servers.length v t]? = some s ∧
      selectServers servers v t = .ok [s] := by
  have hpos := List.length_pos_iff.mpr h
  have hn := calculateBucketCount_pos hpos
  have hb := Nat.mod_lt v hn
  have hlt := cut_lt_cut_succ hn calculateBucketCount_le hb
  have hle := cut_succ_le calculateBucketCount_le hb
  have hidx := List.getElem?_eq_getElem (selectedIndex_lt hpos v t)
  refine ⟨_,hidx,?_⟩
  have hmod := Nat.mod_lt (t / timeGranularity) (Nat.sub_pos_of_lt hlt)
  simp only [selectServers,if_neg (show ¬ servers.length < 1 by omega),length_partition,
    getElem?_partition servers hb,List.length_drop,List.length_take,
    Nat.min_eq_left hle,getElem?_bucket servers hmod]
  rw [show cut servers.length _ _ + _ = selectedIndex servers.length v t from rfl,hidx]

end Psiphon.Discovery
