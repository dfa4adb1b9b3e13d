import Mathlib.Analysis.Real.Sqrt
import Psiphon.Discovery.SelectServers
import Psiphon.Lib.Cuts

/-!
# The buckets of the discovery servers

`select_servers` of `psi_ops_discovery.py` for any places to cut at, of which those in doubles are
one choice.
-/

namespace Psiphon.Discovery

open List
open Cuts (IsCut slices)

variable {α : Type*}

/-- The places where a list of some length is cut for a number of buckets. -/
abbrev CutAt := ℕ → ℕ → ℕ → ℕ

/-- `round` of Python: a half is rounded away from zero. -/
def pyRound (x : ℚ) : ℤ := if 0 ≤ x then ⌊x + 1 / 2⌋ else ⌈x - 1 / 2⌉

/-- `int(round(division * i))` where `division = len(lst) / float(n)`, in exact fractions. -/
def exactCut (length n i : ℕ) : ℕ := (pyRound ((length : ℚ) / n * i)).toNat

/-- `_partition` -/
def partitionWith (cutAt : CutAt) (lst : List α) (n : ℕ) : List (List α) :=
  slices (cutAt lst.length n) n lst

/-- `select_servers`; the time of the clock is taken when no time is given. -/
def selectServersWith (cutAt : CutAt) (clock : ℕ) (servers : List α) (ipAddressStrategyValue : ℤ)
    (timeInSeconds : ℕ) : Py (List α) :=
  if servers.length < 1 then .ok []
  else
    let timeInSeconds := if timeInSeconds = 0 then clock else timeInSeconds
    let timeStrategyValue := timeInSeconds / timeGranularity
    let bucketCount := calculateBucketCount servers.length
    let buckets := partitionWith cutAt servers bucketCount
    match buckets[(ipAddressStrategyValue % buckets.length).toNat]? with
    | none => .error .zeroDivisionError
    | some bucket =>
      match bucket[timeStrategyValue % bucket.length]? with
      | none => .error .zeroDivisionError
      | some server => .ok [server]

/-- The selection in doubles is the one at its own places. -/
theorem selectServersWith_cut (servers : List α) (v t : ℕ) :
    selectServersWith cut t servers v t = selectServers servers v t := by
  have hm (n : ℕ) : ((v : ℤ) % n).toNat = v % n := by
    rw [← Int.natCast_mod,Int.toNat_natCast]
  simp only [selectServersWith,selectServers,hm,ite_self]
  rfl

/-! ### The number of buckets -/

theorem calculateBucketCount_le_iff {length m : ℕ} :
    calculateBucketCount length ≤ m ↔ length ≤ m * m := by
  unfold calculateBucketCount
  split
  · next h => rw [← Nat.mul_self_le_mul_self_iff,h]
  · next h =>
    have hne : length ≠ m * m := by
      rintro rfl
      rw [Nat.sqrt_eq] at h
      exact h rfl
    rw [Nat.succ_le_iff,Nat.sqrt_lt]
    omega

theorem calculateBucketCount_eq_ceil_sqrt (length : ℕ) :
    calculateBucketCount length = ⌈√(length : ℝ)⌉₊ := by
  refine eq_of_forall_ge_iff fun m => ?_
  rw [calculateBucketCount_le_iff,Nat.ceil_le,Real.sqrt_le_left (Nat.cast_nonneg m),sq]
  exact_mod_cast Iff.rfl

/-! ### Exact places -/

section Exact

variable {length n : ℕ}

theorem exactCut_cast (length n i : ℕ) :
    (exactCut length n i : ℤ) = ⌊(length : ℚ) / n * i + 1 / 2⌋ := by
  have hn : (0 : ℚ) ≤ (length : ℚ) / n * i := by positivity
  rw [exactCut,pyRound,if_pos hn,Int.toNat_of_nonneg]
  exact Int.floor_nonneg.mpr (by positivity)

/-- A bucket has the length that the buckets would have if they were all the same, rounded down or
one more. -/
theorem exactCut_succ (length n i : ℕ) :
    exactCut length n i + length / n ≤ exactCut length n (i + 1) ∧
      exactCut length n (i + 1) ≤ exactCut length n i + length / n + 1 := by
  have hdiv : ((length / n : ℕ) : ℤ) = ⌊(length : ℚ) / n⌋ := by
    rw [← Rat.natFloor_natCast_div_natCast]
    exact Int.natCast_floor_eq_floor (by positivity)
  have hs : (length : ℚ) / n * (i + 1 : ℕ) + 1 / 2 =
      (length : ℚ) / n * i + 1 / 2 + (length : ℚ) / n := by
    push_cast
    ring
  have hle := Int.le_floor_add ((length : ℚ) / n * i + 1 / 2) ((length : ℚ) / n)
  have hge := Int.le_floor_add_floor ((length : ℚ) / n * i + 1 / 2) ((length : ℚ) / n)
  rw [← hs,← exactCut_cast,← exactCut_cast,← hdiv] at hle hge
  omega

theorem isCut_exactCut (hn : 0 < n) (hle : n ≤ length) : IsCut (exactCut length n) n length where
  start := by
    have h := exactCut_cast length n 0
    norm_num at h
    exact h
  step i _ := by
    have hdiv : 0 < length / n := Nat.div_pos hle hn
    have h := (exactCut_succ length n i).1
    omega
  stop := by
    have hn' : (n : ℚ) ≠ 0 := Nat.cast_ne_zero.mpr hn.ne'
    have h := exactCut_cast length n n
    rw [div_mul_cancel₀ _ hn'] at h
    norm_num at h
    exact h

end Exact

/-! ### The buckets -/

structure Balanced (lst : List α) (buckets : List (List α)) : Prop where
  flatten_eq : buckets.flatten = lst
  ne_nil : ∀ bucket ∈ buckets, bucket ≠ []
  length_le : ∀ bucket ∈ buckets, ∀ other ∈ buckets, bucket.length ≤ other.length + 1

theorem balanced_partitionWith {lst : List α} {n : ℕ} (hn : 0 < n) (hle : n ≤ lst.length) :
    Balanced lst (partitionWith exactCut lst n) where
  flatten_eq := (isCut_exactCut hn hle).flatten_slices
  ne_nil _ hb := (isCut_exactCut hn hle).ne_nil hb
  length_le bucket hb other ho := by
    obtain ⟨i,hi,rfl⟩ := Cuts.mem_slices.mp hb
    obtain ⟨j,hj,rfl⟩ := Cuts.mem_slices.mp ho
    rw [(isCut_exactCut hn hle).length_slice hi,(isCut_exactCut hn hle).length_slice hj]
    have h := (exactCut_succ lst.length n i).2
    have h' := (exactCut_succ lst.length n j).1
    omega

/-! ### The selection -/

section Selection

variable {cutAt : CutAt} {servers bucket : List α} {server : α} {v : ℤ}

def pickedBucket (cutAt : CutAt) (servers : List α) (v : ℤ) : Option (List α) :=
  let n := calculateBucketCount servers.length
  (partitionWith cutAt servers n)[(v % n).toNat]?

theorem exists_pickedBucket (h : servers ≠ []) (cutAt : CutAt) (v : ℤ) :
    ∃ bucket ∈ partitionWith cutAt servers (calculateBucketCount servers.length),
      pickedBucket cutAt servers v = some bucket := by
  have hn := calculateBucketCount_pos (length_pos_iff.mpr h)
  have hlt : (v % calculateBucketCount servers.length).toNat <
      calculateBucketCount servers.length := by
    have hmod := Int.emod_lt_of_pos v (Int.natCast_pos.mpr hn)
    omega
  have hb := Cuts.getElem?_slices
    (c := cutAt servers.length (calculateBucketCount servers.length)) hlt servers
  exact ⟨_,mem_of_getElem? hb,hb⟩

theorem selectServersWith_of_pickedBucket (h : servers ≠ [])
    (hb : pickedBucket cutAt servers v = some bucket) {t : ℕ} (ht : 0 < t)
    (hs : bucket[t / timeGranularity % bucket.length]? = some server) (c : ℕ) :
    selectServersWith cutAt c servers v t = .ok [server] := by
  have hl : ¬servers.length < 1 := by
    rw [Nat.lt_one_iff,length_eq_zero_iff]
    exact h
  rw [pickedBucket] at hb
  simp only [selectServersWith,if_neg hl,if_neg ht.ne',partitionWith,Cuts.length_slices]
  simp only [partitionWith] at hb
  simp only [hb,hs]

theorem exists_hour_selecting (h : servers ≠ [])
    (hb : pickedBucket cutAt servers v = some bucket) (hs : server ∈ bucket)
    (c hour : ℕ) : ∃ k < bucket.length, ∀ t, 0 < t → t / timeGranularity = hour + k →
      selectServersWith cutAt c servers v t = .ok [server] := by
  obtain ⟨i,hi,hg⟩ := getElem_of_mem hs
  obtain ⟨k,hk,hm⟩ := Cuts.exists_mod_eq hi hour
  refine ⟨k,hk,fun t ht hh => selectServersWith_of_pickedBucket h hb ht ?_ c⟩
  rw [hh,hm,List.getElem?_eq_getElem hi,hg]

theorem exists_value_picking
    (hc : IsCut (cutAt servers.length (calculateBucketCount servers.length))
      (calculateBucketCount servers.length) servers.length)
    (hs : server ∈ servers) : ∃ v < calculateBucketCount servers.length, ∃ bucket,
      pickedBucket cutAt servers v = some bucket ∧ server ∈ bucket := by
  obtain ⟨v,hv,bucket,hb,hs⟩ := hc.exists_slice hs
  refine ⟨v,hv,bucket,?_,hs⟩
  rw [pickedBucket,Int.emod_eq_of_lt (Int.natCast_nonneg v) (Int.ofNat_lt.mpr hv),Int.toNat_natCast]
  exact hb

end Selection

/-- The buckets are a balanced partition, one server is selected at every time, and every server is
selected for every client of its bucket within as many hours as the bucket has servers. -/
theorem selectServers_reaches_all {servers : List α} (h : servers ≠ []) (clock : ℕ) :
    Balanced servers (partitionWith exactCut servers (calculateBucketCount servers.length)) ∧
    (∀ v t, 0 < t → ∃ server ∈ servers,
      selectServersWith exactCut clock servers v t = .ok [server]) ∧
    (servers.length ≤ 65536 → ∀ server ∈ servers, ∃ v : ℤ, 0 ≤ v ∧ v ≤ 255 ∧ ∃ t, 0 < t ∧
      selectServersWith exactCut clock servers v t = .ok [server]) ∧
    ∀ v, ∃ bucket, pickedBucket exactCut servers v = some bucket ∧
      ∀ hour, ∀ server ∈ bucket, ∃ k < bucket.length, ∀ t, 0 < t → t / timeGranularity = hour + k →
        selectServersWith exactCut clock servers v t = .ok [server] := by
  have hn := calculateBucketCount_pos (length_pos_iff.mpr h)
  have hba : Balanced servers (partitionWith exactCut servers _) :=
    balanced_partitionWith hn calculateBucketCount_le
  refine ⟨hba,fun v t ht => ?_,fun hlen server hs => ?_,fun v => ?_⟩
  · obtain ⟨bucket,hmem,hb⟩ := exists_pickedBucket h exactCut v
    have hpos := length_pos_iff.mpr (hba.ne_nil bucket hmem)
    have hget := List.getElem?_eq_getElem (Nat.mod_lt (t / timeGranularity) hpos)
    refine ⟨_,?_,selectServersWith_of_pickedBucket h hb ht hget clock⟩
    rw [← hba.flatten_eq]
    exact mem_flatten.mpr ⟨bucket,hmem,getElem_mem _⟩
  · have hcount : calculateBucketCount servers.length ≤ 256 :=
      calculateBucketCount_le_iff.mpr hlen
    obtain ⟨v,hv,bucket,hb,hs⟩ :=
      exists_value_picking (isCut_exactCut hn calculateBucketCount_le) hs
    obtain ⟨k,-,hse⟩ := exists_hour_selecting h hb hs clock 1
    have hti : (1 + k) * timeGranularity / timeGranularity = 1 + k :=
      Nat.mul_div_cancel _ (by decide)
    refine ⟨v,by omega,by omega,(1 + k) * timeGranularity,?_,hse _ ?_ hti⟩
    all_goals exact Nat.mul_pos (by omega) (by decide)
  · obtain ⟨bucket,-,hb⟩ := exists_pickedBucket h exactCut v
    exact ⟨bucket,hb,fun hour server hs => exists_hour_selecting h hb hs clock hour⟩

theorem selectServers_reaches_three :
    partitionWith exactCut [10, 20, 30] (calculateBucketCount 3) = [[10, 20], [30]] ∧
    Balanced [10, 20, 30] (partitionWith exactCut [10, 20, 30] (calculateBucketCount 3)) ∧
    ∃ v : ℤ, 0 ≤ v ∧ v ≤ 255 ∧ ∃ t, 0 < t ∧
      selectServersWith exactCut 0 [10, 20, 30] v t = .ok [30] := by
  have h := selectServers_reaches_all (cons_ne_nil 10 [20,30]) 0
  exact ⟨by decide +kernel,h.1,h.2.2.1 (by decide) 30 (by decide)⟩

end Psiphon.Discovery
