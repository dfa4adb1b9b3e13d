import Psiphon.Client.StatusInterval

/-!
# Differences of tick counts

`GetTickCountDiff` of `utilities.cpp`, and the response time of `CheckServerReachabilityThread` of
`server_list_reordering.cpp`. For a count that has wrapped, both are one too small.
-/

namespace Psiphon.Client

open LocalProxy (getTickCount)

def maxDword : UInt32 := 0xFFFFFFFF

def getTickCountDiff (start stop : UInt32) : UInt32 :=
  if start = 0 then 0
  else if stop < start then (maxDword - start) + stop
  else stop - start

def responseTime (startTime endTime : UInt32) : UInt32 :=
  if endTime ≥ startTime then endTime - startTime else 0xFFFFFFFF - startTime + endTime

theorem wrapped_ne (start stop : UInt32) : (0xFFFFFFFF : UInt32) - start + stop ≠ stop - start := by
  intro h
  have hn := congrArg UInt32.toNat h
  simp only [UInt32.toNat_add,UInt32.toNat_sub,UInt32.reduceToNat] at hn
  omega

theorem responseTime_eq_iff {start stop : UInt32} :
    responseTime start stop = stop - start ↔ start ≤ stop := by
  rw [responseTime]
  split
  · exact iff_of_true rfl ‹_›
  · exact iff_of_false (wrapped_ne start stop) ‹_›

theorem getTickCountDiff_eq_iff {start stop : UInt32} (h : start ≠ 0) :
    getTickCountDiff start stop = stop - start ↔ start ≤ stop := by
  rw [getTickCountDiff,if_neg h,maxDword]
  split
  · exact iff_of_false (wrapped_ne start stop) (UInt32.not_le.mpr ‹_›)
  · exact iff_of_true rfl (UInt32.not_lt.mp ‹_›)

theorem toNat_getTickCount_sub {time duration : ℕ} (h : duration < 2 ^ 32) :
    (getTickCount (time + duration) - getTickCount time).toNat = duration := by
  simp only [getTickCount,UInt32.toNat_sub,UInt32.toNat_ofNat']
  omega

theorem differences_eq_iff {start stop : UInt32} :
    (start ≠ 0 → getTickCountDiff start stop = stop - start) ∧
      responseTime start stop = stop - start ↔ start ≤ stop := by
  rw [responseTime_eq_iff]
  exact ⟨And.right,fun h => ⟨fun hs => (getTickCountDiff_eq_iff hs).mpr h,h⟩⟩

/-- Both differences are right exactly when the count has not wrapped. -/
theorem tick_differences_exact_iff (start stop : UInt32) :
    ((start ≠ 0 → getTickCountDiff start stop = stop - start) ∧
      responseTime start stop = stop - start ↔ start ≤ stop) ∧
    ∀ time duration, getTickCount time = start → getTickCount (time + duration) = stop →
      duration < 2 ^ 32 → ((start ≠ 0 → (getTickCountDiff start stop).toNat = duration) ∧
        (responseTime start stop).toNat = duration ↔ start ≤ stop) := by
  refine ⟨differences_eq_iff,?_⟩
  rintro time duration rfl rfl hd
  rw [← differences_eq_iff,← UInt32.toNat_inj,← UInt32.toNat_inj,toNat_getTickCount_sub hd]

theorem tick_differences_exact_ten : getTickCountDiff 5 15 = 10 ∧ responseTime 5 15 = 10 := by
  obtain ⟨hd,hr⟩ := (tick_differences_exact_iff 5 15).1.mpr (by decide)
  exact ⟨hd (by decide),hr⟩

/-- The count is one later, and the difference none. -/
theorem wrapped_tick_lost : getTickCountDiff 0xFFFFFFFF 0 = 0 ∧ responseTime 0xFFFFFFFF 0 = 0 := by
  decide

end Psiphon.Client
