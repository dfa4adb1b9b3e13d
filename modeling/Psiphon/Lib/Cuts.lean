import Mathlib.Algebra.Order.Group.Nat
import Mathlib.Data.List.Basic

/-!
# Cutting a list into slices

A list is cut at increasing places, from its start to its end.
-/

namespace Cuts

open List

variable {α : Type*}

def slices (c : ℕ → ℕ) (n : ℕ) (lst : List α) : List (List α) :=
  (List.range n).map fun i => (lst.take (c (i + 1))).drop (c i)

/-- The places increase from the start of a list to its end. -/
structure IsCut (c : ℕ → ℕ) (n length : ℕ) : Prop where
  start : c 0 = 0
  step : ∀ i < n, c i < c (i + 1)
  stop : c n = length

@[simp] theorem length_slices (c : ℕ → ℕ) (n : ℕ) (lst : List α) : (slices c n lst).length = n := by
  simp [slices]

theorem getElem?_slices {c : ℕ → ℕ} {n i : ℕ} (hi : i < n) (lst : List α) :
    (slices c n lst)[i]? = some ((lst.take (c (i + 1))).drop (c i)) := by
  simp [slices,hi]

theorem mem_slices {c : ℕ → ℕ} {n : ℕ} {lst s : List α} :
    s ∈ slices c n lst ↔ ∃ i < n, (lst.take (c (i + 1))).drop (c i) = s := by
  simp [slices]

namespace IsCut

variable {c : ℕ → ℕ} {n : ℕ} {lst : List α}

theorem le_of_le {length i j : ℕ} (h : IsCut c n length) (hij : i ≤ j) (hj : j ≤ n) :
    c i ≤ c j := by
  induction j, hij using Nat.le_induction with
  | base => exact le_rfl
  | succ j hij ih => exact (ih (Nat.le_of_succ_le hj)).trans (h.step j hj).le

theorem le_length {length i : ℕ} (h : IsCut c n length) (hi : i ≤ n) : c i ≤ length :=
  (h.le_of_le hi le_rfl).trans h.stop.le

theorem length_slice (h : IsCut c n lst.length) {i : ℕ} (hi : i < n) :
    ((lst.take (c (i + 1))).drop (c i)).length = c (i + 1) - c i := by
  rw [length_drop,length_take,Nat.min_eq_left (h.le_length hi)]

theorem ne_nil (h : IsCut c n lst.length) {s : List α} (hs : s ∈ slices c n lst) : s ≠ [] := by
  obtain ⟨i,hi,rfl⟩ := mem_slices.mp hs
  rw [← length_pos_iff,h.length_slice hi]
  exact Nat.sub_pos_of_lt (h.step i hi)

theorem flatten_slices_of_le (h : IsCut c n lst.length) {m : ℕ} (hm : m ≤ n) :
    (slices c m lst).flatten = lst.take (c m) := by
  induction m with
  | zero => simp [slices,h.start]
  | succ m ih =>
    have hle : c m ≤ c (m + 1) := (h.step m hm).le
    have hs : slices c (m + 1) lst = slices c m lst ++ [(lst.take (c (m + 1))).drop (c m)] := by
      simp [slices,range_succ]
    have ht : (lst.take (c (m + 1))).take (c m) = lst.take (c m) := by
      rw [take_take,Nat.min_eq_left hle]
    rw [hs,flatten_append,flatten_singleton,ih (Nat.le_of_succ_le hm),← ht,take_append_drop]

theorem flatten_slices (h : IsCut c n lst.length) : (slices c n lst).flatten = lst := by
  rw [h.flatten_slices_of_le le_rfl,h.stop,take_length]

theorem exists_slice (h : IsCut c n lst.length) {a : α} (ha : a ∈ lst) :
    ∃ i < n, ∃ s, (slices c n lst)[i]? = some s ∧ a ∈ s := by
  rw [← h.flatten_slices] at ha
  obtain ⟨s,hs,ha⟩ := mem_flatten.mp ha
  obtain ⟨i,hi,rfl⟩ := mem_slices.mp hs
  exact ⟨i,hi,_,getElem?_slices hi lst,ha⟩

end IsCut

/-- A counter comes past every place of a list while it grows by the length of the list. -/
theorem exists_mod_eq {length i : ℕ} (hi : i < length) (start : ℕ) :
    ∃ k < length, (start + k) % length = i := by
  refine ⟨(i + (length - start % length)) % length,Nat.mod_lt _ (by omega),?_⟩
  have hstart : start % length < length := Nat.mod_lt _ (by omega)
  have hsum : start % length + (i + (length - start % length)) = i + length := by omega
  rw [Nat.add_mod_mod,← Nat.mod_add_mod,hsum,Nat.add_mod_right,Nat.mod_eq_of_lt hi]

end Cuts
