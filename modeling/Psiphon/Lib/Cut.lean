import Mathlib.Data.List.Basic

/-!
# The first occurrence of an element

`cut c text` divides a list at the first `c`.
-/

namespace Cut

open List Option

variable {α : Type*} [DecidableEq α] {c : α} {text a b : List α}

/-- What stands before and after the first `c`. -/
def cut (c : α) : List α → Option (List α × List α)
  | [] => none
  | d :: text =>
    if d = c then some ([], text) else (cut c text).map fun parts => (d :: parts.1, parts.2)

theorem cut_eq_some_iff : cut c text = some (a, b) ↔ c ∉ a ∧ text = a ++ c :: b := by
  induction text generalizing a with
  | nil => simp [cut]
  | cons d text ih =>
    rw [cut]
    split
    · rename_i hd
      subst hd
      cases a with
      | nil => simp
      | cons e a =>
        simp only [Option.some.injEq,Prod.mk.injEq,reduceCtorEq,false_and,cons_append,
          List.cons.injEq,false_iff,not_and]
        rintro hm rfl
        exact absurd (.head _) hm
    · rename_i hd
      cases a with
      | nil =>
        simp only [map_eq_some_iff,Prod.mk.injEq,reduceCtorEq,false_and,and_false,
          exists_false,nil_append,List.cons.injEq,false_iff,not_and]
        exact fun _ heq => absurd heq hd
      | cons e a =>
        have hmap : (cut c text).map (fun p => (d :: p.1, p.2)) = some (e :: a, b) ↔
            d = e ∧ cut c text = some (a, b) := by
          rw [map_eq_some_iff]
          constructor
          · rintro ⟨⟨a',b'⟩,hc,heq⟩
            cases heq
            exact ⟨rfl,hc⟩
          · rintro ⟨rfl,hc⟩
            exact ⟨(a, b),hc,rfl⟩
        rw [hmap,ih,cons_append,List.cons.injEq,mem_cons,not_or]
        constructor
        · rintro ⟨rfl,hm,rfl⟩
          exact ⟨⟨Ne.symm hd,hm⟩,rfl,rfl⟩
        · rintro ⟨⟨-,hm⟩,rfl,rfl⟩
          exact ⟨rfl,hm,rfl⟩

theorem cut_append (h : c ∉ a) (b : List α) : cut c (a ++ c :: b) = some (a, b) :=
  cut_eq_some_iff.mpr ⟨h,rfl⟩

theorem cut_eq_none_iff : cut c text = none ↔ c ∉ text := by
  induction text with
  | nil => simp [cut]
  | cons d text ih =>
    rw [cut,mem_cons,not_or]
    split
    · rename_i hd
      simp [hd]
    · rename_i hd
      rw [map_eq_none_iff,ih,and_iff_right (Ne.symm hd)]

/-- A list is divided where it was put together exactly if its first part has no `c`. -/
theorem exists_cut_append (c : α) (a b : List α) :
    ∃ before rest, cut c (a ++ c :: b) = some (before, rest) ∧ (rest = b ↔ c ∉ a) := by
  cases hc : cut c (a ++ c :: b) with
  | none => exact absurd (mem_append_right a (.head _)) (cut_eq_none_iff.mp hc)
  | some p =>
    obtain ⟨before,rest⟩ := p
    obtain ⟨hbefore,heq⟩ := cut_eq_some_iff.mp hc
    refine ⟨before,rest,rfl,?_,fun hm => ?_⟩
    · rintro rfl
      rwa [append_cancel_right heq]
    · rw [cut_append hm] at hc
      exact (Prod.mk.inj (Option.some.inj hc)).2.symm

/-- An element that does not occur in the first part is first found in the second. -/
theorem cut_append_of_notMem (h : c ∉ a) (b : List α) :
    cut c (a ++ b) = (cut c b).map fun p => (a ++ p.1, p.2) := by
  cases hc : cut c b with
  | none =>
    rw [map_none,cut_eq_none_iff,mem_append,not_or]
    exact ⟨h,cut_eq_none_iff.mp hc⟩
  | some p =>
    obtain ⟨hb,rfl⟩ := cut_eq_some_iff.mp hc
    refine cut_eq_some_iff.mpr ⟨?_,(append_assoc ..).symm⟩
    simp [h,hb]

end Cut
