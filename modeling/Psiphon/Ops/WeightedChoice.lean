import Mathlib.Algebra.Ring.Nat
import Mathlib.Data.List.FinRange
import Psiphon.Python

/-!
# The weighted choice of a provider

`_weighted_random_choice` of `psi_ops.py`.
-/

namespace Psiphon.Ops

open List

variable {α : Type} (rank : α → ℕ)

/-- The loop; `choice` is the value of its variable, which stays that of the last choice when
nothing breaks it. -/
def accumulate (rand : ℕ) : ℕ → α → List α → α
  | _, choice, [] => choice
  | rankAccum, _, choice :: choices =>
    if rankAccum + rank choice > rand then choice
    else accumulate rand (rankAccum + rank choice) choice choices

/-- The choice when `random.randrange` draws `rand`; it raises when the ranks are all zero. -/
def weightedRandomChoice (choices : List α) (rand : ℕ) : Py α :=
  match choices with
  | [] => .error .valueError
  | first :: rest =>
    if ((first :: rest).map rank).sum = 0 then .error .valueError
    else .ok (accumulate rank rand 0 first (first :: rest))

variable {rank} {rand n : ℕ} {choice c : α} {choices : List α}

theorem accumulate_of_lt (h : rand < n + rank c) :
    accumulate rank rand n choice (c :: choices) = c :=
  if_pos h

theorem accumulate_of_le (h : n + rank c ≤ rand) :
    accumulate rank rand n choice (c :: choices) = accumulate rank rand (n + rank c) c choices :=
  if_neg (Nat.not_lt.mpr h)

/-- A draw below the sum of the ranks breaks the loop at a choice with a rank. -/
theorem accumulate_mem (hn : n ≤ rand) (hr : rand < n + (choices.map rank).sum) :
    accumulate rank rand n choice choices ∈ choices ∧
      0 < rank (accumulate rank rand n choice choices) := by
  induction choices generalizing n choice with
  | nil => exact absurd hn (Nat.not_le.mpr hr)
  | cons c choices ih =>
    rcases Nat.lt_or_ge rand (n + rank c) with hlt | hge
    · rw [accumulate_of_lt hlt]
      exact ⟨.head _,by omega⟩
    · rw [map_cons,sum_cons,← Nat.add_assoc] at hr
      rw [accumulate_of_le hge]
      exact ⟨.tail _ (ih hge hr).1,(ih hge hr).2⟩

section

variable [DecidableEq α]

/-- The draws from `n` on are split among the choices, each with as many as its rank. -/
theorem countP_accumulate (hd : choices.Nodup) (hc : c ∈ choices) :
    (range' n (choices.map rank).sum).countP (accumulate rank · n choice choices = c) = rank c := by
  induction choices generalizing n choice with
  | nil => cases hc
  | cons first choices ih =>
    obtain ⟨hnew,hd⟩ := nodup_cons.mp hd
    have hfirst : ∀ rand ∈ range' n (rank first),
        accumulate rank rand n choice (first :: choices) = first :=
      fun rand hr => accumulate_of_lt (mem_range'_1.mp hr).2
    have hrest : ∀ rand ∈ range' (n + rank first) (choices.map rank).sum,
        accumulate rank rand n choice (first :: choices) =
          accumulate rank rand (n + rank first) first choices :=
      fun rand hr => accumulate_of_le (mem_range'_1.mp hr).1
    rw [map_cons,sum_cons,← range'_append_1,countP_append]
    rcases mem_cons.mp hc with rfl | hc
    · -- a later draw gives a later choice
      rw [countP_eq_length.mpr fun rand hr => decide_eq_true (hfirst rand hr),length_range',
        countP_eq_zero.mpr fun rand hr => ?_,Nat.add_zero]
      rw [hrest rand hr,decide_eq_true_eq]
      exact fun heq => hnew (heq ▸ (accumulate_mem (mem_range'_1.mp hr).1 (mem_range'_1.mp hr).2).1)
    · rw [countP_eq_zero.mpr fun rand hr => ?_,countP_congr fun rand hr => by rw [hrest rand hr],
        ih hd hc,Nat.zero_add]
      rw [hfirst rand hr,decide_eq_true_eq]
      exact fun heq => hnew (heq ▸ hc)

end

/-- The loop looks at the ranks only. -/
theorem accumulate_map {β : Type} (f : β → α) (n : ℕ) (b : β) (l : List β) :
    accumulate rank rand n (f b) (l.map f) = f (accumulate (rank ∘ f) rand n b l) := by
  induction l generalizing n b with
  | nil => rfl
  | cons first l ih =>
    rw [map_cons,accumulate,accumulate,ih,apply_ite f]
    rfl

theorem weightedRandomChoice_map {β : Type} (rank : α → ℕ) (f : β → α) (l : List β) (rand : ℕ) :
    weightedRandomChoice rank (l.map f) rand = (weightedRandomChoice (rank ∘ f) l rand).map f := by
  cases l with
  | nil => rfl
  | cons b l =>
    rw [map_cons,weightedRandomChoice,weightedRandomChoice,← map_cons,map_map,accumulate_map]
    split <;> rfl

theorem weightedRandomChoice_eq_ok (h : 0 < (choices.map rank).sum) : ∃ first, ∀ rand,
    weightedRandomChoice rank choices rand = .ok (accumulate rank rand 0 first choices) := by
  cases choices with
  | nil => exact absurd h (Nat.lt_irrefl 0)
  | cons first rest => exact ⟨first,fun rand => if_neg (Nat.ne_of_gt h)⟩

/-- The position of the choice. -/
def chosenPosition (rank : α → ℕ) (choices : List α) (rand : ℕ) : Py (Fin choices.length) :=
  weightedRandomChoice (rank ∘ choices.get) (finRange choices.length) rand

/-- Over all draws each position is chosen as often as its rank says, and a choice of rank zero is
never returned. -/
theorem weighted_choice_exact (rank : α → ℕ) {choices : List α} (h : 0 < (choices.map rank).sum) :
    (∀ rand, weightedRandomChoice rank choices rand =
      (chosenPosition rank choices rand).map choices.get) ∧
    (∀ i, (range (choices.map rank).sum).countP (chosenPosition rank choices · = .ok i) =
      rank (choices.get i)) ∧
    ∀ rand < (choices.map rank).sum, ∃ choice ∈ choices,
      weightedRandomChoice rank choices rand = .ok choice ∧ 0 < rank choice := by
  have hget : (finRange choices.length).map choices.get = choices := map_get_finRange choices
  have hsum : ((finRange choices.length).map (rank ∘ choices.get)).sum =
      (choices.map rank).sum := by
    rw [← map_map,hget]
  refine ⟨fun rand => ?_,fun i => ?_,fun rand hr => ?_⟩
  · have hm := weightedRandomChoice_map rank choices.get (finRange choices.length) rand
    rwa [hget] at hm
  · obtain ⟨first,hf⟩ := weightedRandomChoice_eq_ok (hsum ▸ h)
    simp only [chosenPosition,hf,Except.ok.injEq]
    rw [← hsum,range_eq_range']
    exact countP_accumulate (nodup_finRange _) (mem_finRange i)
  · obtain ⟨first,hf⟩ := weightedRandomChoice_eq_ok h
    obtain ⟨hm,hp⟩ := accumulate_mem rand.zero_le (by rwa [Nat.zero_add])
    exact ⟨_,hm,hf rand,hp⟩

theorem weighted_choice_exact_pair : (range 3).countP (chosenPosition id [1, 2] · = .ok 1) = 2 := by
  have hs : 0 < ([1,2].map id).sum := by decide
  exact (weighted_choice_exact id hs).2.1 ⟨1,by decide⟩

end Psiphon.Ops
