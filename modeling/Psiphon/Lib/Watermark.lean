import Mathlib.Data.List.Basic
import Mathlib.Data.Set.Basic

/-!
# Passes over a growing log, with a watermark

A pass goes over the items of a log from the watermark on, stores the rows of those that it does not
skip, and moves the watermark to the key of one of them.
-/

namespace Watermark

open List

variable {ι ρ κ : Type*} [LinearOrder κ]

structure State (ρ κ : Type*) where
  rows : Set ρ
  last : Option κ

/-- The items that there are, and those that the pass does not skip. -/
structure Pass (ι : Type*) where
  items : Set ι
  kept : Set ι

def Before (last : Option κ) (k : κ) : Prop := ∃ l ∈ last, k < l

section Passes

variable (key : ι → κ) (row : ι → Option ρ)

def taken (s : State ρ κ) (pass : Pass ι) : Set ι :=
  {i | i ∈ pass.items ∧ i ∈ pass.kept ∧ ¬ Before s.last (key i)}

structure Step (s : State ρ κ) (pass : Pass ι) (s' : State ρ κ) : Prop where
  rows : ∀ r, r ∈ s'.rows ↔ r ∈ s.rows ∨ ∃ i ∈ taken key s pass, row i = some r
  last : s'.last = s.last ∨ ∃ i ∈ taken key s pass, s'.last = some (key i)

/-- Nothing that the pass skips is older than what it takes, unless its row is there already. -/
def Careful (s : State ρ κ) (pass : Pass ι) : Prop :=
  ∀ i ∈ pass.items, i ∉ pass.kept → ¬ Before s.last (key i) →
    (∃ j ∈ taken key s pass, key i < key j) → ∀ r, row i = some r → r ∈ s.rows

/-- Passes one after the other, all of them careful. -/
inductive Passes : State ρ κ → List (Pass ι) → State ρ κ → Prop where
  | nil (s : State ρ κ) : Passes s [] s
  | cons {s s' s'' : State ρ κ} {pass : Pass ι} {passes : List (Pass ι)}
      (hcareful : Careful key row s pass) (hstep : Step key row s pass s')
      (hpasses : Passes s' passes s'') : Passes s (pass :: passes) s''

/-- The rows of all items before the watermark are stored, and all rows are those of items. -/
structure Inv (all items : Set ι) (s : State ρ κ) : Prop where
  complete : ∀ i ∈ all, Before s.last (key i) → ∀ r, row i = some r → r ∈ s.rows
  origin : ∀ l ∈ s.last, ∃ i ∈ items, key i = l
  sound : ∀ r ∈ s.rows, ∃ i ∈ all, row i = some r

/-- The items are a part of the log up to some key. -/
structure Initial (all items : Set ι) : Prop where
  subset : items ⊆ all
  le : ∀ i ∈ items, ∀ j ∈ all, j ∉ items → key i ≤ key j

variable {key row} {all items : Set ι} {s s' : State ρ κ} {pass : Pass ι}

theorem inv_empty : Inv key row all items (⟨∅,none⟩ : State ρ κ) :=
  ⟨fun _ _ ⟨_,hl,_⟩ => absurd hl (by simp),by simp,by simp⟩

theorem Step.origin (hs : Step key row s pass s') (ho : ∀ l ∈ s.last, ∃ i ∈ items, key i = l)
    (hit : items ⊆ pass.items) : ∀ l ∈ s'.last, ∃ i ∈ pass.items, key i = l := by
  intro l hl
  rcases hs.last with hla | ⟨i,hi,hla⟩
  · obtain ⟨i,hi,hk⟩ := ho l (hla ▸ hl)
    exact ⟨i,hit hi,hk⟩
  · rw [hla] at hl
    exact ⟨i,hi.1,Option.some.inj hl⟩

theorem Inv.step (hinv : Inv key row all items s) (hit : items ⊆ pass.items)
    (hin : Initial key all pass.items) (hc : Careful key row s pass)
    (hs : Step key row s pass s') : Inv key row all pass.items s' := by
  have ho := hs.origin hinv.origin hit
  refine ⟨?_,ho,?_⟩
  · rintro i hi ⟨l,hl,hlt⟩ r hr
    rw [hs.rows]
    by_cases hm : i ∈ pass.items
    · by_cases hb : Before s.last (key i)
      · exact .inl (hinv.complete i hi hb r hr)
      · by_cases hk : i ∈ pass.kept
        · exact .inr ⟨i,⟨hm,hk,hb⟩,hr⟩
        · -- skipped, and now before the watermark: the pass must have taken something newer
          rcases hs.last with hla | ⟨j,hj,hla⟩
          · exact absurd ⟨l,hla ▸ hl,hlt⟩ hb
          · rw [hla] at hl
            cases hl
            exact .inl (hc i hm hk hb ⟨j,hj,hlt⟩ r hr)
    · -- what is not there yet is not before the watermark
      obtain ⟨j,hj,rfl⟩ := ho l hl
      exact absurd (hin.le j hj i hi hm) (not_le_of_gt hlt)
  · intro r hr
    rcases (hs.rows r).mp hr with hr | ⟨i,hi,hr⟩
    · exact hinv.sound r hr
    · exact ⟨i,hin.subset hi.1,hr⟩

/-- Careful passes over more and more of the log keep what is before the watermark complete. -/
theorem Passes.inv {passes : List (Pass ι)} (hpa : Passes key row s passes s')
    (hinv : Inv key row all items s) (hg : ∀ pass ∈ passes, items ⊆ pass.items)
    (hm : passes.Pairwise fun a b => a.items ⊆ b.items)
    (hi : ∀ pass ∈ passes, Initial key all pass.items) : ∃ items, Inv key row all items s' := by
  induction hpa generalizing items with
  | nil s => exact ⟨items,hinv⟩
  | @cons s s₁ s₂ pass passes hc hs _ ih =>
    obtain ⟨hl,hm⟩ := pairwise_cons.mp hm
    exact ih (hinv.step (hg pass (.head _)) (hi pass (.head _)) hc
      hs) hl hm fun p hp => hi p (.tail _ hp)

/-- A pass over the whole log that skips nothing leaves the rows of all items. -/
theorem Inv.mem_rows_iff (hinv : Inv key row all items s)
    (hs : Step key row s ⟨all,Set.univ⟩ s') (r : ρ) : r ∈ s'.rows ↔ ∃ i ∈ all, row i = some r := by
  rw [hs.rows]
  constructor
  · rintro (hr | ⟨i,hi,hr⟩)
    · exact hinv.sound r hr
    · exact ⟨i,hi.1,hr⟩
  · rintro ⟨i,hi,hr⟩
    by_cases hb : Before s.last (key i)
    · exact .inl (hinv.complete i hi hb r hr)
    · exact .inr ⟨i,⟨hi,trivial,hb⟩,hr⟩

end Passes

/-- A scan from the end that stops at the first item before the watermark misses none of the others,
if the items are in order. -/
theorem mem_takeWhile_reverse_iff {key : ι → κ} {before : κ → Bool}
    (hb : ∀ k l, k ≤ l → before l = true → before k = true) {items : List ι}
    (ho : items.Pairwise fun a b => key a ≤ key b) {i : ι} :
    i ∈ items.reverse.takeWhile (fun i => !before (key i)) ↔
      i ∈ items ∧ before (key i) = false := by
  have ha : ∀ l : List ι, l.Pairwise (fun a b => key b ≤ key a) →
      (i ∈ l.takeWhile (fun i => !before (key i)) ↔ i ∈ l ∧ before (key i) = false) := by
    intro l hl
    induction l with
    | nil => simp
    | cons j l ih =>
      obtain ⟨hj,hl⟩ := pairwise_cons.mp hl
      by_cases hs : before (key j) = true
      · rw [takeWhile_cons_of_neg (by simp [hs])]
        -- the scan stops here, and all that follows is before the watermark too
        constructor
        · intro hm
          cases hm
        · rintro ⟨hm,hn⟩
          rcases mem_cons.mp hm with rfl | hm
          · exact absurd (hs.symm.trans hn) (by decide)
          · exact absurd ((hb _ _ (hj i hm) hs).symm.trans hn) (by decide)
      · rw [takeWhile_cons_of_pos (by simp [hs]),mem_cons,mem_cons,ih hl]
        constructor
        · rintro (rfl | ⟨hm,hn⟩)
          · exact ⟨.inl rfl,eq_false_of_ne_true hs⟩
          · exact ⟨.inr hm,hn⟩
        · rintro ⟨rfl | hm,hn⟩
          · exact .inl rfl
          · exact .inr ⟨hm,hn⟩
  rw [ha _ (pairwise_reverse.mpr ho),mem_reverse]

end Watermark
