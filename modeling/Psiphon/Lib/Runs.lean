import Mathlib.Data.List.Basic

/-!
# Runs of a labelled step function

A system is a partial step function on its states, and a run is a list of actions. The rules lift a
property of one step to whole runs.
-/

namespace Runs

open Option

variable {σ α : Type*} {step : σ → α → Option σ}

def run (step : σ → α → Option σ) : σ → List α → Option σ
  | s, [] => some s
  | s, a :: as => (step s a).bind fun s' => run step s' as

/-- Every action taken in the run meets `P` in the state before it. -/
def Along (step : σ → α → Option σ) (P : σ → α → Prop) : σ → List α → Prop
  | _, [] => True
  | s, a :: as => P s a ∧ ∀ s' ∈ step s a, Along step P s' as

instance Along.decidable (P : σ → α → Prop) [∀ s a, Decidable (P s a)] :
    ∀ (s : σ) (as : List α), Decidable (Along step P s as)
  | _, [] => isTrue trivial
  | s, a :: as =>
    have : Decidable (∀ s' ∈ step s a, Along step P s' as) :=
      match h : step s a with
      | none => isTrue (by simp)
      | some s' =>
        have := Along.decidable P s' as
        decidable_of_iff (Along step P s' as) (by simp)
    inferInstanceAs (Decidable (_ ∧ _))

variable {P : σ → α → Prop} {as : List α}

theorem along_of_forall (h : ∀ a ∈ as, ∀ s, P s a) (s : σ) : Along step P s as := by
  induction as generalizing s with
  | nil => trivial
  | cons a as ih =>
    refine ⟨h a (.head _) s,fun s' _ => ?_⟩
    exact ih (fun b hb => h b (List.mem_cons_of_mem a hb)) s'

theorem along_append {s : σ} {as bs : List α} : Along step P s (as ++ bs) ↔
      Along step P s as ∧ ∀ t, run step s as = some t → Along step P t bs := by
  induction as generalizing s with
  | nil => simp [Along,run]
  | cons a as ih =>
    simp only [List.cons_append,Along,ih,run,bind_eq_some_iff,mem_def]
    constructor
    · rintro ⟨ha,hr⟩
      exact ⟨⟨ha,fun s' hs' => (hr s' hs').1⟩,fun t ⟨s',hs',ht⟩ => (hr s' hs').2 t ht⟩
    · rintro ⟨⟨ha,hr⟩,hl⟩
      exact ⟨ha,fun s' hs' => ⟨hr s' hs',fun t ht => hl t ⟨s',hs',ht⟩⟩⟩

variable {s t : σ}

theorem Along.of_append {as bs : List α} (h : Along step P s (as ++ bs))
    (hr : run step s as = some t) : Along step P t bs :=
  (along_append.mp h).2 t hr

theorem Along.left {s : σ} {as bs : List α} (h : Along step P s (as ++ bs)) : Along step P s as :=
  (along_append.mp h).1

@[simp] theorem run_nil (s : σ) : run step s [] = some s := rfl

theorem run_cons (s : σ) (a : α) (as : List α) :
    run step s (a :: as) = (step s a).bind fun s' => run step s' as := rfl

theorem run_cons_eq_some {a : α} :
    run step s (a :: as) = some t ↔ ∃ s', step s a = some s' ∧ run step s' as = some t := by
  rw [run_cons,bind_eq_some_iff]

theorem run_append (s : σ) (as bs : List α) :
    run step s (as ++ bs) = (run step s as).bind fun s' => run step s' bs := by
  induction as generalizing s with
  | nil => rfl
  | cons a as ih =>
    rw [List.cons_append,run_cons,run_cons,bind_assoc]
    exact congrArg _ (funext ih)

theorem run_isSome_iff :
    (run step s as).isSome ↔ Along step (fun s a => (step s a).isSome = true) s as := by
  induction as generalizing s with
  | nil => simp [Along]
  | cons a as ih =>
    rw [run_cons,Along]
    cases hstep : step s a <;> simp [ih]

/-- A property that every step preserves holds at the end of every run. -/
theorem run_invariant {I : σ → Prop} (hst : ∀ s a s', I s → step s a = some s' → I s') (hs : I s)
    (h : run step s as = some t) : I t := by
  induction as generalizing s with
  | nil => exact Option.some.inj h ▸ hs
  | cons a as ih =>
    obtain ⟨s',ha,hr⟩ := run_cons_eq_some.mp h
    exact ih (hst s a s' hs ha) hr

/-- A property that every step meeting `P` preserves holds at the end of every run
whose steps all meet `P`. -/
theorem run_invariant_along {I : σ → Prop}
    (hst : ∀ s a s', I s → P s a → step s a = some s' → I s') (hs : I s) (hp : Along step P s as)
    (h : run step s as = some t) : I t := by
  induction as generalizing s with
  | nil => exact Option.some.inj h ▸ hs
  | cons a as ih =>
    obtain ⟨s',ha,hr⟩ := run_cons_eq_some.mp h
    exact ih (hst s a s' hs hp.1 ha) (hp.2 s' ha) hr

/-- If a step leaves a property true exactly when it was true before and the step meets `P`, the
property holds after a run exactly when it held before and every step met `P`. -/
theorem run_iff_along {I Q : σ → Prop} (hI : ∀ s a s', I s → step s a = some s' → I s')
    (hQ : ∀ s a s', I s → step s a = some s' → (Q s' ↔ Q s ∧ P s a)) (hs : I s)
    (h : run step s as = some t) : Q t ↔ Q s ∧ Along step P s as := by
  induction as generalizing s with
  | nil => simp [← Option.some.inj h,Along]
  | cons a as ih =>
    obtain ⟨s',ha,hr⟩ := run_cons_eq_some.mp h
    have hall : (∀ s'' ∈ step s a, Along step P s'' as) ↔ Along step P s' as := by simp [ha]
    rw [ih (hI s a s' hs ha) hr,hQ s a s' hs ha,Along,hall,and_assoc]

theorem Along.of_invariant {I : σ → Prop} {Q : σ → α → Prop}
    (hI : ∀ s a s', I s → P s a → step s a = some s' → I s') (hQ : ∀ s a, I s → P s a → Q s a)
    (hs : I s) (h : Along step P s as) : Along step Q s as := by
  induction as generalizing s with
  | nil => trivial
  | cons a as ih =>
    exact ⟨hQ s a hs h.1,fun s' ha => ih (hI s a s' hs h.1 ha) (h.2 s' ha)⟩

/-- Every state that the run goes through meets `Q`. -/
def Through (step : σ → α → Option σ) (Q : σ → Prop) : σ → List α → Prop
  | s, [] => Q s
  | s, a :: as => Q s ∧ ∀ s' ∈ step s a, Through step Q s' as

theorem Through.head {Q : σ → Prop} (h : Through step Q s as) : Q s := by
  cases as with
  | nil => exact h
  | cons a as => exact h.1

/-- If steps from states with `Q` lead to states with `Q` exactly when they meet `P`, a run goes
through such states alone exactly when all its steps meet `P`. -/
theorem through_iff_along {I Q : σ → Prop} (hI : ∀ s a s', I s → step s a = some s' → I s')
    (hQ : ∀ s a s', I s → Q s → step s a = some s' → (Q s' ↔ P s a))
    (hP : ∀ s a, step s a = none → P s a) (hs : I s) (hq : Q s) :
    Through step Q s as ↔ Along step P s as := by
  induction as generalizing s with
  | nil => exact iff_of_true hq trivial
  | cons a as ih =>
    rw [Through,Along]
    cases ha : step s a with
    | none => simp [hq,hP s a ha]
    | some s' =>
      simp only [mem_some_iff,forall_eq',hq,true_and,← hQ s a s' hs hq ha]
      constructor
      · exact fun h => ⟨h.head,(ih (hI s a s' hs ha) h.head).mp h⟩
      · exact fun h => (ih (hI s a s' hs ha) h.1).mpr h.2

end Runs
