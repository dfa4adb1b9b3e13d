import Mathlib.Data.List.Forall2

/-!
# Computations that can fail

When a sequence of computations, or a loop over a list, succeeds, and what it then returns.
-/

namespace Fallible

universe u v

open List

variable {ε : Type u} {α β : Type v}

@[simp] theorem ok_bind (a : α) (f : α → Except ε β) : (.ok a : Except ε α) >>= f = f a :=
  rfl

theorem pure_eq_ok (a : α) : (pure a : Except ε α) = .ok a := rfl

variable {f : α → Except ε β}

theorem bind_eq_ok_iff {x : Except ε α} {b : β} :
    x >>= f = .ok b ↔ ∃ a, x = .ok a ∧ f a = .ok b := by
  cases x with
  | error e => simp [bind,Except.bind]
  | ok a => simp [bind,Except.bind]

/-- A sequence of computations that all succeed succeeds. -/
theorem exists_bind_ok {x : Except ε α} (hx : ∃ a, x = .ok a) (hf : ∀ a, ∃ b, f a = .ok b) :
    ∃ b, x >>= f = .ok b := by
  obtain ⟨a,ha⟩ := hx
  obtain ⟨b,hb⟩ := hf a
  exact ⟨b,by rw [ha,ok_bind,hb]⟩

variable {l' : List β}

/-- A loop that ran to its end ran through on every element. -/
theorem forall₂_of_mapM_eq_ok {l : List α} (h : l.mapM f = .ok l') :
    List.Forall₂ (fun a b => f a = .ok b) l l' := by
  induction l generalizing l' with
  | nil => cases h; exact .nil
  | cons a l ih =>
    rw [mapM_cons] at h
    cases ha : f a with
    | error e => rw [ha] at h; cases h
    | ok b =>
      cases hl : l.mapM f with
      | error e => rw [ha,hl] at h; cases h
      | ok rest =>
        rw [ha,hl] at h
        cases h
        exact .cons ha (ih hl)

theorem mapM_eq_ok_of_forall₂ {l : List α} (h : List.Forall₂ (fun a b => f a = .ok b) l l') :
    l.mapM f = .ok l' := by
  induction h with
  | nil => rfl
  | cons ha hl ih =>
    rw [mapM_cons,ha,ih]
    rfl

/-- A loop runs to its end when it runs through on every element. -/
theorem mapM_ok {l : List α} (h : ∀ a ∈ l, ∃ b, f a = .ok b) : ∃ l', l.mapM f = .ok l' := by
  induction l with
  | nil => exact ⟨[],rfl⟩
  | cons a l ih =>
    obtain ⟨b,hb⟩ := h a (.head _)
    obtain ⟨l',hl'⟩ := ih fun a' ha' => h a' (mem_cons_of_mem a ha')
    exact ⟨b :: l',by rw [mapM_cons,hb,hl']; rfl⟩

theorem exists_of_forall₂_mem {R : α → β → Prop} {l : List α} (h : List.Forall₂ R l l') {b : β}
    (hb : b ∈ l') : ∃ a ∈ l, R a b := by
  induction h with
  | nil => cases hb
  | @cons a b' l l' hab _ ih =>
    rcases mem_cons.mp hb with rfl | hb
    · exact ⟨a,(.head _),hab⟩
    · obtain ⟨a',ha',h'⟩ := ih hb
      exact ⟨a',mem_cons_of_mem a ha',h'⟩

theorem exists_of_mem_forall₂ {R : α → β → Prop} {l : List α} (h : List.Forall₂ R l l') {a : α}
    (ha : a ∈ l) : ∃ b ∈ l', R a b :=
  exists_of_forall₂_mem h.flip ha

theorem exists_of_mem_mapM {l : List α} (h : l.mapM f = .ok l') {b : β} (hb : b ∈ l') :
    ∃ a ∈ l, f a = .ok b :=
  exists_of_forall₂_mem (forall₂_of_mapM_eq_ok h) hb

end Fallible
