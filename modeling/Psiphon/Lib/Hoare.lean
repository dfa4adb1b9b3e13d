import Mathlib.Data.List.Basic

/-!
# Triples for programs that raise

A program of `EStateM ε σ` ends in a state, whether it returns or raises, and a triple has a
postcondition for each of the two ends.
-/

namespace Hoare

variable {ε σ α β ι : Type}

/-- From every state with `P`, the program returns with `Q` or raises with `E`. -/
def Triple (P : σ → Prop) (x : EStateM ε σ α) (Q : α → σ → Prop) (E : ε → σ → Prop) : Prop :=
  ∀ s, P s → match x s with
    | .ok a s' => Q a s'
    | .error e s' => E e s'

/-- The program keeps `I`, however it ends. -/
abbrev Keeps (I : σ → Prop) (x : EStateM ε σ α) : Prop :=
  Triple I x (fun _ => I) (fun _ => I)

variable {P P' : σ → Prop} {Q Q' : α → σ → Prop} {R : β → σ → Prop} {E E' : ε → σ → Prop}

variable {x : EStateM ε σ α} {s s' : σ} {a : α}

theorem Triple.of_ok (h : Triple P x Q E) (hs : P s) (hx : x s = .ok a s') : Q a s' := by
  have := h s hs
  rwa [hx] at this

theorem Triple.of_error (h : Triple P x Q E) {e : ε} (hs : P s) (hx : x s = .error e s') :
    E e s' := by
  have := h s hs
  rwa [hx] at this

/-! ### Single runs -/

variable {f : α → EStateM ε σ β}

theorem bind_of_ok (h : x s = .ok a s') : (x >>= f) s = f a s' := by
  show EStateM.bind x f s = f a s'
  rw [EStateM.bind,h]

theorem bind_of_error {e : ε} (h : x s = .error e s') : (x >>= f) s = .error e s' := by
  show EStateM.bind x f s = .error e s'
  rw [EStateM.bind,h]

theorem bind_eq_ok_iff {s s'' : σ} {b : β} :
    (x >>= f) s = .ok b s'' ↔ ∃ a s', x s = .ok a s' ∧ f a s' = .ok b s'' := by
  cases h : x s with
  | ok a s' =>
    rw [bind_of_ok h]
    constructor
    · exact fun hf => ⟨a,s',rfl,hf⟩
    · rintro ⟨_,_,heq,hf⟩
      cases heq
      exact hf
  | error e s' =>
    rw [bind_of_error h]
    constructor
    · rintro ⟨⟩
    · rintro ⟨_,_,⟨⟩,_⟩

theorem get_bind (f : σ → EStateM ε σ α) (s : σ) : (get >>= f) s = f s s := rfl

variable {handler : ε → EStateM ε σ α}

/-- The program returns from the state, and does not raise. -/
def Returns (x : EStateM ε σ α) (s : σ) : Prop := ∃ a s', x s = .ok a s'

theorem Triple.conseq (h : Triple P x Q E) (hP : ∀ s, P' s → P s) (hQ : ∀ a s, Q a s → Q' a s)
    (hE : ∀ e s, E e s → E' e s) : Triple P' x Q' E' := by
  intro s hs
  have := h s (hP s hs)
  cases hx : x s with
  | ok a s' => exact hQ a s' (by rwa [hx] at this)
  | error e s' => exact hE e s' (by rwa [hx] at this)

theorem Triple.weaken_pre (h : Triple P x Q E) (hP : ∀ s, P' s → P s) : Triple P' x Q E :=
  h.conseq hP (fun _ _ hs => hs) fun _ _ hs => hs

theorem Triple.weaken_post (h : Triple P x Q E) (hQ : ∀ a s, Q a s → Q' a s) : Triple P x Q' E :=
  h.conseq (fun _ hs => hs) hQ fun _ _ hs => hs

theorem Triple.weaken_error (h : Triple P x Q E) (hE : ∀ e s, E e s → E' e s) : Triple P x Q E' :=
  h.conseq (fun _ hs => hs) (fun _ _ hs => hs) hE

theorem Triple.pure (h : ∀ s, P s → Q a s) : Triple P (Pure.pure a : EStateM ε σ α) Q E := h

theorem Triple.skip : Triple P (Pure.pure a : EStateM ε σ α) (fun _ => P) E := fun _ h => h

theorem Triple.throw {e : ε} (h : ∀ s, P s → E e s) : Triple P (throw e : EStateM ε σ α) Q E := h

theorem Triple.modify {f : σ → σ} {Q : PUnit → σ → Prop} (h : ∀ s, P s → Q ⟨⟩ (f s)) :
    Triple P (modify f : EStateM ε σ PUnit) Q E := h

theorem Triple.set {t : σ} {Q : PUnit → σ → Prop} (h : ∀ s, P s → Q ⟨⟩ t) :
    Triple P (set t : EStateM ε σ PUnit) Q E := h

theorem Triple.bind (hx : Triple P x Q E) (hf : ∀ a, Triple (Q a) (f a) R E) :
    Triple P (x >>= f) R E := by
  intro s hs
  have h := hx s hs
  show match EStateM.bind x f s with
    | .ok b s' => R b s'
    | .error e s' => E e s'
  unfold EStateM.bind
  cases hr : x s with
  | ok a s' => exact hf a s' (by rwa [hr] at h)
  | error e s' => simpa [hr] using h

theorem Triple.seq {Q : σ → Prop} {y : EStateM ε σ β} (hx : Triple P x (fun _ => Q) E)
    (hy : Triple Q y R E) : Triple P (x >>= fun _ => y) R E :=
  hx.bind fun _ => hy

theorem Triple.get {f : σ → EStateM ε σ α} (h : ∀ s₀, P s₀ → Triple (· = s₀) (f s₀) Q E) :
    Triple P (get >>= f) Q E :=
  fun s hs => h s hs s rfl

theorem Triple.ite {c : Prop} [Decidable c] {x y : EStateM ε σ α} (hx : c → Triple P x Q E)
    (hy : ¬ c → Triple P y Q E) : Triple P (if c then x else y) Q E := by
  split
  · exact hx ‹_›
  · exact hy ‹_›

section Branches

variable {c : Prop} [Decidable c] {x y : EStateM ε σ α}

theorem Triple.branch (hx : Triple P x Q E) (hy : Triple P y Q E) :
    Triple P (if c then x else y) Q E :=
  .ite (fun _ => hx) fun _ => hy

theorem Triple.when (h : Triple P x (fun _ => P) E) :
    Triple P (if c then x else Pure.pure a) (fun _ => P) E :=
  h.branch .skip

theorem Triple.unless (h : Triple P x (fun _ => P) E) :
    Triple P (if c then Pure.pure a else x) (fun _ => P) E :=
  .branch .skip h

end Branches

theorem Triple.tryCatch {F : ε → σ → Prop} (hx : Triple P x Q F)
    (hh : ∀ e, Triple (F e) (handler e) Q E) :
    Triple P (tryCatch x handler : EStateM ε σ α) Q E := by
  intro s hs
  have h := hx s hs
  show match EStateM.tryCatch x handler s with
    | .ok a s' => Q a s'
    | .error e s' => E e s'
  unfold EStateM.tryCatch
  cases hr : x s with
  | ok a s' => simpa [hr] using h
  | error e s' => exact hh e s' (by rwa [hr] at h)

theorem Keeps.get {I : σ → Prop} {f : σ → EStateM ε σ α} (h : ∀ s, Keeps I (f s)) :
    Keeps I (get >>= f) :=
  fun s hs => h s s hs

/-! ### Loops over lists -/

/-- A loop with an invariant on the elements still to come. -/
theorem Triple.forM {f : ι → EStateM ε σ PUnit} {I : List ι → σ → Prop}
    (h : ∀ i is, Triple (I (i :: is)) (f i) (fun _ => I is) E) (is : List ι) :
    Triple (I is) (is.forM f) (fun _ => I []) E := by
  induction is with
  | nil => exact .skip
  | cons i is ih => exact .bind (h i is) fun _ => ih

theorem Keeps.forM_mem {I : σ → Prop} {f : ι → EStateM ε σ PUnit} {is : List ι}
    (h : ∀ i ∈ is, Keeps I (f i)) : Keeps I (is.forM f) := by
  induction is with
  | nil => exact .skip
  | cons i is ih =>
    exact .bind (h i (.head _)) fun _ => ih fun j hj => h j (.tail _ hj)

theorem Triple.foldlM {f : β → ι → EStateM ε σ β} {I : List ι → β → σ → Prop}
    (h : ∀ i is b, Triple (I (i :: is) b) (f b i) (I is) E) (is : List ι) (b : β) :
    Triple (I is b) (is.foldlM f b) (I []) E := by
  induction is generalizing b with
  | nil => exact .pure fun _ hs => hs
  | cons i is ih =>
    exact .bind (h i is b) ih

end Hoare
