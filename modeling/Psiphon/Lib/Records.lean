import Mathlib.Data.List.Basic

/-!
# Records with unset fields

A field that was never assigned has no value, and reading it raises: the rules of definite
assignment.
-/

namespace Records

open List

variable {F V ε : Type}

abbrev Record (F V : Type) := F → Option V

inductive Expr (F V : Type) where
  | const (value : V)
  | read (field : F) (f : V → V)

structure Assignment (F V : Type) where
  field : F
  value : Expr F V

def set (field : F) (value : V) : Assignment F V := ⟨field, .const value⟩

def getField (unset : ε) (r : Record F V) (field : F) : Except ε V :=
  match r field with
  | some value => .ok value
  | none => .error unset

def Expr.reads : Expr F V → List F
  | const _ => []
  | read field _ => [field]

def Expr.eval (unset : ε) (r : Record F V) : Expr F V → Except ε V
  | const value => .ok value
  | read field f => (getField unset r field).map f

theorem Expr.eval_ok {u : ε} {r : Record F V} {e : Expr F V}
    (h : ∀ f ∈ e.reads, (r f).isSome) : ∃ value, e.eval u r = .ok value := by
  cases e with
  | const value => exact ⟨value,rfl⟩
  | read field f =>
    obtain ⟨value,hv⟩ := Option.isSome_iff_exists.mp (h field (mem_singleton_self field))
    exact ⟨f value,by simp [Expr.eval,getField,hv,Except.map]⟩

def assigned (body : List (Assignment F V)) : List F := body.map Assignment.field

def reads (body : List (Assignment F V)) : List F := body.flatMap fun a => a.value.reads

variable [DecidableEq F]

def Assignment.exec (unset : ε) (r : Record F V) (a : Assignment F V) : Except ε (Record F V) :=
  (a.value.eval unset r).map fun value => Function.update r a.field (some value)

def exec (unset : ε) (body : List (Assignment F V)) (r : Record F V) : Except ε (Record F V) :=
  body.foldlM (Assignment.exec unset) r

theorem exec_cons (u : ε) (a : Assignment F V) (body : List (Assignment F V)) (r : Record F V) :
    exec u (a :: body) r = (a.exec u r).bind (exec u body) := by
  rfl

theorem Assignment.exec_eq_ok {u : ε} {r r' : Record F V} {a : Assignment F V}
    (h : a.exec u r = .ok r') : ∃ value, r' = Function.update r a.field (some value) := by
  rw [Assignment.exec] at h
  cases he : a.value.eval u r with
  | error e => rw [he] at h; cases h
  | ok value => rw [he] at h; cases h; exact ⟨value,rfl⟩

/-- After a body a field is set exactly when the body assigns it or it was set before. -/
theorem isSome_exec_iff {u : ε} {body : List (Assignment F V)} {r r' : Record F V}
    (h : exec u body r = .ok r') (f : F) : (r' f).isSome ↔ f ∈ assigned body ∨ (r f).isSome := by
  induction body generalizing r with
  | nil =>
    cases h
    simp [assigned]
  | cons a body ih =>
    rw [exec_cons] at h
    cases ha : a.exec u r with
    | error e => rw [ha] at h; cases h
    | ok mid =>
      rw [ha] at h
      obtain ⟨value,rfl⟩ := Assignment.exec_eq_ok ha
      rw [ih h]
      by_cases hf : f = a.field
      · simp [assigned,hf]
      · simp [assigned,hf]

/-- A body whose reads are set does not raise. -/
theorem exec_ok {u : ε} {body : List (Assignment F V)} {r : Record F V}
    (h : ∀ f ∈ reads body, (r f).isSome) : ∃ r', exec u body r = .ok r' := by
  induction body generalizing r with
  | nil => exact ⟨r,rfl⟩
  | cons a body ih =>
    obtain ⟨value,hv⟩ : ∃ value, a.value.eval u r = .ok value :=
      Expr.eval_ok fun f hf => h f (by simp [reads,hf])
    have ha : a.exec u r = .ok (Function.update r a.field (some value)) := by
      simp [Assignment.exec,hv,Except.map]
    -- assigning a field unsets nothing, so the reads of the rest are still set
    have hre : ∀ f ∈ reads body, (Function.update r a.field (some value) f).isSome := by
      intro f hf
      by_cases hfa : f = a.field
      · simp [hfa]
      · rw [Function.update_of_ne hfa]
        exact h f (by simp only [reads,flatMap_cons,mem_append]; exact .inr hf)
    obtain ⟨r',hr'⟩ := ih hre
    exact ⟨r',by rw [exec_cons,ha]; exact hr'⟩

/-! ### Records built by position -/

/-- The arguments are assigned to the fields in order, and the fields that are left get the default.
There is no record when there are too many. -/
def construct (fields : List F) (default : V) (args : List V) : Option (F → V) :=
  if args.length ≤ fields.length then
    some fun f => ((fields.zip args).lookup f).getD default
  else none

/-- The fields of a record that are given to a constructor, as far as it has them in this order,
are those of the record that it makes. -/
theorem construct_map {fields given : List F} (h : given <+: fields) (d : V) (r : F → V) :
    construct fields d (given.map r) = some fun f => if f ∈ given then r f else d := by
  obtain ⟨rest,rfl⟩ := h
  rw [construct,if_pos (by simp)]
  refine congrArg some (funext fun f => ?_)
  induction given with
  | nil => simp
  | cons g given ih =>
    simp only [cons_append,map_cons,zip_cons_cons,lookup_cons]
    by_cases hf : f = g
    · simp [hf]
    · rw [beq_eq_false_iff_ne.mpr hf]
      simp [hf,ih]

end Records
