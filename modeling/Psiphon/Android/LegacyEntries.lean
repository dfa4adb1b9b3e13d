import Psiphon.Lib.Runs

/-!
# The legacy server entries

`getServerEntries` of `TunnelManager.java` reads the file of an older version and deletes it, for
the main tunnel and for that of the upgrade checker.
-/

namespace Psiphon.Android.Legacy

open Runs (Along Through through_iff_along)

inductive Tunnel where
  | main
  | upgradeChecker
  deriving DecidableEq, Repr

/-- Where a tunnel is in `startTunneling(getServerEntries(context))`. -/
inductive Phase where
  | idle
  /-- The list is made. The file is deleted next, if it was found. -/
  | listed (entries : List String) (found : Bool)
  | starting (entries : List String)
  deriving DecidableEq, Repr

structure State where
  file : Option (List String)
  phase : Tunnel → Phase
  /-- The lists given to calls of the main tunnel that returned. -/
  stored : List (List String)

inductive Action where
  | read (tunnel : Tunnel)
  /-- An exception while the entries are read, after some of them. -/
  | readFails (tunnel : Tunnel) (entries : ℕ)
  | delete (tunnel : Tunnel)
  | returns (tunnel : Tunnel)
  | throws (tunnel : Tunnel)
  deriving DecidableEq, Repr

def maxLegacyServerEntries : ℕ := 100

namespace State

def moved (s : State) (tunnel : Tunnel) (phase : Phase) : State :=
  { s with phase := Function.update s.phase tunnel phase }

@[simp] theorem phase_moved_self (s : State) (t : Tunnel) (p : Phase) :
    (s.moved t p).phase t = p := Function.update_self ..

@[simp] theorem phase_moved_of_ne {t o : Tunnel} (h : o ≠ t) (s : State)
    (p : Phase) : (s.moved t p).phase o = s.phase o := Function.update_of_ne h ..

def step (embedded : List String) (s : State) : Action → Option State
  | .read tunnel =>
    match s.phase tunnel, s.file with
    | .idle, some entries =>
      some (s.moved tunnel (.listed (embedded ++ entries.take maxLegacyServerEntries) true))
    | .idle, none => some (s.moved tunnel (.listed embedded false))
    | _, _ => none
  | .readFails tunnel n =>
    match s.phase tunnel, s.file with
    | .idle, some entries => some (s.moved tunnel (.listed (embedded ++ entries.take n) false))
    | _, _ => none
  | .delete tunnel =>
    match s.phase tunnel with
    | .listed entries found =>
      some ({ s with file := if found then none else s.file }.moved tunnel (.starting entries))
    | _ => none
  | .returns tunnel =>
    match s.phase tunnel with
    | .starting entries =>
      some ({ s with
        stored := if tunnel = Tunnel.main then s.stored ++ [entries] else s.stored }.moved
        tunnel .idle)
    | _ => none
  | .throws tunnel =>
    match s.phase tunnel with
    | .starting _ => some (s.moved tunnel .idle)
    | _ => none

def initial (legacy : List String) : State := ⟨some legacy, fun _ => .idle, []⟩

end State

variable {legacy embedded : List String} {s s' : State} {a : Action}

/-- A call of the main tunnel with the entries is in progress. -/
def Phase.Holds (legacy : List String) : Phase → Prop
  | .idle => False
  | .listed entries _ => legacy ⊆ entries
  | .starting entries => legacy ⊆ entries

def State.Stored (legacy : List String) (s : State) : Prop := ∃ entries ∈ s.stored, legacy ⊆ entries

def State.Kept (legacy : List String) (s : State) : Prop :=
  s.file.isSome = true ∨ s.Stored legacy ∨ (s.phase .main).Holds legacy

/-- The upgrade checker deletes the file although no call of the main tunnel has the entries, or
such a call throws after the file was deleted. -/
def Loses (legacy : List String) (s : State) : Action → Prop
  | .delete .upgradeChecker => (∃ entries, s.phase .upgradeChecker = .listed entries true) ∧
    ¬ s.Stored legacy ∧ ¬ (s.phase .main).Holds legacy
  | .throws .main => (∃ entries, s.phase .main = .starting entries) ∧ s.file = none ∧
    ¬ s.Stored legacy
  | _ => False

/-- The file is as it was, and who has read it has the entries. -/
structure State.Ok (legacy : List String) (s : State) : Prop where
  file : ∀ entries, s.file = some entries → entries = legacy
  found : ∀ tunnel entries, s.phase tunnel = .listed entries true → legacy ⊆ entries

section Step

variable (hlength : legacy.length ≤ maxLegacyServerEntries) (hs : s.Ok legacy)
  (h : s.step embedded a = some s')

theorem State.Ok.moved {t : Tunnel} {p : Phase} (hs : s.Ok legacy)
    (hp : ∀ entries, p = .listed entries true → legacy ⊆ entries) : (s.moved t p).Ok legacy := by
  refine ⟨hs.file,fun o entries ho => ?_⟩
  by_cases heq : o = t
  · subst heq
    rw [State.phase_moved_self] at ho
    exact hp entries ho
  · rw [State.phase_moved_of_ne heq] at ho
    exact hs.found o entries ho

include hlength hs h

theorem State.Ok.step : s'.Ok legacy := by
  cases a with
  | read t =>
    rw [State.step] at h
    split at h
    · rename_i entries hphase hf
      cases h
      refine hs.moved fun list hl => ?_
      cases hl
      rw [hs.file entries hf,List.take_of_length_le hlength]
      exact List.subset_append_right ..
    · cases h
      exact hs.moved nofun
    · cases h
  | readFails t n =>
    rw [State.step] at h
    split at h <;> cases h
    exact hs.moved nofun
  | delete t =>
    rw [State.step] at h
    split at h <;> cases h
    refine State.Ok.moved ⟨fun entries hf => ?_,hs.found⟩ nofun
    split_ifs at hf
    exact hs.file entries hf
  | returns t =>
    rw [State.step] at h
    split at h <;> cases h
    exact State.Ok.moved ⟨hs.file,hs.found⟩ nofun
  | throws t =>
    rw [State.step] at h
    split at h <;> cases h
    exact hs.moved nofun

omit hlength in
theorem kept_step_iff (hk : s.Kept legacy) : s'.Kept legacy ↔ ¬ Loses legacy s a := by
  have ho (p : Phase) : (s.moved .upgradeChecker p).Kept legacy ↔ s.Kept legacy := by
    rfl
  cases a with
  | read t =>
    refine iff_of_true ?_ id
    rw [State.step] at h
    split at h <;> cases h
    all_goals
      rename_i hi _
      cases t with
      | main => exact hk.imp_right (.imp_right fun hh => by simp [hi,Phase.Holds] at hh)
      | upgradeChecker => exact (ho _).mpr hk
  | readFails t n =>
    refine iff_of_true ?_ id
    rw [State.step] at h
    split at h <;> cases h
    rename_i hf
    exact .inl (by rw [State.moved,hf]; rfl)
  | delete t =>
    rw [State.step] at h
    split at h <;> cases h
    rename_i entries found hp
    cases t with
    | main =>
      refine iff_of_true ?_ id
      cases found with
      | true => exact .inr (.inr (by simpa [Phase.Holds] using hs.found .main entries hp))
      | false =>
        exact hk.imp_right (.imp_right fun hh => by
          simpa [hp,Phase.Holds] using hh)
    | upgradeChecker =>
      cases found with
      | true =>
        have hg : ¬ Loses legacy s (.delete .upgradeChecker) ↔
            s.Stored legacy ∨ (s.phase .main).Holds legacy := by
          rw [Loses,not_and,← not_or,not_not]
          exact ⟨fun himp => himp ⟨entries,hp⟩,fun hor _ => hor⟩
        rw [hg]
        exact or_iff_right (b := _ ∨ _) Bool.false_ne_true
      | false => exact iff_of_true ((ho _).mpr hk) (by simp [Loses,hp])
  | returns t =>
    refine iff_of_true ?_ id
    rw [State.step] at h
    split at h <;> cases h
    rename_i entries hp
    cases t with
    | main =>
      rcases hk with hf | ⟨list,hl,hsub⟩ | hh
      · exact .inl hf
      · exact .inr (.inl ⟨list,List.mem_append_left _ hl,hsub⟩)
      · rw [hp] at hh
        exact .inr (.inl ⟨entries,by simp [State.moved],hh⟩)
    | upgradeChecker => exact (ho _).mpr hk
  | throws t =>
    rw [State.step] at h
    split at h <;> cases h
    rename_i entries hp
    cases t with
    | main =>
      have hi : (s.moved .main .idle).Kept legacy ↔ s.file.isSome = true ∨ s.Stored legacy := by
        simp [State.Kept,Phase.Holds,State.moved,State.Stored]
      rw [hi,Loses,not_and,not_and,Option.isSome_iff_ne_none]
      simp [hp,imp_iff_not_or]
    | upgradeChecker => exact iff_of_true ((ho _).mpr hk) id

end Step

/-- The entries stay in the file or go to the main tunnel exactly as long as the upgrade checker
does not delete the file first and the main tunnel, once it has done so, does not fail to start. -/
theorem legacy_entries_kept_iff (legacy embedded : List String) (actions : List Action)
    (hlength : legacy.length ≤ maxLegacyServerEntries) :
    Through (State.step embedded) (State.Kept legacy) (.initial legacy) actions ↔
      Along (State.step embedded) (fun s a => ¬ Loses legacy s a) (.initial legacy) actions := by
  refine through_iff_along (I := State.Ok legacy) (fun s a s' hs h => hs.step hlength h)
    (fun s a s' hs hk h => kept_step_iff hs h hk) (fun s a h hl => ?_)
    ⟨fun entries h => (Option.some.inj h).symm,nofun⟩ (.inl rfl)
  rw [Loses.eq_def] at hl
  split at hl
  · obtain ⟨⟨entries,hp⟩,-⟩ := hl
    simp [State.step,hp] at h
  · obtain ⟨⟨entries,hp⟩,-⟩ := hl
    simp [State.step,hp] at h
  · exact hl

theorem legacy_entries_kept_mainFirst :
    Through (State.step []) (State.Kept ["entry"]) (.initial ["entry"])
      [.read .main, .delete .main, .returns .main, .read .upgradeChecker] :=
  (legacy_entries_kept_iff ["entry"] [] _ (by decide)).mpr (by simp [Along,Loses])

theorem entries_deleted_by_upgrade_checker :
    ¬ Through (State.step []) (State.Kept ["entry"]) (.initial ["entry"])
      [.read .upgradeChecker, .delete .upgradeChecker] := by
  simp [Through,State.step,State.initial,State.Kept,State.Stored,State.moved,Phase.Holds]

end Psiphon.Android.Legacy
