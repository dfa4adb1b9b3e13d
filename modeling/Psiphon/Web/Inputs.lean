import Psiphon.Web.Handlers
import Psiphon.Web.LoggedValues

/-!
# The inputs of a handler

`_get_inputs` reads and writes the session store. If it returns, it returns what `getInputs` says.
-/

namespace Psiphon.Web

open List Hoare

variable {runtime : Runtime} {server : Server} {request : Request} {s s' : State}

/-! ### The checks -/

/-- The input passes its check, or is left out and may be. -/
def Passes (request : Request) (input : Input) : Prop :=
  match given request input.name with
  | .missing => False
  | .skipped => True
  | .value text => input.valid (orEmptyValue text) = some true

/-- The loop over the inputs comes to this one. -/
def Reached (request : Request) (inputs : List Input) (input : Input) : Prop :=
  ∃ before after, inputs = before ++ input :: after ∧ ∀ earlier ∈ before, Passes request earlier

variable {inputs : List Input}

theorem Reached.mem {i : Input} (h : Reached request inputs i) : i ∈ inputs := by
  obtain ⟨before,after,rfl,-⟩ := h
  exact mem_append_right _ (.head _)

def Raises (request : Request) (input : Input) : Prop :=
  ∃ text, given request input.name = .value text ∧ input.valid (orEmptyValue text) = none

/-- All but the session store is as it was. -/
structure SessionOnly (s s' : State) : Prop where
  discovery : s'.discovery = s.discovery
  secrets : s'.secrets = s.secrets
  log : s'.log = s.log

theorem SessionOnly.refl (s : State) : SessionOnly s s := ⟨rfl,rfl,rfl⟩

theorem cacheGeoip_run (id : Text) (geoip : Geoip) (s : State) :
    ∃ s', cacheGeoip runtime id geoip s = .ok () s' ∧ SessionOnly s s' := by
  unfold cacheGeoip
  split
  · exact ⟨_,rfl,rfl,rfl,rfl⟩
  · exact ⟨s,rfl,.refl s⟩

theorem lookupGeoip_run (id : Text) (s : State) : ∃ s', lookupGeoip runtime server request id s =
      .ok (addressGeoip runtime.toPlatform server request) s' ∧ SessionOnly s s' := by
  unfold lookupGeoip addressGeoip
  split
  · exact ⟨s,rfl,.refl s⟩
  · obtain ⟨s',hr,hs⟩ := cacheGeoip_run id (runtime.getGeoip request.remoteAddr) s
    exact ⟨s',bind_of_ok hr,hs⟩

variable (runtime server request s) in
/-- The place is what `geoip` says, unless the store has a record that cannot be read. -/
theorem findGeoip_cases : (∃ s', findGeoip runtime server request s =
        .ok (geoip runtime.toPlatform server s.session request) s' ∧ SessionOnly s s') ∨
      ∃ e id record, findGeoip runtime server request s = .error (.python e) s ∧
        s.session id = some record ∧ recordGeoip runtime.toPlatform record = .error e := by
  unfold findGeoip geoip
  cases request.param .clientSessionId with
  | none => exact .inl ⟨s,rfl,.refl s⟩
  | some id =>
    by_cases hid : consistsOf id hexdigits = true
    · simp only [hid,Bool.not_true,Bool.false_eq_true,if_false,get_bind]
      rcases hr : s.session id with _ | _ | ⟨c,record⟩
      · obtain ⟨s',hrun,hs⟩ := lookupGeoip_run id s
        exact .inl ⟨s',bind_of_ok hrun,hs⟩
      · obtain ⟨s',hrun,hs⟩ := lookupGeoip_run id s
        exact .inl ⟨s',bind_of_ok hrun,hs⟩
      · cases hre : recordGeoip runtime.toPlatform (c :: record) with
        | ok geoip =>
          refine .inl ⟨s,(raise_bind_of_ok hre s).trans ?_,.refl s⟩
          dsimp only
          rw [hre]
          rfl
        | error e => exact .inr ⟨e,id,c :: record,raise_bind_of_error hre s,hr,hre⟩
    · simp only [hid,Bool.not_false,if_true]
      exact .inl ⟨s,rfl,.refl s⟩

theorem readInputs_of_ok {additional : List Input} {inputs : Option (List (Name × Text))}
    (h : readInputs runtime server request additional s = .ok inputs s') :
    inputs = getInputs runtime.toPlatform server s.session request additional ∧
      SessionOnly s s' := by
  rcases findGeoip_cases runtime server request s with ⟨t,hg,hs⟩ | ⟨e,-,-,hg,-⟩
  · rw [readInputs,bind_of_ok hg] at h
    unfold getInputs
    cases hp : geoip runtime.toPlatform server s.session request with
    | none =>
      rw [hp] at h
      cases h
      exact ⟨rfl,hs⟩
    | some place =>
      rw [hp] at h
      cases hch : checkInputs request (expectedInputs runtime.toPlatform server additional) with
      | error e =>
        simp only [hch] at h
        cases h
      | ok values =>
        simp only [hch] at h
        cases values with
        | none =>
          cases h
          exact ⟨rfl,hs⟩
        | some values =>
          cases h
          exact ⟨rfl,hs⟩
  · rw [readInputs,bind_of_error hg] at h
    cases h

/-- Every record of the session store can be read. -/
def ReadableSessions (runtime : Runtime) (s : State) : Prop :=
  ∀ id record, s.session id = some record →
    ∃ geoip, recordGeoip runtime.toPlatform record = .ok geoip

end Psiphon.Web
