import Psiphon.Meek.Ownership

/-!
# Sweeps and sessions in use

`LastSeen` is refreshed once, when a call gets its session, so a sweep may close a session in use.
-/

namespace Psiphon.Meek

open Option Dispatcher

def CallAct.time : CallAct → Option Time
  | .touch now => some now
  | .checkRegion _ now => some now
  | _ => none

def Act.time : Act → Option Time
  | .call _ act => act.time
  | .sweep now => some now

/-- A step of the server under a clock that does not run backwards. -/
def clockStep (cfg : Config) (c : State × Time) (a : Act) : Option (State × Time) :=
  match a.time with
  | none => (step cfg c.1 a).map (·, c.2)
  | some now => if c.2 ≤ now then (step cfg c.1 a).map (·, now) else none

variable {cfg : Config}

theorem clockStep_cases {c c' : State × Time} {a : Act} (h : clockStep cfg c a = some c') :
    step cfg c.1 a = some c'.1 ∧ c.2 ≤ c'.2 ∧ ∀ now, a.time = some now → c'.2 = now := by
  unfold clockStep at h
  split at h
  · next ht =>
    obtain ⟨s',hs,rfl⟩ := map_eq_some_iff.mp h
    exact ⟨hs,Int.le_refl _,by simp [ht]⟩
  · next now ht =>
    split at h
    · next hle =>
      obtain ⟨s',hs,rfl⟩ := map_eq_some_iff.mp h
      exact ⟨hs,hle,by simp [ht]⟩
    · cases h

/-- The session that a call has touched and not yet finished relaying, and when it
touched it. -/
def Pc.touched? : Pc → Option (SessionId × Time)
  | .insert _ _ sid touched => some (sid, touched)
  | .relay _ sid touched => some (sid, touched)
  | _ => none

def Dispatcher.lastSeenOf (d : Dispatcher) (sid : SessionId) : Option Time :=
  d.sessions[sid]?.map (·.lastSeen)

/-- The session was last seen at the time or later. -/
def SeenSince (sid : SessionId) (u : Time) (c : State × Time) : Prop :=
  u ≤ c.2 ∧ ∃ seen, c.1.dispatcher.lastSeenOf sid = some seen ∧ u ≤ seen

/-- A session in use was last seen when its call touched it, or later. -/
structure Timely (c : State × Time) : Prop where
  wellFormed : WellFormed c.1
  touched : ∀ {i sid u}, (c.1.calls i).touched? = some (sid, u) → SeenSince sid u c

theorem lastSeenOf_touch (d : Dispatcher) (sid a : SessionId) (now : Time) :
    (d.touch sid now).lastSeenOf a =
      if sid = a then (d.lastSeenOf a).map fun _ => now else d.lastSeenOf a := by
  simp only [lastSeenOf,touch,List.getElem?_modify]
  split
  · cases d.sessions[a]? <;> rfl
  · simp

theorem CallStep.lastSeen {d d' : Dispatcher} {pc pc' : Pc} {act : CallAct}
    (h : CallStep cfg d pc act d' pc') {sid : SessionId} {seen : Time}
    (hs : d.lastSeenOf sid = some seen) : d'.lastSeenOf sid = some seen ∨
      ∃ now, act.time = some now ∧ d'.lastSeenOf sid = some now := by
  cases h with
  | touch sid' now =>
    rw [lastSeenOf_touch,hs]
    split
    · exact .inr ⟨now,rfl,rfl⟩
    · exact .inl rfl
  | admitted hr =>
    obtain ⟨session,hse,_⟩ := map_eq_some_iff.mp hs
    have hlt : sid < d.sessions.length := (List.getElem?_eq_some_iff.mp hse).1
    refine .inl ?_
    rw [lastSeenOf,List.getElem?_append_left hlt]
    exact hs
  | @relayed key sid' touched io session hse hr =>
    refine .inl ?_
    rw [← hs,lastSeenOf,lastSeenOf,List.getElem?_set]
    split
    · next he =>
      subst he
      rw [if_pos (List.getElem?_eq_some_iff.mp hse).1,hse,map_some,
        (relayPayload_frame _ _ _ _).2,map_some]
    · rfl
  | @closed key hl => exact .inl (by simpa [lastSeenOf] using hs)
  | _ => exact .inl hs

theorem CallStep.touched {d d' : Dispatcher} {pc pc' : Pc} {act : CallAct}
    (h : CallStep cfg d pc act d' pc')
    (hlt : ∀ {sid}, pc.session? = some sid → sid < d.sessions.length) {sid : SessionId} {u : Time}
    (ht : pc'.touched? = some (sid, u)) :
    pc.touched? = some (sid, u) ∨ act.time = some u ∧ d'.lastSeenOf sid = some u := by
  cases h with
  | start r =>
    obtain h | ⟨cookie,_,h⟩ := startCall_cases r <;> rw [h] at ht <;> cases ht
  | touch sid' now =>
    cases ht
    refine .inr ⟨rfl,?_⟩
    rw [lastSeenOf_touch,if_pos rfl]
    simp [lastSeenOf,hlt rfl]
  | admitted hr =>
    cases ht
    exact .inr ⟨rfl,by simp [lastSeenOf,newSession]⟩
  | inserted hl hk => exact .inl ht
  | relayed hs hr => split at ht <;> cases ht
  | _ => cases ht

theorem SeenSince.step {c c' : State × Time} {a : Act} {sid : SessionId} {u : Time}
    (hc : SeenSince sid u c) (h : clockStep cfg c a = some c') : SeenSince sid u c' := by
  obtain ⟨hs,hle,hti⟩ := clockStep_cases h
  obtain ⟨hu,seen,hse,hle'⟩ := hc
  obtain ⟨s',clock'⟩ := c'
  refine ⟨hu.trans hle,?_⟩
  obtain ⟨j,act,d,pc,rfl,hca,rfl⟩ | ⟨now,rfl,_,rfl⟩ := step_cases hs
  · rcases hca.lastSeen hse with hk | ⟨now,ha,hset⟩
    · exact ⟨seen,hk,hle'⟩
    · refine ⟨now,hset,?_⟩
      rw [← hti now ha]
      exact hu.trans hle
  · exact ⟨seen,by simpa [lastSeenOf] using hse,hle'⟩

theorem Timely.step {c c' : State × Time} {a : Act} (hc : Timely c)
    (h : clockStep cfg c a = some c') : Timely c' := by
  obtain ⟨hs,_,hti⟩ := clockStep_cases h
  refine ⟨hc.wellFormed.step hs,fun {i sid u} ht => ?_⟩
  obtain ⟨s',clock'⟩ := c'
  obtain ⟨j,act,d,pc,rfl,hca,rfl⟩ | ⟨now,rfl,_,rfl⟩ := step_cases hs
  · -- it is enough to look at the step in which the call touched the session
    suffices hn : (c.1.calls i).touched? = some (sid, u) ∨
        act.time = some u ∧ d.lastSeenOf sid = some u by
      rcases hn with ho | ⟨ha,hse⟩
      · exact (hc.touched ho).step h
      · exact ⟨(hti u ha).ge,u,hse,Int.le_refl u⟩
    by_cases hij : i = j
    · subst hij
      simp only [Function.update_self] at ht
      exact hca.touched (fun h => hc.wellFormed.pc_lt h) ht
    · simp only [Function.update_of_ne hij] at ht
      exact .inl ht
  · exact (hc.touched ht).step h

theorem timely_init (start : Time) : Timely (.init, start) :=
  ⟨.init,by simp [State.init,Pc.touched?]⟩

/-- No sweep closes the connection of a session at most `MAX_SESSION_STALENESS` after the last
`Touch` of it, whichever call made it: the call `i` touched the session in the state `b`. -/
theorem sweep_spares_recently_touched {cfg : Config} {as bs : List Act} {start now : Time}
    {b c c' : State × Time} {i : CallId} {sid : SessionId} {touched : Time}
    (hb : Runs.run (clockStep cfg) (.init, start) as = some b)
    (hi : (b.1.calls i).touched? = some (sid, touched))
    (h : Runs.run (clockStep cfg) b bs = some c)
    (hsweep : clockStep cfg c (.sweep now) = some c')
    (hnow : now - touched ≤ maxSessionStaleness) {conn : ConnId}
    (hconn : c.1.dispatcher.connOf sid = some conn) :
    conn ∈ c'.1.dispatcher.closed ↔ conn ∈ c.1.dispatcher.closed := by
  have htb : Timely b := Runs.run_invariant (fun _ _ _ hc h => hc.step h) (timely_init start) hb
  have hc : Timely c := Runs.run_invariant (fun _ _ _ hc h => hc.step h) htb h
  obtain ⟨_,seen,hse,hle⟩ : SeenSince sid touched c :=
    Runs.run_invariant (fun _ _ _ hc h => hc.step h) (htb.touched hi) h
  obtain ⟨hs,_,_⟩ := clockStep_cases hsweep
  -- the session was not touched earlier than that, so it has not expired
  have hf : c.1.dispatcher.expiredAt now sid = false := by
    obtain ⟨session,hsess,rfl⟩ := map_eq_some_iff.mp hse
    simp only [expiredAt,hsess,Session.expired,decide_eq_false_iff_not]
    exact Int.not_lt.mpr ((Int.sub_le_sub_left hle now).trans hnow)
  simp only [step] at hs
  split at hs
  · cases hs
  · rw [← Option.some.inj hs,expireSessions_closed]
    refine or_iff_left ?_
    rintro ⟨key,sid',_,hx,hconn'⟩
    rw [hc.wellFormed.conn_inj hconn' hconn,hf] at hx
    cases hx

def secondLookup : List Act :=
  firstRequest 0 none ++ storeAndRelay 0 ++
    [.call 1 (.start ⟨"POST", some "k", ""⟩), .call 1 .lookup]

def secondRequest : List Act := secondLookup ++ [.call 1 (.touch 0)]

/-- A sweep after 45 seconds of the relay. -/
theorem sweep_spares_second_request :
    ∃ c c', Runs.run (clockStep openConfig) (.init, 0) secondRequest = some c ∧
      c.1.calls 1 = .relay "" 0 0 ∧ clockStep openConfig c (.sweep (45 * second)) = some c' ∧
      c.1.dispatcher.connOf 0 = some 0 ∧
      (0 ∈ c'.1.dispatcher.closed ↔ 0 ∈ c.1.dispatcher.closed) := by
  refine ⟨_,_,(some_get (by decide)).symm,by decide,(some_get (by decide)).symm,by decide,?_⟩
  exact @sweep_spares_recently_touched _ _ [] _ _ _ _ _ 1 0 0 (some_get _).symm (by decide) rfl
    (some_get _).symm (by decide) _ (by decide)

/-- A sweep 46 seconds after the last `Touch` closes the connection of a call in its relay, and of a
call between its lookup and its `Touch`. -/
theorem sweep_closes_second_request :
    (∃ c c', Runs.run (clockStep openConfig) (.init, 0) secondRequest = some c ∧
      c.1.calls 1 = .relay "" 0 0 ∧ clockStep openConfig c (.sweep (46 * second)) = some c' ∧
      c.1.dispatcher.connOf 0 = some 0 ∧
      0 ∈ c'.1.dispatcher.closed ∧ 0 ∉ c.1.dispatcher.closed) ∧
    ∃ c c', Runs.run (clockStep openConfig) (.init, 0) secondLookup = some c ∧
      c.1.calls 1 = .touch 0 ∧ clockStep openConfig c (.sweep (46 * second)) = some c' ∧
      c.1.dispatcher.connOf 0 = some 0 ∧
      0 ∈ c'.1.dispatcher.closed ∧ 0 ∉ c.1.dispatcher.closed := by
  refine ⟨⟨_,_,(some_get (by decide)).symm,by decide,(some_get (by decide)).symm,?_⟩,
    _,_,(some_get (by decide)).symm,by decide,(some_get (by decide)).symm,?_⟩
  · decide
  · decide

end Psiphon.Meek
