import Psiphon.Meek.Ownership

/-!
# A call that no other call disturbs

`GetSession` and `ServeHTTP` when no other goroutine acts. For a cookie in the map `GetSession`
leaves its result `sessKey` empty.
-/

namespace Psiphon.Meek

open Runs Dispatcher List

structure CallWorld where
  touchedAt : Time
  dial : Option ClientSessionData
  geo : Option GeoIpData
  createdAt : Time
  random : RandomSource
  io : RelayIO

/-- What the outside world answers a call of the request, in the order in which it is asked. -/
def CallWorld.answers (w : CallWorld) (request : Request) : List CallAct :=
  [.start request, .lookup, .touch w.touchedAt, .dial w.dial, .checkRegion w.geo w.createdAt,
    .insert w.random, .relay w.io, .close]

/-- The dispatcher when `GetSession` returns, with the key and the session; `none` is an
error. -/
structure GotSession where
  dispatcher : Dispatcher
  result : Option (String × SessionId)

/-- `GetSession`; `none` when it waits for the lock forever. -/
def getSession (cfg : Config) (d : Dispatcher) (request : Request) (cookie : String)
    (w : CallWorld) : Option GotSession :=
  if cookie = "" then some ⟨d, none⟩
  else if d.locked then none
  else match d.sessionMap.lookup cookie with
    | some sid => some ⟨d.touch sid w.touchedAt, some ("", sid)⟩
    | none =>
      match w.dial with
      | none => some ⟨d, none⟩
      | some data =>
        if deniedRegion cfg w.geo then some ⟨{ d with dialed := d.dialed + 1 }, none⟩
        else
          let session := newSession cfg data d.dialed w.geo request.userAgent w.createdAt
          let d' := { d with dialed := d.dialed + 1, sessions := d.sessions ++ [session] }
          match newSessionKey data.meekProtocolVersion cookie w.random with
          | none => some ⟨{ d' with locked := true }, none⟩
          | some sessKey =>
            some ⟨{ d' with sessionMap := d'.sessionMap.insert sessKey d.sessions.length },
              some (sessKey, d.sessions.length)⟩

/-- The dispatcher when `ServeHTTP` returns, with the session that was relayed and how
its relay went. -/
structure ServeReturn where
  dispatcher : Dispatcher
  relay : Option (SessionId × Relayed)

/-- `ServeHTTP` from the return of `GetSession` on. -/
def serveRelay (cfg : Config) (d : Dispatcher) (sessionKey : String) (sid : SessionId)
    (io : RelayIO) : Option ServeReturn :=
  match d.sessions[sid]? with
  | none => none
  | some session =>
    let r := relayPayload cfg sessionKey session io
    let d' := { d with sessions := d.sessions.set sid r.session }
    if r.returned then
      if r.failed then
        if d.locked then none else some ⟨d'.closeSession sessionKey, some (sid, r)⟩
      else some ⟨d', some (sid, r)⟩
    else none

/-- `ServeHTTP`; `none` when it does not return. -/
def serveHTTP (cfg : Config) (d : Dispatcher) (request : Request) (w : CallWorld) :
    Option ServeReturn :=
  match request.cookie with
  | none => some ⟨d, none⟩
  | some cookie =>
    if request.method ≠ "POST" then some ⟨d, none⟩
    else match getSession cfg d request cookie w with
      | none => none
      | some ⟨d', none⟩ => some ⟨d', none⟩
      | some ⟨d', some (sessionKey, sid)⟩ => serveRelay cfg d' sessionKey sid w.io

/-! ### The sequential call is a run of the interleaved server -/

def soloStep (cfg : Config) (c : Dispatcher × Pc) (act : CallAct) : Option (Dispatcher × Pc) :=
  callStep cfg c.1 c.2 act

variable {cfg : Config} {d : Dispatcher}

/-- What a call does alone it does in the server, with the other calls left where they
stand. -/
theorem run_of_solo {s : State} {i : CallId} {acts : List CallAct} {pc : Pc}
    (h : run (soloStep cfg) (s.dispatcher, s.calls i) acts = some (d, pc)) :
    run (step cfg) s (acts.map (.call i)) = some ⟨d,Function.update s.calls i pc⟩ := by
  induction acts generalizing s with
  | nil =>
    cases h
    rw [List.map_nil,run_nil,Function.update_eq_self]
  | cons act acts ih =>
    obtain ⟨⟨d',pc'⟩,hs,hr⟩ := run_cons_eq_some.mp h
    have hs' : callStep cfg s.dispatcher (s.calls i) act = some (d', pc') := hs
    refine run_cons_eq_some.mpr ⟨⟨d',Function.update s.calls i pc'⟩,?_,?_⟩
    · simp [step,hs']
    · have := @ih ⟨d',Function.update s.calls i pc'⟩ (by simpa using hr)
      rwa [Function.update_idem] at this

variable {request : Request} {w : CallWorld}

/-- `GetSession` step by step, with the answers of the world: it ends the call on an error, and
otherwise brings it to its relay. -/
theorem getSession_run {cookie : String} {got : GotSession} (hc : cookie ≠ "")
    (h : getSession cfg d request cookie w = some got) :
    ∃ acts touched, acts <+ [.lookup, .touch w.touchedAt, .dial w.dial,
        .checkRegion w.geo w.createdAt, .insert w.random] ∧
      run (soloStep cfg) (d, .lookup request cookie) acts =
        some (got.dispatcher, match got.result with
          | none => .done
          | some (key, sid) => .relay key sid touched) := by
  simp only [getSession,if_neg hc] at h
  split at h
  · cases h
  · next hl =>
    split at h
    · next sid hm =>
      cases h
      refine ⟨[.lookup,.touch w.touchedAt],w.touchedAt,by simp,?_⟩
      simp [run,soloStep,callStep,hl,hm]
    · next hm =>
      split at h
      · next hd =>
        cases h
        refine ⟨[.lookup,.dial none],0,.cons_cons _ (.cons _ (by simp [hd])),?_⟩
        simp [run,soloStep,callStep,hl,hm]
      · next data hd =>
        -- the lookup and the dial bring the call to the check of the region
        have hdi : ∀ acts, run (soloStep cfg) (d, .lookup request cookie)
            (.lookup :: .dial (some data) :: acts) =
            run (soloStep cfg) ({ d with dialed := d.dialed + 1 },
              .checkRegion request cookie data d.dialed) acts := by
          intro acts
          simp [run,soloStep,callStep,hl,hm]
        split at h
        · next hr =>
          cases h
          refine ⟨[.lookup,.dial (some data),.checkRegion w.geo w.createdAt],0,
            .cons_cons _ (.cons _ (by simp [hd])),?_⟩
          rw [hdi]
          simp [run,soloStep,callStep,hr]
        · next hr =>
          have ha : run (soloStep cfg) (d, .lookup request cookie)
              [.lookup,.dial (some data),.checkRegion w.geo w.createdAt,.insert w.random] =
              some (got.dispatcher, match got.result with
                | none => .done
                | some (key, sid) => .relay key sid w.createdAt) := by
            rw [hdi]
            split at h
            · next hk => cases h; simp [run,soloStep,callStep,hl,hr,hk]
            · next hk => cases h; simp [run,soloStep,callStep,hl,hr,hk]
          exact ⟨_,_,.cons_cons _ (.cons _ (by simp [hd])),ha⟩

variable {r : ServeReturn} {sid : SessionId} {key : String}

/-- `ServeHTTP` relays once and closes the session after a failure, with the lock free. -/
theorem serveRelay_cases {io : RelayIO} (h : serveRelay cfg d key sid io = some r) :
    ∃ session, d.sessions[sid]? = some session ∧
      r.relay = some (sid, relayPayload cfg key session io) ∧
      (relayPayload cfg key session io).returned = true ∧
      if (relayPayload cfg key session io).failed then d.locked = false ∧
          r.dispatcher = closeSession { d with
            sessions := d.sessions.set sid (relayPayload cfg key session io).session } key
        else r.dispatcher = { d with
          sessions := d.sessions.set sid (relayPayload cfg key session io).session } := by
  unfold serveRelay at h
  split at h
  · cases h
  · next session hs =>
    dsimp only at h
    split at h
    · next hr =>
      refine ⟨session,hs,?_⟩
      split at h
      · next hf =>
        split at h
        · cases h
        · next hl => cases h; exact ⟨rfl,hr,by rw [if_pos hf]; exact ⟨by simpa using hl,rfl⟩⟩
      · next hf => cases h; exact ⟨rfl,hr,by rw [if_neg hf]⟩
    · cases h

theorem serveRelay_run {io : RelayIO} (touched : Time) (h : serveRelay cfg d key sid io = some r) :
    ∃ acts, acts <+ [.relay io, .close] ∧
      run (soloStep cfg) (d, .relay key sid touched) acts = some (r.dispatcher, .done) := by
  obtain ⟨session,hs,_,hr,he⟩ := serveRelay_cases h
  split at he
  · next hf =>
    refine ⟨[.relay io,.close],.refl _,?_⟩
    simp [run,soloStep,callStep,hs,hr,hf,he]
  · next hf =>
    refine ⟨[.relay io],by simp,?_⟩
    simp [run,soloStep,callStep,hs,hr,hf,he]

/-- `ServeHTTP` is a run of one call, from its start to its return. -/
theorem serveHTTP_run (h : serveHTTP cfg d request w = some r) :
    ∃ acts, acts <+ w.answers request ∧
      run (soloStep cfg) (d, .ready) acts = some (r.dispatcher, .done) := by
  -- the checks at the start end the call in one step
  have he : startCall request = .done → r.dispatcher = d →
      ∃ acts, acts <+ w.answers request ∧
        run (soloStep cfg) (d, .ready) acts = some (r.dispatcher, .done) :=
    fun hs hd => ⟨[.start request],by simp [CallWorld.answers],
      by simp [run,soloStep,callStep,hs,hd]⟩
  unfold serveHTTP at h
  split at h
  · next hc => cases h; exact he (by simp [startCall,hc]) rfl
  · next cookie hc =>
    split at h
    · next hm => cases h; exact he (by simp [startCall,hc,hm]) rfl
    · next hm =>
      by_cases hne : cookie = ""
      · rw [getSession,if_pos hne] at h
        cases h
        exact he (by simp [startCall,hc,hne]) rfl
      · have hst : soloStep cfg (d, .ready) (.start request) =
            some (d, .lookup request cookie) := by
          simp [soloStep,callStep,startCall,hc,not_not.mp hm,hne]
        split at h
        · cases h
        · next d' hg =>
          cases h
          obtain ⟨acts,_,hsub,ha⟩ := getSession_run hne hg
          exact ⟨.start request :: acts,.cons_cons _ (hsub.trans (sublist_append_left _ _)),
            run_cons_eq_some.mpr ⟨_,hst,ha⟩⟩
        · next d' key sid hg =>
          obtain ⟨acts,touched,hsub,ha⟩ := getSession_run hne hg
          obtain ⟨rest,hsub',hr⟩ := serveRelay_run touched h
          refine ⟨.start request :: (acts ++ rest),.cons_cons _ (hsub.append hsub'),
            run_cons_eq_some.mpr ⟨_,hst,?_⟩⟩
          rw [run_append,ha]
          exact hr

/-- `ServeHTTP` in the interleaved server: with the answers of its world the steps of the call lead
to where it returns, and no other call has moved. -/
theorem serveHTTP_run_step {s : State} {i : CallId} (hi : s.calls i = .ready)
    (h : serveHTTP cfg s.dispatcher request w = some r) :
    ∃ acts, acts <+ w.answers request ∧ run (step cfg) s (acts.map (.call i)) =
      some ⟨r.dispatcher,Function.update s.calls i .done⟩ := by
  obtain ⟨acts,hsub,ha⟩ := serveHTTP_run h
  rw [← hi] at ha
  exact ⟨acts,hsub,run_of_solo ha⟩

/-! ### After a failed relay -/

/-- `GetSession` succeeds on two paths: it finds the session of the cookie and returns no
key, or it stores a new session under the key it returns. -/
theorem getSession_cases {cookie : String} {got : GotSession}
    (h : getSession cfg d request cookie w = some got) (hr : got.result = some (key, sid)) :
    (d.sessionMap.lookup cookie = some sid ∧ key = "" ∧ got.dispatcher.sessionMap = d.sessionMap) ∨
    (d.sessionMap.lookup cookie = none ∧ sid = d.sessions.length ∧
      got.dispatcher.sessionMap = d.sessionMap.insert key sid) := by
  unfold getSession at h
  split at h
  · cases h; cases hr
  · split at h
    · cases h
    · split at h
      · next sid' hm => cases h; cases hr; exact .inl ⟨hm,rfl,rfl⟩
      · next hm =>
        split at h
        · cases h; cases hr
        · split at h
          · cases h; cases hr
          · dsimp only at h
            split at h
            · cases h; cases hr
            · cases h; cases hr; exact .inr ⟨hm,rfl,rfl⟩

/-- The session is in no entry of the map and its connection is closed. -/
def Dispatcher.Ended (d : Dispatcher) (sid : SessionId) : Prop :=
  (∀ key, d.sessionMap.lookup key ≠ some sid) ∧ ∃ c, d.connOf sid = some c ∧ c ∈ d.closed

theorem serveHTTP_relay {cookie : String} {relayed : Relayed} (hc : request.cookie = some cookie)
    (h : serveHTTP cfg d request w = some r) (hr : r.relay = some (sid, relayed)) :
    ∃ got key, getSession cfg d request cookie w = some got ∧ got.result = some (key, sid) ∧
      serveRelay cfg got.dispatcher key sid w.io = some r := by
  simp only [serveHTTP,hc] at h
  split at h
  · cases h; cases hr
  · split at h
    · cases h
    · cases h; cases hr
    · next d' key sid' hg =>
      obtain ⟨session,_,hrel,_⟩ := serveRelay_cases h
      rw [hr] at hrel
      cases hrel
      exact ⟨_,key,hg,rfl,h⟩

/-- A failed relay closes exactly the entry under the key it was given. -/
theorem serveRelay_failed {io : RelayIO} {relayed : Relayed}
    (h : serveRelay cfg d key sid io = some r) (hr : r.relay = some (sid, relayed))
    (hf : relayed.failed = true) : ∃ session session', d.sessions[sid]? = some session ∧
      session'.psiConn = session.psiConn ∧ r.dispatcher =
        closeSession { d with sessions := d.sessions.set sid session' } key := by
  obtain ⟨session,hs,hrel,_,he⟩ := serveRelay_cases h
  rw [hr] at hrel
  cases hrel
  rw [if_pos hf] at he
  exact ⟨session,_,hs,(relayPayload_frame _ _ _ _).1,he.2⟩

/-- When a relay fails, the session it was for is gone exactly when `GetSession` had just
created it. -/
theorem failed_relay_ends_iff_created {cfg : Config} {as : List Act} {s : State}
    {request : Request} {cookie : String} {w : CallWorld} {r : ServeReturn}
    {sid : SessionId} {relayed : Relayed}
    (hs : run (step cfg) .init as = some s) (hc : request.cookie = some cookie)
    (h : serveHTTP cfg s.dispatcher request w = some r)
    (hr : r.relay = some (sid, relayed)) (hf : relayed.failed = true) :
    r.dispatcher.Ended sid ↔ s.dispatcher.sessionMap.lookup cookie = none := by
  have hw := wellFormed_of_run hs
  obtain ⟨got,key,hg,hres,hse⟩ := serveHTTP_relay hc h hr
  obtain ⟨session,session',hsess,hconn,hd⟩ := serveRelay_failed hse hr hf
  rw [hd]
  rcases getSession_cases hg hres with ⟨hm,rfl,hmap⟩ | ⟨hm,hnew,hmap⟩
  · refine iff_of_false (fun he => he.1 cookie ?_) (by simp [hm])
    rw [closeSession_lookup,hmap]
    refine ⟨hm,fun he => ?_⟩
    rw [he,hw.key_ne] at hm
    cases hm
  · refine iff_of_true ⟨fun key' hk => ?_,?_⟩ hm
    · rw [closeSession_lookup,hmap] at hk
      rw [AList.lookup_insert_ne hk.2] at hk
      exact absurd (hw.entry_lt hk.1) (by rw [hnew]; exact Nat.lt_irrefl _)
    · have hco : connOf
          { got.dispatcher with sessions := got.dispatcher.sessions.set sid session' } sid =
            some session.psiConn := by
        rw [connOf_set hsess hconn,connOf,hsess,Option.map_some]
      refine ⟨session.psiConn,?_,?_⟩
      · rw [connOf,closeSession_sessions]
        exact hco
      · rw [closeSession_closed,hmap]
        exact .inr ⟨sid,AList.lookup_insert _,hco⟩

/-- The body of the request cannot be sent on to sshd. -/
def brokenUpload : CallWorld := ⟨0, some ⟨1, "", ""⟩, none, 0, ⟨none, fun _ => 0⟩, ⟨0, true, []⟩⟩

/-- The relay of a client's first request fails. -/
theorem serveHTTP_run_step_first : ∃ acts, acts <+ brokenUpload.answers ⟨"POST", some "k", ""⟩ ∧
    (run (step openConfig) .init (acts.map (.call 0))).isSome := by
  obtain ⟨acts,hsub,ha⟩ := serveHTTP_run_step (i := 0) rfl
    (Option.some_get (x := serveHTTP openConfig State.init.dispatcher ⟨"POST", some "k", ""⟩
      brokenUpload) (by decide)).symm
  exact ⟨acts,hsub,Option.isSome_of_eq_some ha⟩

theorem failed_first_request_ends :
    ∃ r relayed, serveHTTP openConfig State.init.dispatcher ⟨"POST", some "k", ""⟩ brokenUpload =
        some r ∧ r.relay = some (0, relayed) ∧ relayed.failed = true ∧ r.dispatcher.Ended 0 := by
  refine ⟨_,_,(Option.some_get (by decide)).symm,rfl,rfl,?_⟩
  exact (failed_relay_ends_iff_created (run_nil State.init) rfl (Option.some_get _).symm
    rfl rfl).mpr rfl

/-- The relay of a client's second request fails: its session stays in the map. -/
theorem failed_second_request_survives :
    ∃ s r relayed, run (step openConfig) .init
        (firstRequest 0 none ++ storeAndRelay 0) = some s ∧
      serveHTTP openConfig s.dispatcher ⟨"POST", some "k", ""⟩ brokenUpload = some r ∧
      r.relay = some (0, relayed) ∧ relayed.failed = true ∧ ¬ r.dispatcher.Ended 0 :=
  ⟨_,_,_,rfl,rfl,rfl,rfl,fun h => h.1 "k" rfl⟩

end Psiphon.Meek
