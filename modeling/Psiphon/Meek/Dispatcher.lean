import Mathlib.Data.List.AList
import Mathlib.Data.Finset.Union
import Psiphon.Lib.Runs
import Psiphon.Meek.Session

/-!
# The meek server's dispatcher

The `Dispatcher` of `meek-server.go`. A `ServeHTTP` call is a program counter (`Pc`), and `callStep`
takes it from one point where other goroutines can act to the next. What stands between `Lock` and
`Unlock` is a single step; `locked` is set by the one path that returns without unlocking.
-/

namespace Psiphon.Meek

/-- A pointer to a `Session`: its place in the heap. -/
abbrev SessionId := ℕ

abbrev CallId := ℕ

abbrev SessionMap := AList fun _ : String => SessionId

structure ClientSessionData where
  meekProtocolVersion : ℤ
  psiphonClientSessionId : String
  psiphonServerAddress : String
  deriving DecidableEq, Repr

structure GeoIpData where
  region : String
  city : String
  isp : String
  deriving DecidableEq, Repr

/-- What `ServeHTTP` and `GetSession` read of a request; `cookie` is the value of its
first cookie. -/
structure Request where
  method : String
  cookie : Option String
  userAgent : String
  deriving DecidableEq, Repr

/-- `dialed` connections were opened so far, numbered in that order. -/
structure Dispatcher where
  sessionMap : SessionMap
  locked : Bool
  sessions : List Session
  dialed : ℕ
  closed : Finset ConnId

/-! ### Session keys -/

def minSessionKeyLength : ℕ := 8
def maxSessionKeyLength : ℕ := 20

def alphanumerical : List Char :=
  "0123456789ABCDEFGHIJKLMNOPQRSTUVWXYZabcdefghijklmnopqrstuvwxyz".toList

/-- The random source during one `generateSessionKey` call: the result of `rand.Int`,
`none` when it fails, and the bytes of `rand.Read`. -/
structure RandomSource where
  int : Option (Fin (maxSessionKeyLength - minSessionKeyLength + 1))
  byte : ℕ → UInt8

def generateSessionKey (random : RandomSource) : Option String :=
  if maxSessionKeyLength - minSessionKeyLength ≤ 0 then none
  else random.int.map fun randomInt =>
    let tokenLength := randomInt.val + minSessionKeyLength
    String.ofList <| (List.range tokenLength).map fun i =>
      alphanumerical.getD ((random.byte i).toNat % alphanumerical.length) '0'

/-- The key under which `GetSession` stores a new session. -/
def newSessionKey (meekProtocolVersion : ℤ) (cookie : String) (random : RandomSource) :
    Option String :=
  if meekProtocolVersion ≥ meekProtocolVersion2 then generateSessionKey random
  else some cookie

/-! ### The steps of `GetSession`, `CloseSession` and `ExpireSessions` -/

def deniedRegion (cfg : Config) : Option GeoIpData → Bool
  | none => false
  | some geo => decide (cfg.allowedRegions.length > 0) && !cfg.allowedRegions.contains geo.region

/-- `strings.Contains(strings.ToLower(text), part)`, for a part in ASCII letters. -/
def containsLower (text part : String) : Bool :=
  (text.toList.map Char.toLower).tails.any fun suffix => part.toList.isPrefixOf suffix

def newSession (cfg : Config) (data : ClientSessionData) (conn : ConnId)
    (geo : Option GeoIpData) (userAgent : String) (now : Time) : Session :=
  let isThrottled := match geo with
    | none => false
    | some geo => cfg.throttleRegions.contains geo.region
  { psiConn := conn
    meekProtocolVersion := data.meekProtocolVersion
    lastSeen := now
    bytesTransferred := 0
    isThrottled := isThrottled
    isThrottledSeverely := isThrottled && containsLower userAgent "apache"
    meekSessionKeySent := false }

namespace Dispatcher

def init : Dispatcher := ⟨∅, false, [], 0, ∅⟩

def touch (d : Dispatcher) (sid : SessionId) (now : Time) : Dispatcher :=
  { d with sessions := d.sessions.modify sid (·.touch now) }

def closeSessionHelper (d : Dispatcher) (sessionId : String) (sid : SessionId) : Dispatcher :=
  { d with
    closed := match d.sessions[sid]? with
      | some session => insert session.psiConn d.closed
      | none => d.closed
    sessionMap := d.sessionMap.erase sessionId }

def closeSession (d : Dispatcher) (sessionId : String) : Dispatcher :=
  match d.sessionMap.lookup sessionId with
  | some sid => d.closeSessionHelper sessionId sid
  | none => d

def expiredAt (d : Dispatcher) (now : Time) (sid : SessionId) : Bool :=
  match d.sessions[sid]? with
  | some session => session.expired now
  | none => false

def expireEntry (now : Time) (d : Dispatcher) (entry : Sigma fun _ : String => SessionId) :
    Dispatcher :=
  if d.expiredAt now entry.2 then d.closeSessionHelper entry.1 entry.2 else d

def expireSessions (d : Dispatcher) (now : Time) : Dispatcher :=
  d.sessionMap.entries.foldl (expireEntry now) d

end Dispatcher

/-- Where a `ServeHTTP` call stands. The instants kept by `insert` and `relay` are those
of the call's `Touch`. -/
inductive Pc where
  | ready
  | lookup (request : Request) (cookie : String)
  | touch (sid : SessionId)
  | dial (request : Request) (cookie : String)
  | checkRegion (request : Request) (cookie : String) (data : ClientSessionData) (conn : ConnId)
  | insert (cookie : String) (meekProtocolVersion : ℤ) (sid : SessionId) (touched : Time)
  | relay (sessionKey : String) (sid : SessionId) (touched : Time)
  | close (sessionKey : String)
  | done
  deriving DecidableEq

/-- A step of a call, with what the outside world answers in it. -/
inductive CallAct where
  | start (request : Request)
  | lookup
  | touch (now : Time)
  /-- Decoding, decrypting and parsing the cookie and dialing the server: `none` when one
  of them fails. -/
  | dial (outcome : Option ClientSessionData)
  | checkRegion (geo : Option GeoIpData) (now : Time)
  | insert (random : RandomSource)
  | relay (io : RelayIO)
  | close

/-- The checks of `ServeHTTP` and `GetSession` before the map lookup. -/
def startCall (request : Request) : Pc :=
  match request.cookie with
  | none => .done
  | some cookie =>
    if request.method ≠ "POST" then .done
    else if cookie = "" then .done
    else .lookup request cookie

/-- One step of a `ServeHTTP` call; `none` when the call cannot take it. -/
def callStep (cfg : Config) (d : Dispatcher) : Pc → CallAct → Option (Dispatcher × Pc)
  | .ready, .start request => some (d, startCall request)
  | .lookup request cookie, .lookup =>
    if d.locked then none
    else match d.sessionMap.lookup cookie with
      | some sid => some (d, .touch sid)
      | none => some (d, .dial request cookie)
  -- GetSession returns here with its named result sessKey still empty
  | .touch sid, .touch now => some (d.touch sid now, .relay "" sid now)
  | .dial _ _, .dial none => some (d, .done)
  | .dial request cookie, .dial (some data) =>
    some ({ d with dialed := d.dialed + 1 }, .checkRegion request cookie data d.dialed)
  | .checkRegion request cookie data conn, .checkRegion geo now =>
    if deniedRegion cfg geo then some (d, .done)
    else
      let session := newSession cfg data conn geo request.userAgent now
      some ({ d with sessions := d.sessions ++ [session] },
        .insert cookie data.meekProtocolVersion d.sessions.length now)
  | .insert cookie version sid touched, .insert random =>
    if d.locked then none
    else match newSessionKey version cookie random with
      -- the return without Unlock
      | none => some ({ d with locked := true }, .done)
      | some key =>
        some ({ d with sessionMap := d.sessionMap.insert key sid }, .relay key sid touched)
  | .relay key sid _, .relay io =>
    match d.sessions[sid]? with
    | none => none
    | some session =>
      let r := relayPayload cfg key session io
      if r.returned then
        some ({ d with sessions := d.sessions.set sid r.session },
          if r.failed then .close key else .done)
      else none
  | .close key, .close => if d.locked then none else some (d.closeSession key, .done)
  | _, _ => none

structure State where
  dispatcher : Dispatcher
  calls : CallId → Pc

inductive Act where
  | call (i : CallId) (act : CallAct)
  | sweep (now : Time)

def State.init : State := ⟨.init, fun _ => .ready⟩

def step (cfg : Config) (s : State) : Act → Option State
  | .call i act =>
    (callStep cfg s.dispatcher (s.calls i) act).map fun (d, pc) =>
      ⟨d, Function.update s.calls i pc⟩
  | .sweep now =>
    if s.dispatcher.locked then none
    else some { s with dispatcher := s.dispatcher.expireSessions now }

def State.Quiescent (s : State) : Prop := ∀ i, s.calls i = .ready ∨ s.calls i = .done

/-! ### What a step can do -/

/-- The steps of a call, one constructor a path. -/
inductive CallStep (cfg : Config) (d : Dispatcher) :
    Pc → CallAct → Dispatcher → Pc → Prop where
  | start (request) : CallStep cfg d .ready (.start request) d (startCall request)
  | found {request cookie sid} (hl : d.locked = false)
      (hm : d.sessionMap.lookup cookie = some sid) :
      CallStep cfg d (.lookup request cookie) .lookup d (.touch sid)
  | missed {request cookie} (hl : d.locked = false)
      (hm : d.sessionMap.lookup cookie = none) :
      CallStep cfg d (.lookup request cookie) .lookup d (.dial request cookie)
  | touch (sid now) :
      CallStep cfg d (.touch sid) (.touch now) (d.touch sid now) (.relay "" sid now)
  | dialFailed (request cookie) :
      CallStep cfg d (.dial request cookie) (.dial none) d .done
  | dialed (request cookie data) :
      CallStep cfg d (.dial request cookie) (.dial (some data))
        { d with dialed := d.dialed + 1 } (.checkRegion request cookie data d.dialed)
  | denied {request cookie data conn geo now} (hr : deniedRegion cfg geo = true) :
      CallStep cfg d (.checkRegion request cookie data conn) (.checkRegion geo now) d .done
  | admitted {request cookie data conn geo now} (hr : deniedRegion cfg geo = false) :
      CallStep cfg d (.checkRegion request cookie data conn) (.checkRegion geo now)
        { d with sessions := d.sessions ++ [newSession cfg data conn geo request.userAgent now] }
        (.insert cookie data.meekProtocolVersion d.sessions.length now)
  | keyFailed {cookie version sid touched random} (hl : d.locked = false)
      (hk : newSessionKey version cookie random = none) :
      CallStep cfg d (.insert cookie version sid touched) (.insert random)
        { d with locked := true } .done
  | inserted {cookie version sid touched random key} (hl : d.locked = false)
      (hk : newSessionKey version cookie random = some key) :
      CallStep cfg d (.insert cookie version sid touched) (.insert random)
        { d with sessionMap := d.sessionMap.insert key sid } (.relay key sid touched)
  | relayed {key sid touched io session} (hs : d.sessions[sid]? = some session)
      (hr : (relayPayload cfg key session io).returned = true) :
      CallStep cfg d (.relay key sid touched) (.relay io)
        { d with sessions := d.sessions.set sid (relayPayload cfg key session io).session }
        (if (relayPayload cfg key session io).failed then .close key else .done)
  | closed {key} (hl : d.locked = false) :
      CallStep cfg d (.close key) .close (d.closeSession key) .done

theorem CallStep.of_callStep {cfg : Config} {d d' : Dispatcher} {pc pc' : Pc} {act : CallAct}
    (h : callStep cfg d pc act = some (d', pc')) : CallStep cfg d pc act d' pc' := by
  unfold callStep at h
  split at h
  · cases h; exact .start _
  · split at h
    · simp at h
    · next hl =>
      split at h
      · next hm => cases h; exact .found (by simpa using hl) hm
      · next hm => cases h; exact .missed (by simpa using hl) hm
  · cases h; exact .touch _ _
  · cases h; exact .dialFailed _ _
  · cases h; exact .dialed _ _ _
  · split at h
    · next hr => cases h; exact .denied hr
    · next hr => cases h; exact .admitted (by simpa using hr)
  · split at h
    · simp at h
    · next hl =>
      split at h
      · next hk => cases h; exact .keyFailed (by simpa using hl) hk
      · next hk => cases h; exact .inserted (by simpa using hl) hk
  · split at h
    · simp at h
    · next hs =>
      dsimp only at h
      split at h
      · next hr => cases h; exact .relayed hs hr
      · simp at h
  · split at h
    · simp at h
    · next hl => cases h; exact .closed (by simpa using hl)
  · simp at h

/-- A step of the server is a step of one call or a sweep with the lock free. -/
theorem step_cases {cfg : Config} {s s' : State} {a : Act} (h : step cfg s a = some s') :
    (∃ i act d pc, a = .call i act ∧ CallStep cfg s.dispatcher (s.calls i) act d pc ∧
      s' = ⟨d,Function.update s.calls i pc⟩) ∨ ∃ now, a = .sweep now ∧ s.dispatcher.locked = false ∧
      s' = ⟨s.dispatcher.expireSessions now,s.calls⟩ := by
  cases a with
  | call i act =>
    obtain ⟨⟨d,pc⟩,hc,rfl⟩ := Option.map_eq_some_iff.mp h
    exact .inl ⟨i,act,d,pc,rfl,.of_callStep hc,rfl⟩
  | sweep now =>
    simp only [step] at h
    split at h
    · simp at h
    · next hl => exact .inr ⟨now,rfl,by simpa using hl,(Option.some.inj h).symm⟩

/-! ### The sweep -/

namespace Dispatcher

def connOf (d : Dispatcher) (sid : SessionId) : Option ConnId := d.sessions[sid]?.map (·.psiConn)

theorem closeSessionHelper_closed (d : Dispatcher) (key : String) (sid : SessionId) (c : ConnId) :
    c ∈ (d.closeSessionHelper key sid).closed ↔ c ∈ d.closed ∨ d.connOf sid = some c := by
  simp only [closeSessionHelper,connOf]
  cases d.sessions[sid]? with
  | none => simp
  | some session => simp [or_comm,eq_comm]

theorem closeSessionHelper_lookup (d : Dispatcher) (key key' : String) (sid sid' : SessionId) :
    (d.closeSessionHelper key sid).sessionMap.lookup key' = some sid' ↔
      d.sessionMap.lookup key' = some sid' ∧ key' ≠ key := by
  simp only [closeSessionHelper]
  by_cases hk : key' = key
  · subst hk; simp
  · simp [AList.lookup_erase_ne hk,hk]

@[simp] theorem closeSessionHelper_expiredAt (d : Dispatcher) (key : String) (sid : SessionId) :
    (d.closeSessionHelper key sid).expiredAt = d.expiredAt := rfl

@[simp] theorem closeSessionHelper_connOf (d : Dispatcher) (key : String) (sid : SessionId) :
    (d.closeSessionHelper key sid).connOf = d.connOf := rfl

theorem foldl_expireEntry (now : Time) (entries : List (Sigma fun _ : String => SessionId))
    (d : Dispatcher) : (entries.foldl (expireEntry now) d).sessions = d.sessions ∧
    (entries.foldl (expireEntry now) d).locked = d.locked ∧
    (entries.foldl (expireEntry now) d).dialed = d.dialed ∧
    (∀ key sid, (entries.foldl (expireEntry now) d).sessionMap.lookup key = some sid ↔
      d.sessionMap.lookup key = some sid ∧ ∀ e ∈ entries, e.1 = key → d.expiredAt now e.2 = false) ∧
    ∀ c, c ∈ (entries.foldl (expireEntry now) d).closed ↔
      c ∈ d.closed ∨ ∃ e ∈ entries, d.expiredAt now e.2 = true ∧ d.connOf e.2 = some c := by
  induction entries generalizing d with
  | nil => simp
  | cons e entries ih =>
    obtain ⟨hs,hl,hd,hm,hc⟩ := ih (expireEntry now d e)
    rw [List.foldl_cons]
    by_cases he : d.expiredAt now e.2 = true
    · have hen : expireEntry now d e = d.closeSessionHelper e.1 e.2 := if_pos he
      rw [hen] at hs hl hd hm hc ⊢
      refine ⟨hs,hl,hd,fun key sid => ?_,fun c => ?_⟩
      · rw [hm,closeSessionHelper_lookup,closeSessionHelper_expiredAt,List.forall_mem_cons,
          he,and_assoc,ne_comm]
        simp
      · rw [hc,closeSessionHelper_closed]
        simp [he,or_assoc]
    · rw [show expireEntry now d e = d from if_neg he] at hs hl hd hm hc ⊢
      have he' : d.expiredAt now e.2 = false := by simpa using he
      refine ⟨hs,hl,hd,fun key sid => ?_,fun c => ?_⟩
      · rw [hm,List.forall_mem_cons]
        simp [he']
      · rw [hc]
        simp [he']

/-- A sweep keeps exactly the entries that have not expired. -/
theorem expireSessions_lookup (d : Dispatcher) (now : Time) (key : String) (sid : SessionId) :
    (d.expireSessions now).sessionMap.lookup key = some sid ↔
      d.sessionMap.lookup key = some sid ∧ d.expiredAt now sid = false := by
  rw [expireSessions,(foldl_expireEntry now _ d).2.2.2.1]
  refine and_congr_right fun hm => ⟨fun h => ?_,fun h e he hk => ?_⟩
  · exact h ⟨key,sid⟩ (AList.mem_lookup_iff.mp hm) rfl
  · have hm' := AList.mem_lookup_iff.mpr (show ⟨key,e.2⟩ ∈ d.sessionMap.entries by
      rw [← hk]; exact he)
    rw [Option.some.inj (hm.symm.trans hm')] at h
    exact h

/-- A sweep closes exactly the connections of the entries that have expired. -/
theorem expireSessions_closed (d : Dispatcher) (now : Time) (c : ConnId) :
    c ∈ (d.expireSessions now).closed ↔ c ∈ d.closed ∨
      ∃ key sid, d.sessionMap.lookup key = some sid ∧ d.expiredAt now sid = true ∧
        d.connOf sid = some c := by
  rw [expireSessions,(foldl_expireEntry now _ d).2.2.2.2]
  refine or_congr_right ⟨?_,?_⟩
  · rintro ⟨e,he,hx,hc⟩
    exact ⟨e.1,e.2,AList.mem_lookup_iff.mpr he,hx,hc⟩
  · rintro ⟨key,sid,hm,hx,hc⟩
    exact ⟨⟨key,sid⟩,AList.mem_lookup_iff.mp hm,hx,hc⟩

@[simp] theorem expireSessions_sessions (d : Dispatcher) (now : Time) :
    (d.expireSessions now).sessions = d.sessions := (foldl_expireEntry now _ d).1

@[simp] theorem expireSessions_locked (d : Dispatcher) (now : Time) :
    (d.expireSessions now).locked = d.locked := (foldl_expireEntry now _ d).2.1

@[simp] theorem expireSessions_dialed (d : Dispatcher) (now : Time) :
    (d.expireSessions now).dialed = d.dialed := (foldl_expireEntry now _ d).2.2.1

/-! ### `CloseSession` -/

theorem closeSession_lookup (d : Dispatcher) (key key' : String) (sid : SessionId) :
    (d.closeSession key).sessionMap.lookup key' = some sid ↔
      d.sessionMap.lookup key' = some sid ∧ key' ≠ key := by
  unfold closeSession
  split
  · exact closeSessionHelper_lookup d key key' _ sid
  · next hm =>
    refine (and_iff_left_of_imp ?_).symm
    rintro h rfl
    rw [hm] at h
    cases h

theorem closeSession_closed (d : Dispatcher) (key : String) (c : ConnId) :
    c ∈ (d.closeSession key).closed ↔
      c ∈ d.closed ∨ ∃ sid, d.sessionMap.lookup key = some sid ∧ d.connOf sid = some c := by
  unfold closeSession
  split
  · next sid hm => rw [closeSessionHelper_closed,hm]; simp
  · next hm => rw [hm]; simp

@[simp] theorem closeSession_sessions (d : Dispatcher) (key : String) :
    (d.closeSession key).sessions = d.sessions := by
  unfold closeSession; split <;> rfl

@[simp] theorem closeSession_locked (d : Dispatcher) (key : String) :
    (d.closeSession key).locked = d.locked := by
  unfold closeSession; split <;> rfl

@[simp] theorem closeSession_dialed (d : Dispatcher) (key : String) :
    (d.closeSession key).dialed = d.dialed := by
  unfold closeSession; split <;> rfl

end Dispatcher

end Psiphon.Meek
