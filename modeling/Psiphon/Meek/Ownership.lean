import Psiphon.Lib.Ledger
import Psiphon.Meek.Dispatcher

/-!
# Who owns the meek server's connections

A dialed connection is held by the call that dialed it until its session is in the map, and then by
the entry of the map.
-/

namespace Psiphon.Meek

open Function Option Dispatcher Ledger Runs

inductive Holder where
  | entry (key : String)
  | call (i : CallId)
  deriving DecidableEq

/-- The call is the one to put the connection into the map or to close it. -/
def Pc.holds (d : Dispatcher) : Pc → ConnId → Prop
  | .checkRegion _ _ _ conn, c => conn = c
  | .insert _ _ sid _, c => d.connOf sid = some c
  | _, _ => False

def Pc.session? : Pc → Option SessionId
  | .touch sid => some sid
  | .insert _ _ sid _ => some sid
  | .relay _ sid _ => some sid
  | _ => none

def Pc.cookie? : Pc → Option String
  | .lookup _ cookie => some cookie
  | .dial _ cookie => some cookie
  | .checkRegion _ cookie _ _ => some cookie
  | .insert cookie _ _ _ => some cookie
  | _ => none

def State.held (s : State) : Holder → ConnId → Prop
  | .entry key, c =>
    ∃ sid, s.dispatcher.sessionMap.lookup key = some sid ∧ s.dispatcher.connOf sid = some c
  | .call i, c => (s.calls i).holds s.dispatcher c

def State.ledger (s : State) : Ledger Holder ConnId :=
  ⟨{c | c < s.dispatcher.dialed}, s.held, {c | c ∈ s.dispatcher.closed}⟩

/-- The move of the ledger that a step of call `i` makes. -/
def callMove (cfg : Config) (s : State) (i : CallId) : CallAct → Move Holder ConnId
  | .dial (some _) => .acquire (.call i) s.dispatcher.dialed
  | .checkRegion geo _ => if deniedRegion cfg geo then .forget (.call i) else .skip
  | .insert random =>
    match s.calls i with
    | .insert cookie version _ _ =>
      match newSessionKey version cookie random with
      | none => .forget (.call i)
      | some key => .transfer (.call i) (.entry key)
    | _ => .skip
  | .close =>
    match s.calls i with
    | .close key => .release {.entry key}
    | _ => .skip
  | _ => .skip

def State.expiredEntries (s : State) (now : Time) : Set Holder :=
  {h | ∃ key sid, h = .entry key ∧ s.dispatcher.sessionMap.lookup key = some sid ∧
    s.dispatcher.expiredAt now sid = true}

def moveOf (cfg : Config) (s : State) : Act → Move Holder ConnId
  | .call i act => callMove cfg s i act
  | .sweep now => .release (s.expiredEntries now)

/-- What holds in every reachable state: the ledger is exclusive, pointers point into the
heap, no two sessions share a connection, and the empty string is not a key. -/
structure WellFormed (s : State) : Prop where
  exclusive : s.ledger.Exclusive
  entry_lt : ∀ {key sid}, s.dispatcher.sessionMap.lookup key = some sid →
    sid < s.dispatcher.sessions.length
  pc_lt : ∀ {i sid}, (s.calls i).session? = some sid → sid < s.dispatcher.sessions.length
  conn_inj : ∀ {a b c}, s.dispatcher.connOf a = some c → s.dispatcher.connOf b = some c → a = b
  conn_lt : ∀ {a c}, s.dispatcher.connOf a = some c → c < s.dispatcher.dialed
  region_fresh : ∀ {i r k d c a}, s.calls i = .checkRegion r k d c → s.dispatcher.connOf a ≠ some c
  key_ne : s.dispatcher.sessionMap.lookup "" = none
  cookie_ne : ∀ {i}, (s.calls i).cookie? ≠ some ""

variable {s : State} {i : CallId} {data : ClientSessionData}

theorem WellFormed.region_lt (hw : WellFormed s) {r : Request} {k : String} {c : ConnId}
    (hp : s.calls i = .checkRegion r k data c) : c < s.dispatcher.dialed :=
  hw.exclusive.acquired (h := .call i) (by simp [State.ledger,State.held,hp,Pc.holds])

/-! ### Every step is a move of the ledger -/

variable {d : Dispatcher} {pc : Pc}

/-- The ledger after a step of call `i`, entry by entry and call by call. -/
theorem ledger_update {calls : CallId → Pc} {L : Ledger Holder ConnId}
    (ha : {c | c < d.dialed} = L.acquired) (hr : {c | c ∈ d.closed} = L.released)
    (he : ∀ key c, (∃ sid, d.sessionMap.lookup key = some sid ∧ d.connOf sid = some c) ↔
      L.held (.entry key) c) (hs : ∀ c, pc.holds d c ↔ L.held (.call i) c)
    (ho : ∀ j ≠ i, ∀ c, (calls j).holds d c ↔ L.held (.call j) c) :
    State.ledger ⟨d,update calls i pc⟩ = L := by
  refine Ledger.ext ha ?_ hr
  funext h c
  refine propext ?_
  cases h with
  | entry key => exact he key c
  | call j =>
    change (update calls i pc j).holds d c ↔ _
    by_cases hj : j = i
    · subst hj
      rw [update_self]
      exact hs c
    · rw [update_of_ne hj]
      exact ho j hj c

theorem holds_congr {d d' : Dispatcher}
    (hc : ∀ sid, pc.session? = some sid → d'.connOf sid = d.connOf sid) (c : ConnId) :
    pc.holds d' c ↔ pc.holds d c := by
  cases pc with
  | insert cookie version sid touched => simp only [Pc.holds,hc sid rfl]
  | _ => exact .rfl

/-- A step of call `i` that leaves the map, the connections and what `i` holds alone is
no move. -/
theorem ledger_skip (hw : WellFormed s) (hm : d.sessionMap = s.dispatcher.sessionMap)
    (hd : d.dialed = s.dispatcher.dialed) (hcl : d.closed = s.dispatcher.closed)
    (hc : ∀ sid < s.dispatcher.sessions.length, d.connOf sid = s.dispatcher.connOf sid)
    (hh : ∀ c, pc.holds d c ↔ (s.calls i).holds s.dispatcher c) :
    State.ledger ⟨d,update s.calls i pc⟩ = s.ledger := by
  refine ledger_update (by simp [State.ledger,hd]) (by simp [State.ledger,hcl])
    (fun key c => ?_) hh fun j _ c => holds_congr (fun sid hs => hc sid (hw.pc_lt hs)) c
  rw [hm]
  exact exists_congr fun sid => and_congr_right fun hk => by rw [hc sid (hw.entry_lt hk)]

/-- A step of call `i` that only drops what `i` holds forgets it. -/
theorem ledger_forget (hm : d.sessionMap = s.dispatcher.sessionMap)
    (hd : d.dialed = s.dispatcher.dialed) (hcl : d.closed = s.dispatcher.closed)
    (hc : d.connOf = s.dispatcher.connOf) (hh : ∀ c, ¬ pc.holds d c) :
    State.ledger ⟨d,update s.calls i pc⟩ = s.ledger.move (.forget (.call i)) := by
  refine ledger_update (by simp [State.ledger,move,hd])
    (by simp [State.ledger,move,hcl]) (fun key c => ?_) (fun c => ?_) fun j hj c => ?_
  · simp [State.ledger,move,State.held,hm,hc]
  · simp [State.ledger,move,hh c]
  · rw [holds_congr (fun sid _ => congrFun hc sid) c]
    simp [State.ledger,move,State.held,hj]

theorem ledger_dialed {r : Request} {k : String} (hpc : s.calls i = .dial r k) :
    State.ledger ⟨{ s.dispatcher with dialed := s.dispatcher.dialed + 1 },
        update s.calls i (.checkRegion r k data s.dispatcher.dialed)⟩ =
      s.ledger.move (.acquire (.call i) s.dispatcher.dialed) := by
  refine ledger_update ?_ rfl (fun key c => ?_) (fun c => ?_) fun j hj c => ?_
  · ext c
    exact Nat.lt_succ_iff_lt_or_eq.trans or_comm
  · simp [State.ledger,move,State.held,connOf]
  · simp [State.ledger,move,State.held,hpc,Pc.holds,eq_comm]
  · refine (holds_congr (d := s.dispatcher) (fun sid _ => rfl) c).trans ?_
    simp [State.ledger,move,State.held,hj]

variable {sid : SessionId}

theorem ledger_inserted {cookie key : String} {v : ℤ} {touched : Time}
    (hpc : s.calls i = .insert cookie v sid touched) :
    State.ledger ⟨{ s.dispatcher with sessionMap := s.dispatcher.sessionMap.insert key sid },
        update s.calls i (.relay key sid touched)⟩ =
      s.ledger.move (.transfer (.call i) (.entry key)) := by
  refine ledger_update rfl rfl (fun key' c => ?_) (fun c => ?_) fun j hj c => ?_
  · by_cases hk : key' = key
    · subst hk
      simp [State.ledger,move,State.held,hpc,Pc.holds,connOf]
    · simp [State.ledger,move,State.held,AList.lookup_insert_ne hk,hk,connOf]
  · simp [State.ledger,move,Pc.holds]
  · refine (holds_congr (d := s.dispatcher) (fun sid _ => rfl) c).trans ?_
    simp [State.ledger,move,State.held,hj]

/-- A step that removes entries and closes their connections releases what they hold. -/
theorem ledger_release {calls : CallId → Pc} {hs : Set Holder} (hd : d.dialed = s.dispatcher.dialed)
    (hc : d.connOf = s.dispatcher.connOf) (hes : ∀ i, .call i ∉ hs)
    (hm : ∀ key sid, d.sessionMap.lookup key = some sid ↔
      s.dispatcher.sessionMap.lookup key = some sid ∧ .entry key ∉ hs)
    (hcl : ∀ c, c ∈ d.closed ↔ c ∈ s.dispatcher.closed ∨
      ∃ key, .entry key ∈ hs ∧ s.held (.entry key) c)
    (hca : ∀ i c, (calls i).holds d c ↔ (s.calls i).holds s.dispatcher c) :
    State.ledger ⟨d,calls⟩ = s.ledger.move (.release hs) := by
  refine Ledger.ext (by simp [State.ledger,Ledger.move,hd]) ?_ ?_
  · funext h c
    refine propext ?_
    cases h with
    | entry key =>
      change (∃ sid, d.sessionMap.lookup key = some sid ∧ d.connOf sid = some c) ↔
        .entry key ∉ hs ∧ ∃ sid, _ ∧ _
      simp only [hm,hc,← exists_and_left]
      exact exists_congr fun sid => by tauto
    | call i => exact (hca i c).trans (iff_and_self.mpr fun _ => hes i)
  · ext c
    refine (hcl c).trans (or_congr_right ⟨?_,?_⟩)
    · rintro ⟨key,hk,hh⟩
      exact ⟨.entry key,hk,hh⟩
    · rintro ⟨h,hk,hh⟩
      cases h with
      | entry key => exact ⟨key,hk,hh⟩
      | call i => exact absurd hk (hes i)

theorem not_holds_ready (d : Dispatcher) (c : ConnId) : ¬ Pc.ready.holds d c := not_false

/-- A call either ends at the first checks or looks up a nonempty cookie. -/
theorem startCall_cases (r : Request) : startCall r = .done ∨
      ∃ cookie, cookie ≠ "" ∧ startCall r = .lookup r cookie := by
  unfold startCall
  split
  · exact .inl rfl
  · next cookie _ =>
    split
    · exact .inl rfl
    · split
      · exact .inl rfl
      · next hc => exact .inr ⟨cookie,hc,rfl⟩

theorem startCall_holds (d : Dispatcher) (r : Request) (c : ConnId) :
    ¬ (startCall r).holds d c := by
  obtain h | ⟨cookie,_,h⟩ := startCall_cases r <;> rw [h] <;> exact not_false

theorem connOf_touch (d : Dispatcher) (sid : SessionId) (now : Time) :
    (d.touch sid now).connOf = d.connOf := by
  funext a
  simp only [connOf,touch,List.getElem?_modify]
  by_cases ha : sid = a
  · cases d.sessions[a]? <;> simp [ha,Session.touch]
  · simp [ha]

theorem connOf_set {session session' : Session} (hs : d.sessions[sid]? = some session)
    (hc : session'.psiConn = session.psiConn) :
    connOf { d with sessions := d.sessions.set sid session' } = d.connOf := by
  funext a
  simp only [connOf,List.getElem?_set]
  by_cases ha : sid = a
  · subst ha
    have hlt : sid < d.sessions.length := (List.getElem?_eq_some_iff.mp hs).1
    rw [if_pos rfl,if_pos hlt,hs,map_some,map_some,hc]
  · simp [ha]

theorem connOf_append (d : Dispatcher) (session : Session) (a : SessionId) :
    connOf { d with sessions := d.sessions ++ [session] } a =
      if a = d.sessions.length then some session.psiConn else d.connOf a := by
  simp only [connOf]
  rcases Nat.lt_trichotomy a d.sessions.length with ha | rfl | ha
  · rw [if_neg (Nat.ne_of_lt ha),List.getElem?_append_left ha]
  · simp
  · rw [if_neg (Nat.ne_of_gt ha),List.getElem?_eq_none (Nat.le_of_lt ha),
      List.getElem?_eq_none (by simpa using Nat.succ_le_of_lt ha)]

variable {cfg : Config} {act : CallAct}

/-- Every step of a call is a move of the ledger. -/
theorem ledger_callStep (hw : WellFormed s) (h : CallStep cfg s.dispatcher (s.calls i) act d pc) :
    State.ledger ⟨d,update s.calls i pc⟩ = s.ledger.move (callMove cfg s i act) := by
  generalize hpc : s.calls i = p at h
  cases h with
  | start r =>
    exact ledger_skip hw rfl rfl rfl (fun _ _ => rfl) fun c => by
      simp only [startCall_holds,hpc,not_holds_ready]
  | found hl hm =>
    exact ledger_skip hw rfl rfl rfl (fun _ _ => rfl) fun c => by simp [hpc,Pc.holds]
  | missed hl hm =>
    exact ledger_skip hw rfl rfl rfl (fun _ _ => rfl) fun c => by simp [hpc,Pc.holds]
  | touch sid now =>
    exact ledger_skip hw rfl rfl rfl (fun _ _ => by rw [connOf_touch]) fun c => by
      simp [hpc,Pc.holds]
  | dialFailed r cookie =>
    exact ledger_skip hw rfl rfl rfl (fun _ _ => rfl) fun c => by simp [hpc,Pc.holds]
  | dialed r cookie data => exact ledger_dialed hpc
  | denied hr =>
    rw [callMove,if_pos hr]
    exact ledger_forget rfl rfl rfl rfl fun c => not_false
  | @admitted r cookie data conn geo now hr =>
    rw [callMove,if_neg (by simp [hr])]
    refine ledger_skip hw rfl rfl rfl (fun a ha => ?_) fun c => ?_
    · rw [connOf_append,if_neg (Nat.ne_of_lt ha)]
    · simp [hpc,Pc.holds,connOf_append,newSession]
  | keyFailed hl hk =>
    simp only [callMove,hpc,hk]
    exact ledger_forget rfl rfl rfl rfl fun c => not_false
  | inserted hl hk =>
    simp only [callMove,hpc,hk]
    exact ledger_inserted hpc
  | relayed hs hr =>
    refine ledger_skip hw rfl rfl rfl (fun _ _ => ?_) fun c => ?_
    · rw [connOf_set hs (relayPayload_frame _ _ _ _).1]
    · split <;> simp [hpc,Pc.holds]
  | @closed key hl =>
    simp only [callMove,hpc]
    refine ledger_release (s.dispatcher.closeSession_dialed key)
      (by funext a; simp [connOf]) (by simp) (fun key' sid => ?_) (fun c => ?_)
      fun j c => ?_
    · rw [closeSession_lookup]
      simp
    · rw [closeSession_closed]
      simp [State.held]
    · by_cases hj : j = i
      · subst hj; simp [hpc,Pc.holds]
      · rw [update_of_ne hj]
        exact holds_congr (fun sid _ => by simp [connOf]) c

theorem ledger_sweep (s : State) (now : Time) :
    State.ledger ⟨s.dispatcher.expireSessions now,s.calls⟩ =
      s.ledger.move (.release (s.expiredEntries now)) := by
  refine ledger_release (s.dispatcher.expireSessions_dialed now)
    (by funext a; simp [connOf]) (by simp [State.expiredEntries])
    (fun key sid => ?_) (fun c => ?_)
    fun j c => holds_congr (fun sid _ => by simp [connOf]) c
  · rw [expireSessions_lookup]
    refine and_congr_right fun hm => ?_
    simp [State.expiredEntries,hm]
  · rw [expireSessions_closed]
    refine or_congr_right (exists_congr fun key => ⟨?_,?_⟩)
    · rintro ⟨sid,hm,hx,hc⟩
      exact ⟨⟨key,sid,rfl,hm,hx⟩,sid,hm,hc⟩
    · rintro ⟨⟨key',sid',hk,hm',hx⟩,sid,hm,hc⟩
      cases hk
      rw [Option.some.inj (hm'.symm.trans hm)] at hx
      exact ⟨sid,hm,hx,hc⟩

/-- The server refines the ledger: every step is the move `moveOf` names. -/
theorem ledger_step {s s' : State} (hw : WellFormed s) {a : Act} (h : step cfg s a = some s') :
    s'.ledger = s.ledger.move (moveOf cfg s a) := by
  obtain ⟨i,act,d,pc,rfl,hc,rfl⟩ | ⟨now,rfl,_,rfl⟩ := step_cases h
  · exact ledger_callStep hw hc
  · exact ledger_sweep s now

theorem legal_moveOf (cfg : Config) (s : State) (a : Act) : s.ledger.Legal (moveOf cfg s a) := by
  cases a with
  | sweep now => exact trivial
  | call i act =>
    change s.ledger.Legal (callMove cfg s i act)
    unfold callMove
    split
    · exact Nat.lt_irrefl _
    · split <;> exact trivial
    · split
      · split
        · exact trivial
        · exact Holder.noConfusion
      · exact trivial
    · split <;> exact trivial
    · exact trivial

/-! ### Reachable states are well formed -/

section CallStep

variable {cfg : Config} {d d' : Dispatcher} {pc pc' : Pc} {act : CallAct}

theorem CallStep.length_le (h : CallStep cfg d pc act d' pc') :
    d.sessions.length ≤ d'.sessions.length := by
  cases h <;> simp [Dispatcher.touch]

theorem CallStep.dialed_le (h : CallStep cfg d pc act d' pc') : d.dialed ≤ d'.dialed := by
  cases h <;> simp [Dispatcher.touch]

theorem CallStep.lookup (h : CallStep cfg d pc act d' pc') {key : String}
    (hk : d'.sessionMap.lookup key = some sid) :
    d.sessionMap.lookup key = some sid ∨ ∃ cookie v touched r, pc = .insert cookie v sid touched ∧
        newSessionKey v cookie r = some key := by
  cases h with
  | @inserted cookie v sid' touched r key' hl hn =>
    by_cases hkey : key = key'
    · subst hkey
      rw [AList.lookup_insert] at hk
      cases hk
      exact .inr ⟨cookie,v,touched,r,rfl,hn⟩
    · exact .inl (by rwa [AList.lookup_insert_ne hkey] at hk)
  | closed hl => exact .inl ((d.closeSession_lookup _ key sid).mp hk).1
  | _ => exact .inl hk

theorem CallStep.connOf (h : CallStep cfg d pc act d' pc') {a : SessionId} {c : ConnId}
    (hc : d'.connOf a = some c) : d.connOf a = some c ∨
      a = d.sessions.length ∧ ∃ r cookie data, pc = .checkRegion r cookie data c := by
  cases h with
  | touch sid now => exact .inl (by rwa [connOf_touch] at hc)
  | @admitted r cookie data conn geo now hr =>
    rw [connOf_append] at hc
    split at hc
    · next ha => cases hc; exact .inr ⟨ha,r,cookie,data,rfl⟩
    · exact .inl hc
  | relayed hs hr => exact .inl (by rwa [connOf_set hs (relayPayload_frame _ _ _ _).1] at hc)
  | @closed key hl => exact .inl (by simpa [connOf] using hc)
  | _ => exact .inl hc

theorem CallStep.session (h : CallStep cfg d pc act d' pc') (hs : pc'.session? = some sid) :
    pc.session? = some sid ∨ (∃ key, d.sessionMap.lookup key = some sid) ∨
      sid < d'.sessions.length := by
  cases h with
  | start r =>
    obtain h | ⟨cookie,_,h⟩ := startCall_cases r <;> rw [h] at hs <;> cases hs
  | @found r cookie sid' hl hm => cases hs; exact .inr (.inl ⟨cookie,hm⟩)
  | admitted hr => cases hs; exact .inr (.inr (by simp))
  | relayed hr hf => split at hs <;> cases hs
  | touch sid' now => exact .inl hs
  | inserted hl hk => exact .inl hs
  | missed hl hm => cases hs
  | dialFailed r cookie => cases hs
  | dialed r cookie data => cases hs
  | denied hr => cases hs
  | keyFailed hl hk => cases hs
  | closed hl => cases hs

theorem CallStep.cookie (h : CallStep cfg d pc act d' pc') (hp : pc.cookie? ≠ some "") :
    pc'.cookie? ≠ some "" := by
  cases h with
  | start r =>
    obtain h | ⟨cookie,hc,h⟩ := startCall_cases r
    · simp [h,Pc.cookie?]
    · simpa [h,Pc.cookie?] using hc
  | relayed hs hr => split <;> simp [Pc.cookie?]
  | missed hl hm => exact hp
  | dialed r cookie data => exact hp
  | admitted hr => exact hp
  | _ => simp [Pc.cookie?]

theorem CallStep.checkRegion (h : CallStep cfg d pc act d' pc') {r : Request}
    {cookie : String} {c : ConnId} (hp : pc' = .checkRegion r cookie data c) : c = d.dialed := by
  cases h with
  | start r =>
    obtain h | ⟨cookie,_,h⟩ := startCall_cases r <;> rw [h] at hp <;> cases hp
  | dialed r cookie data => cases hp; rfl
  | relayed hs hr => split at hp <;> cases hp
  | _ => cases hp

end CallStep

/-- A key that `GetSession` stores under is not empty. -/
theorem newSessionKey_ne_empty {v : ℤ} {cookie key : String} {r : RandomSource}
    (hc : cookie ≠ "") (hk : newSessionKey v cookie r = some key) : key ≠ "" := by
  unfold newSessionKey at hk
  split at hk
  · rw [generateSessionKey,if_neg (by decide)] at hk
    obtain ⟨n,_,rfl⟩ := map_eq_some_iff.mp hk
    intro he
    have hl := congrArg String.length he
    simp [minSessionKeyLength] at hl
  · cases hk; exact hc

theorem not_held_init (h : Holder) (c : ConnId) : ¬ State.init.ledger.held h c := by
  cases h with
  | entry key => simp [State.ledger,State.held,State.init,init]
  | call i => simp [State.ledger,State.held,State.init,Pc.holds]

theorem WellFormed.init : WellFormed .init where
  exclusive :=
    { unique := fun hh => absurd hh (not_held_init _ _)
      acquired := fun hh => absurd hh (not_held_init _ _)
      unreleased := fun hh => absurd hh (not_held_init _ _)
      released := by simp [State.ledger,State.init,Dispatcher.init] }
  entry_lt := by simp [State.init,Dispatcher.init]
  pc_lt := by simp [State.init,Pc.session?]
  conn_inj := by simp [State.init,Dispatcher.init,Dispatcher.connOf]
  conn_lt := by simp [State.init,Dispatcher.init,Dispatcher.connOf]
  region_fresh := by simp [State.init]
  key_ne := by simp [State.init,Dispatcher.init]
  cookie_ne := by simp [State.init,Pc.cookie?]

theorem WellFormed.callStep (hw : WellFormed s)
    (h : CallStep cfg s.dispatcher (s.calls i) act d pc) :
    WellFormed ⟨d,update s.calls i pc⟩ where
  exclusive := by
    rw [ledger_callStep hw h]
    exact hw.exclusive.move (legal_moveOf cfg s (.call i act))
  entry_lt hk := by
    rcases h.lookup hk with hk | ⟨cookie,v,touched,random,hp,_⟩
    · exact (hw.entry_lt hk).trans_le h.length_le
    · exact (hw.pc_lt (i := i) (by rw [hp]; rfl)).trans_le h.length_le
  pc_lt {j sid} hs := by
    by_cases hj : j = i
    · subst hj
      simp only [update_self] at hs
      rcases h.session hs with hs | ⟨key,hk⟩ | hlt
      · exact (hw.pc_lt hs).trans_le h.length_le
      · exact (hw.entry_lt hk).trans_le h.length_le
      · exact hlt
    · simp only [update_of_ne hj] at hs
      exact (hw.pc_lt hs).trans_le h.length_le
  conn_inj {a b c} ha hb := by
    rcases h.connOf ha with ha | ⟨rfl,_,_,_,hp⟩ <;>
      rcases h.connOf hb with hb | ⟨rfl,_,_,_,hp'⟩
    · exact hw.conn_inj ha hb
    · exact absurd ha (hw.region_fresh hp')
    · exact absurd hb (hw.region_fresh hp)
    · rfl
  conn_lt hc := by
    rcases h.connOf hc with hc | ⟨_,_,_,_,hp⟩
    · exact (hw.conn_lt hc).trans_le h.dialed_le
    · exact (hw.region_lt hp).trans_le h.dialed_le
  region_fresh {j r k data c a} hj ha := by
    by_cases hji : j = i
    · subst hji
      simp only [update_self] at hj
      -- the connection was dialed in this step, so no session has it yet
      have hc := h.checkRegion hj
      rcases h.connOf ha with ha | ⟨_,_,_,_,hp⟩
      · exact absurd (hw.conn_lt ha) (by rw [hc]; exact Nat.lt_irrefl _)
      · exact absurd (hw.region_lt hp) (by rw [hc]; exact Nat.lt_irrefl _)
    · simp only [update_of_ne hji] at hj
      rcases h.connOf ha with ha | ⟨_,_,_,_,hp⟩
      · exact hw.region_fresh hj ha
      · have hh : s.held (.call i) c := by simp [State.held,hp,Pc.holds]
        have hh' : s.held (.call j) c := by simp [State.held,hj,Pc.holds]
        exact hji (Holder.call.inj (hw.exclusive.unique hh' hh))
  key_ne := by
    refine eq_none_iff_forall_ne_some.mpr fun sid hk => ?_
    rcases h.lookup hk with hk | ⟨cookie,v,touched,random,hp,hn⟩
    · rw [hw.key_ne] at hk
      cases hk
    · refine newSessionKey_ne_empty (fun hc => ?_) hn rfl
      exact hw.cookie_ne (i := i) (by rw [hp,hc]; rfl)
  cookie_ne {j} := by
    by_cases hj : j = i
    · subst hj
      simpa only [update_self] using h.cookie hw.cookie_ne
    · simpa only [update_of_ne hj] using hw.cookie_ne

theorem WellFormed.sweep (hw : WellFormed s) (now : Time) :
    WellFormed ⟨s.dispatcher.expireSessions now,s.calls⟩ where
  exclusive := by
    rw [ledger_sweep]
    exact hw.exclusive.move trivial
  entry_lt hk := by
    rw [expireSessions_sessions]
    exact hw.entry_lt ((expireSessions_lookup _ _ _ _).mp hk).1
  pc_lt hs := by
    rw [expireSessions_sessions]
    exact hw.pc_lt hs
  conn_inj := by simpa [connOf] using @hw.conn_inj
  conn_lt := by simpa [connOf] using @hw.conn_lt
  region_fresh := by simpa [connOf] using @hw.region_fresh
  key_ne := by
    refine eq_none_iff_forall_ne_some.mpr fun sid hk => ?_
    have hk' := ((expireSessions_lookup _ _ _ _).mp hk).1
    rw [hw.key_ne] at hk'
    cases hk'
  cookie_ne := hw.cookie_ne

theorem WellFormed.step {s s' : State} (hw : WellFormed s) {a : Act} (h : step cfg s a = some s') :
    WellFormed s' := by
  obtain ⟨i,act,d,pc,rfl,hc,rfl⟩ | ⟨now,rfl,_,rfl⟩ := step_cases h
  · exact hw.callStep hc
  · exact hw.sweep now

/-! ### The steps that lose a connection -/

/-- A new session is stored under a key that no entry has. -/
def Pc.storesFresh (d : Dispatcher) (random : RandomSource) : Pc → Bool
  | .insert cookie version _ _ =>
    (newSessionKey version cookie random).any fun key => (d.sessionMap.lookup key).isNone
  | _ => true

/-- No client is turned away for its region after its connection was dialed, and every
new session gets a key of its own. -/
def clean (cfg : Config) (s : State) : Act → Bool
  | .call _ (.checkRegion geo _) => !deniedRegion cfg geo
  | .call i (.insert random) => (s.calls i).storesFresh s.dispatcher random
  | _ => true

theorem connOf_eq_some_of_lt (h : sid < d.sessions.length) : ∃ c, d.connOf sid = some c := by
  simp [connOf,h]

theorem entry_holds_iff (hw : WellFormed s) (key : String) :
    (∃ c, s.held (.entry key) c) ↔ s.dispatcher.sessionMap.lookup key ≠ none := by
  refine ⟨?_,fun h => ?_⟩
  · rintro ⟨c,sid,hk,_⟩
    simp [hk]
  · obtain ⟨sid,hk⟩ := ne_none_iff_exists'.mp h
    obtain ⟨c,hc⟩ := connOf_eq_some_of_lt (hw.entry_lt hk)
    exact ⟨c,sid,hk,hc⟩

/-- A step of a call loses a connection exactly when it is not clean. -/
theorem loses_callMove_iff (hw : WellFormed s)
    (h : CallStep cfg s.dispatcher (s.calls i) act d pc) :
    s.ledger.Loses (callMove cfg s i act) ↔ clean cfg s (.call i act) = false := by
  generalize hpc : s.calls i = p at h
  cases h with
  | @denied request cookie data conn geo now hr =>
    have hh : s.held (.call i) conn := by simp [State.held,hpc,Pc.holds]
    rw [callMove,if_pos hr]
    exact iff_of_true ⟨conn,hh⟩ (by simp [clean,hr])
  | admitted hr =>
    rw [callMove,if_neg (by simp [hr])]
    exact iff_of_false not_false (by simp [clean,hr])
  | @keyFailed cookie version sid touched random hl hk =>
    obtain ⟨c,hc⟩ := connOf_eq_some_of_lt (hw.pc_lt (i := i) (by rw [hpc]; rfl))
    have hh : s.held (.call i) c := by simp [State.held,hpc,Pc.holds,hc]
    simp only [callMove,clean,hpc,hk,Pc.storesFresh]
    exact iff_of_true ⟨c,hh⟩ rfl
  | @inserted cookie version sid touched random key hl hk =>
    simp only [callMove,clean,hpc,hk,Pc.storesFresh]
    refine (entry_holds_iff hw key).trans ?_
    simp [ne_none_iff_isSome]
  | closed hl =>
    simp only [callMove,hpc]
    exact iff_of_false not_false Bool.noConfusion
  | _ => exact iff_of_false not_false Bool.noConfusion

/-- Only a failed key generation changes the lock, and that step is not clean. -/
theorem locked_callStep (h : CallStep cfg s.dispatcher (s.calls i) act d pc) :
    (d.locked = false → s.dispatcher.locked = false) ∧
      (clean cfg s (.call i act) = true → d.locked = s.dispatcher.locked) := by
  generalize hpc : s.calls i = p at h
  cases h with
  | keyFailed hl hk => simp [clean,hpc,hk,Pc.storesFresh]
  | closed hl => simp
  | _ => exact ⟨id,fun _ => rfl⟩

/-- The lock is free and every dialed connection is closed or held by someone. -/
def State.Sound (s : State) : Prop := s.dispatcher.locked = false ∧ s.ledger.Covered

theorem sound_step_iff {s s' : State} {a : Act} (hw : WellFormed s) (h : step cfg s a = some s') :
    s'.Sound ↔ s.Sound ∧ clean cfg s a = true := by
  have hcov := covered_move_iff hw.exclusive (legal_moveOf cfg s a)
  rw [← ledger_step hw h] at hcov
  unfold State.Sound
  rw [hcov]
  obtain ⟨i,act,d,pc,rfl,hc,rfl⟩ | ⟨now,rfl,hl,rfl⟩ := step_cases h
  · have hlo := loses_callMove_iff hw hc
    obtain ⟨hb,hk⟩ := locked_callStep hc
    change d.locked = false ∧ _ ∧ ¬ s.ledger.Loses (callMove cfg s i act) ↔ _
    rw [hlo,Bool.not_eq_false,and_assoc]
    refine ⟨fun ⟨hd,hs,hcl⟩ => ⟨hb hd,hs,hcl⟩,fun ⟨hd,hs,hcl⟩ => ⟨?_,hs,hcl⟩⟩
    rw [hk hcl,hd]
  · simp [moveOf,Ledger.Loses,clean]

/-- Nothing is leaked: the lock is free, and every connection that was dialed is closed or
is the connection of exactly one entry of the map. -/
def State.Accounted (s : State) : Prop :=
  s.dispatcher.locked = false ∧ ∀ c < s.dispatcher.dialed,
    c ∈ s.dispatcher.closed ∨ ∃! key, ∃ sid,
      s.dispatcher.sessionMap.lookup key = some sid ∧ s.dispatcher.connOf sid = some c

/-- With no call in progress only entries hold connections. -/
theorem accounted_iff_sound (hw : WellFormed s) (hq : s.Quiescent) : s.Accounted ↔ s.Sound := by
  refine and_congr_right fun _ => forall₂_congr fun c _ => or_congr_right ⟨?_,?_⟩
  · rintro ⟨key,hk,_⟩
    exact ⟨.entry key,hk⟩
  · rintro ⟨h,hh⟩
    cases h with
    | entry key =>
      exact ⟨key,hh,fun key' hk' => Holder.entry.inj (hw.exclusive.unique hk' hh)⟩
    | call i =>
      have hp : (s.calls i).holds s.dispatcher c := hh
      rcases hq i with hi | hi <;> rw [hi] at hp <;> exact hp.elim

theorem sound_init : State.init.Sound :=
  ⟨rfl,fun c hc => absurd hc (Nat.not_lt_zero c)⟩

variable {as : List Act}

theorem wellFormed_of_run (h : run (step cfg) .init as = some s) : WellFormed s :=
  run_invariant (fun _ _ _ hw h => hw.step h) .init h

/-- However calls and sweeps interleave, a connection that an entry of the map has, or a call that
dialed it and has not yet stored its session, is open, and no other entry or such call has it. Calls
that touch or relay have it only through its one session. -/
theorem connection_owned_alone {c : ConnId} {holder : Holder}
    (h : run (step cfg) .init as = some s) (hc : s.held holder c) : c < s.dispatcher.dialed ∧
      c ∉ s.dispatcher.closed ∧ (∀ other, s.held other c → other = holder) ∧
      ∀ sid sid', s.dispatcher.connOf sid = some c → s.dispatcher.connOf sid' = some c →
        sid = sid' := by
  have hw := wellFormed_of_run h
  exact ⟨hw.exclusive.acquired hc,hw.exclusive.unreleased hc,
    fun _ ho => hw.exclusive.unique ho hc,fun _ _ => hw.conn_inj⟩

theorem sound_iff_of_run (h : run (step cfg) State.init as = some s) :
    s.Sound ↔ Runs.Along (step cfg) (fun s a => clean cfg s a = true) .init as :=
  (run_iff_along (fun _ _ _ hw h => .step hw h)
    (fun _ _ _ hw h => sound_step_iff hw h) .init h).trans (and_iff_right sound_init)

/-- However calls and sweeps interleave, once no call is in progress nothing has leaked
exactly when every step was clean. -/
theorem accounted_iff_clean {cfg : Config} {as : List Act} {s : State}
    (h : run (step cfg) .init as = some s) (hq : s.Quiescent) :
    s.Accounted ↔ Runs.Along (step cfg) (fun s a => clean cfg s a = true) .init as :=
  (accounted_iff_sound (wellFormed_of_run h) hq).trans (sound_iff_of_run h)

def Act.caller : Act → Option CallId
  | .call i _ => some i
  | .sweep _ => none

theorem calls_of_run {s t : State} (h : run (step cfg) s as = some t)
    (hi : ∀ a ∈ as, a.caller ≠ some i) : t.calls i = s.calls i := by
  induction as generalizing s with
  | nil => cases h; rfl
  | cons a as ih =>
    obtain ⟨s',ha,hr⟩ := run_cons_eq_some.mp h
    rw [ih hr fun b hb => hi b (List.mem_cons_of_mem a hb)]
    obtain ⟨j,act,d,pc,rfl,_,rfl⟩ | ⟨now,rfl,_,rfl⟩ := step_cases ha
    · exact update_of_ne (fun hij => hi _ (.head _) (congrArg some hij.symm)) _ _
    · rfl

theorem quiescent_of_run (h : run (step cfg) .init as = some s)
    (has : ∀ a ∈ as, a.caller = some i) (hi : s.calls i = .done) : s.Quiescent := by
  intro j
  by_cases hj : j = i
  · exact .inr (hj ▸ hi)
  · refine .inl (calls_of_run h fun a ha => ?_)
    rw [has a ha]
    exact fun he => hj (Option.some.inj he).symm

def firstRequest (i : CallId) (geo : Option GeoIpData) : List Act :=
  [.call i (.start ⟨"POST", some "k", ""⟩), .call i .lookup, .call i (.dial (some ⟨1, "", ""⟩)),
    .call i (.checkRegion geo 0)]

def storeAndRelay (i : CallId) : List Act :=
  [.call i (.insert ⟨none, fun _ => 0⟩),
    .call i (.relay ⟨0, false, [⟨⟨[], some .timeout⟩, .all, 0⟩]⟩)]

theorem connection_owned_alone_dialed : ∃ s, run (step openConfig) .init
    ((firstRequest 0 none).take 3) = some s ∧ s.held (.call 0) 0 ∧ 0 ∉ s.dispatcher.closed := by
  obtain ⟨s,hs,hc⟩ : ∃ s, run (step openConfig) .init ((firstRequest 0 none).take 3) = some s ∧
    s.held (.call 0) 0 := ⟨_,rfl,rfl⟩
  exact ⟨s,hs,hc,(connection_owned_alone hs hc).2.1⟩

/-- One client connects and its call returns. -/
theorem accounted_one_client :
    ∃ s, run (step openConfig) .init (firstRequest 0 none ++ storeAndRelay 0) = some s ∧
      s.Quiescent ∧ s.Accounted := by
  have hq := quiescent_of_run (i := 0) (some_get (x := run (step openConfig) .init
    (firstRequest 0 none ++ storeAndRelay 0)) (by decide)).symm (by decide) (by decide)
  exact ⟨_,(some_get _).symm,hq,(accounted_iff_clean (some_get _).symm hq).mpr (by decide)⟩

def oneRegionConfig : Config := { openConfig with allowedRegions := ["CA"] }

/-- A client from another region is turned away, and the connection dialed for it stays
open in no entry. -/
theorem leak_on_denied_region :
    ∃ s, run (step oneRegionConfig) .init
        (firstRequest 0 (some ⟨"US", "", ""⟩)) = some s ∧
      s.Quiescent ∧ ¬ s.Accounted := by
  refine ⟨_,(some_get rfl).symm,quiescent_of_run (i := 0) (some_get _).symm (by decide) rfl,
    fun h => ?_⟩
  rcases h.2 0 (by decide) with hc | ⟨key,⟨sid,hk,_⟩,_⟩
  · exact absurd hc (by decide)
  · cases hk

end Psiphon.Meek
