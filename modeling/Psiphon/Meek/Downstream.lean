import Psiphon.Meek.Session

/-!
# What a meek client reads

After a relay error `ServeHTTP` calls `terminateConnection`, whose `http.NotFound` writes its text
to the same body.
-/

namespace Psiphon.Meek

open List

def notFoundText : List Byte :=
  "404 page not found\n".toList.map fun c => UInt8.ofNat c.toNat

/-- One request on a session: the value of the session cookie that `ServeHTTP` passes
on, the relay's outside world, and the write of `terminateConnection`. -/
structure SessionRequest where
  sessionCookie : String
  io : RelayIO
  notFound : WriteResult

structure Served where
  session : Session
  read : List Byte
  relayed : List Byte
  terminated : List Byte
  ended : Bool

def RelayError.isWrite : RelayError → Bool
  | .readingPayload .write => true
  | .readingPayload .shortWrite => true
  | .writingResponse => true
  | _ => false

/-- Relay one request and, after an error, terminate the connection. A write error, or a
relay that has not returned, ends the run. -/
def serveSession (cfg : Config) (session : Session) (request : SessionRequest) : Served :=
  let r := relayPayload cfg request.sessionCookie session request.io
  let answer := fun terminated ended =>
    .mk r.session r.transfer.read r.transfer.body terminated ended
  match r.transfer.status with
  | .waiting => answer [] true
  | .returned none => answer [] false
  | .returned (some err) =>
    if err.isWrite then answer [] true
    else answer (request.notFound.accepted notFoundText) false

/-- The body of a response, when its first byte was written by `relayPayload`. -/
def Served.relayedBody (r : Served) : List Byte :=
  if r.relayed = [] then [] else r.relayed ++ r.terminated

/-- What a run of requests on one session read from `psiConn` and what it wrote to the
bodies that the relay opened. -/
structure Stream where
  read : List Byte
  sent : List Byte
  deriving DecidableEq, Repr

def downstream (cfg : Config) : Session → List SessionRequest → Stream
  | _, [] => ⟨[], []⟩
  | session, request :: requests =>
    let r := serveSession cfg session request
    if r.ended then ⟨r.read, r.relayedBody⟩
    else
      let rest := downstream cfg r.session requests
      ⟨r.read ++ rest.read, r.relayedBody ++ rest.sent⟩

/-! ### When the relay loses or adds bytes -/

/-- The copy loop meets a read error that is neither EOF nor a timeout after it has read
some data. -/
def failsAfterData (seen : Bool) : List Turn → Bool
  | [] => false
  | turn :: turns =>
    let data := turn.read.data.take (64 * 1024)
    let seen := seen || decide (data ≠ [])
    if data ≠ [] ∧ turn.write.err then false
    else
      match turn.read.err with
      | some .eof => false
      | some .timeout => false
      | some .other => seen
      | none => if outOfTime turn.elapsed then false else failsAfterData seen turns

/-- The single read returns data together with an error that is not a timeout. -/
def dropsData (length : ℕ) : List Turn → Bool
  | [] => false
  | turn :: _ => decide (turn.read.data.take length ≠ [] ∧
      turn.read.err ≠ none ∧ turn.read.err ≠ some .timeout)

/-- The requests whose relay neither drops what it read nor fails after a part of the
body has been sent. -/
def CleanRequest (cfg : Config) (session : Session) (request : SessionRequest) : Prop :=
  request.io.uploadFailed = true ∨
    let session := session.addBytes request.io.uploaded
    if streams cfg session then failsAfterData false request.io.turns = false
    else dropsData (responseMaxPayloadLength cfg session) request.io.turns = false

/-- Every request of the run is clean for the session as the run left it. -/
def CleanRun (cfg : Config) : Session → List SessionRequest → Prop
  | _, [] => True
  | session, request :: requests =>
    CleanRequest cfg session request ∧
      ((serveSession cfg session request).ended = false →
        CleanRun cfg (serveSession cfg session request).session requests)

instance (cfg : Config) (session : Session) (request : SessionRequest) :
    Decidable (CleanRequest cfg session request) :=
  inferInstanceAs (Decidable (_ ∨ ite _ _ _))

instance CleanRun.decidable (cfg : Config) :
    ∀ (session : Session) (requests : List SessionRequest),
      Decidable (CleanRun cfg session requests)
  | _, [] => isTrue trivial
  | session, request :: requests =>
    have := CleanRun.decidable cfg (serveSession cfg session request).session requests
    inferInstanceAs (Decidable (_ ∧ (_ → _)))

/-! ### The copy loop -/

theorem WriteResult.accepted_prefix (w : WriteResult) (data : List Byte) :
    w.accepted data <+: data := by
  cases w with
  | all => exact prefix_rfl
  | failed n => exact List.take_prefix n data

/-- The loop writes what it reads, in order, and stops at the first write that fails. -/
theorem copyWithTimeout_body (t : List Turn) :
    (copyWithTimeout t).body <+: (copyWithTimeout t).read ∧
      ((copyWithTimeout t).status ≠ .returned (some .write) →
        (copyWithTimeout t).status ≠ .returned (some .shortWrite) →
        (copyWithTimeout t).body = (copyWithTimeout t).read) := by
  induction t with
  | nil => exact ⟨prefix_rfl,fun _ _ => rfl⟩
  | cons turn t ih =>
    simp only [copyWithTimeout]
    split
    · exact ⟨turn.write.accepted_prefix _,fun h => absurd rfl h⟩
    · split
      · exact ⟨turn.write.accepted_prefix _,fun _ h => absurd rfl h⟩
      · split
        · exact ⟨prefix_rfl,fun _ _ => rfl⟩
        · exact ⟨prefix_rfl,fun _ _ => rfl⟩
        · exact ⟨prefix_rfl,fun _ _ => rfl⟩
        · split
          · exact ⟨prefix_rfl,fun _ _ => rfl⟩
          · exact ⟨(prefix_append_right_inj _).mpr ih.1, fun hw hs => congrArg _ (ih.2 hw hs)⟩

theorem copyWithTimeout_body_nil (t : List Turn) (seen : Bool)
    (h : (copyWithTimeout t).status = .returned (some .read)) (hc : failsAfterData seen t = false) :
    seen = false ∧ (copyWithTimeout t).body = [] := by
  induction t generalizing seen with
  | nil => simp [copyWithTimeout] at h
  | cons turn t ih =>
    by_cases hw : turn.read.data.take (64 * 1024) ≠ [] ∧ turn.write.err
    · simp [copyWithTimeout,hw] at h
    · simp only [copyWithTimeout,failsAfterData,if_neg hw] at h hc ⊢
      split at h
      · simp at h
      · next hs =>
        simp only [if_neg hs]
        cases he : turn.read.err with
        | some err =>
          cases err with
          | eof => simp [he] at h
          | timeout => simp [he] at h
          | other => simpa [he] using hc
        | none =>
          by_cases ht : outOfTime turn.elapsed = true
          · simp [he,ht] at h
          · simp only [he,if_neg ht] at h hc ⊢
            obtain ⟨hse,hb⟩ := ih _ h hc
            simp only [Bool.or_eq_false_iff,decide_eq_false_iff_not,not_not] at hse
            exact ⟨hse.1,by simp [Transfer.after,hse.2,hb]⟩

/-! ### One request -/

/-- A relay that wrote what it read, up to a write that failed, and that read nothing if
it failed in another way. -/
structure Faithful (t : Transfer RelayError) : Prop where
  body_prefix : t.body <+: t.read
  body_eq : t.status = .waiting ∨ t.status = .returned none → t.body = t.read
  read_nil : ∀ err, t.status = .returned (some err) → err.isWrite = false → t.read = []

theorem copyWithTimeout_faithful (t : List Turn) (hc : failsAfterData false t = false) :
    Faithful ((copyWithTimeout t).mapError .readingPayload) := by
  obtain ⟨hp,he⟩ := copyWithTimeout_body t
  refine ⟨hp,fun hs => ?_,fun err hs hw => ?_⟩
  · cases ht : (copyWithTimeout t).status with
    | waiting => exact he (by simp [ht]) (by simp [ht])
    | returned err =>
      have hn : err = none := by simpa [Transfer.mapError,ht] using hs
      exact he (by simp [ht,hn]) (by simp [ht,hn])
  · cases ht : (copyWithTimeout t).status with
    | waiting => simp [Transfer.mapError,ht] at hs
    | returned e =>
      simp only [Transfer.mapError,ht,Status.returned.injEq,Option.map_eq_some_iff] at hs
      obtain ⟨e',rfl,rfl⟩ := hs
      have hr : e' = .read := by cases e' <;> simp_all [RelayError.isWrite]
      subst hr
      have hb := (copyWithTimeout_body_nil t false ht hc).2
      exact (he (by simp [ht]) (by simp [ht])).symm.trans hb

theorem relayOnce_faithful (length : ℕ) (t : List Turn)
    (hc : dropsData length t = false) : Faithful (relayOnce length t) := by
  cases t with
  | nil => exact ⟨prefix_rfl,fun _ => rfl,fun _ _ _ => rfl⟩
  | cons turn t =>
    simp only [relayOnce]
    split
    · next he =>
      refine ⟨List.nil_prefix,fun hs => by simp at hs,fun _ _ _ => ?_⟩
      exact not_not.mp fun hd => of_decide_eq_false hc ⟨hd,he⟩
    · split
      · refine ⟨turn.write.accepted_prefix _,fun hs => by simp at hs,fun err hs hw => ?_⟩
        simp only [Status.returned.injEq,Option.some.injEq] at hs
        simp [← hs,RelayError.isWrite] at hw
      · next hw =>
        have ha : turn.write = .all := by
          cases ht : turn.write with
          | all => rfl
          | failed n => simp [ht,WriteResult.err] at hw
        exact ⟨turn.write.accepted_prefix _,fun _ => by rw [ha]; rfl,fun _ hs => by simp at hs⟩

theorem relayPayload_faithful {cfg : Config} {session : Session} {r : SessionRequest}
    (hc : CleanRequest cfg session r) :
    Faithful (relayPayload cfg r.sessionCookie session r.io).transfer := by
  rw [relayPayload_transfer]
  by_cases hu : r.io.uploadFailed = true
  · rw [if_pos hu]
    exact ⟨prefix_rfl,fun _ => rfl,fun _ _ _ => rfl⟩
  · rw [if_neg hu]
    have hc' := hc.resolve_left hu
    split
    · next hs => exact copyWithTimeout_faithful _ (by simpa only [if_pos hs] using hc')
    · next hs => exact relayOnce_faithful _ _ (by simpa only [if_neg hs] using hc')

theorem Served.relayedBody_eq {r : Served} (h : r.terminated = []) : r.relayedBody = r.relayed := by
  unfold Served.relayedBody
  split
  · next hn => exact hn.symm
  · rw [h,append_nil]

/-- A clean request sends exactly what it read, or a part of it when it ends the run. -/
theorem serveSession_sent {cfg : Config} {session : Session} {r : SessionRequest}
    (hc : CleanRequest cfg session r) :
    (serveSession cfg session r).relayedBody <+: (serveSession cfg session r).read ∧
      ((serveSession cfg session r).ended = false → (serveSession cfg session r).relayedBody =
          (serveSession cfg session r).read) := by
  have hf := relayPayload_faithful hc
  unfold serveSession
  dsimp only
  split
  · rw [Served.relayedBody_eq rfl]
    exact ⟨hf.body_prefix,fun h => by simp at h⟩
  · next hs =>
    rw [Served.relayedBody_eq rfl]
    exact ⟨hf.body_prefix,fun _ => hf.body_eq (.inr hs)⟩
  · next err hs =>
    split
    · rw [Served.relayedBody_eq rfl]
      exact ⟨hf.body_prefix,fun h => by simp at h⟩
    · next hw =>
      have hr := hf.read_nil err hs (by simpa using hw)
      have hb := prefix_nil.mp (hr ▸ hf.body_prefix)
      simp [Served.relayedBody,hr,hb]

/-! ### Whole runs -/

/-- On a session whose requests are all clean, what the client was sent is a prefix of
what was read from `psiConn`: nothing is duplicated, skipped or added. -/
theorem downstream_prefix_of_clean (cfg : Config) (session : Session)
    (requests : List SessionRequest) (hc : CleanRun cfg session requests) :
    (downstream cfg session requests).sent <+: (downstream cfg session requests).read := by
  induction requests generalizing session with
  | nil => exact prefix_rfl
  | cons r requests ih =>
    obtain ⟨hreq,hr⟩ := hc
    obtain ⟨hp,he⟩ := serveSession_sent hreq
    simp only [downstream]
    cases hend : (serveSession cfg session r).ended with
    | true => exact hp
    | false =>
      rw [if_neg Bool.false_ne_true,he hend]
      exact (prefix_append_right_inj _).mpr (ih _ (hr hend))

def plainSession (conn : ConnId) (now : Time) : Session :=
  ⟨conn, 1, now, 0, false, false, false⟩

def readRequest (reads : List ReadResult) : SessionRequest :=
  ⟨"", ⟨0, false, reads.map fun r => ⟨r, .all, 0⟩⟩, .all⟩

/-- Two requests: the first reads two chunks and times out, the second loses its
connection before any data. -/
theorem downstream_prefix_two_requests :
    (downstream openConfig (plainSession 0 0)
        [readRequest [⟨[7, 8], none⟩, ⟨[9], some .timeout⟩],
          readRequest [⟨[], some .other⟩]]).sent =
      [7, 8, 9] ∧
    (downstream openConfig (plainSession 0 0)
        [readRequest [⟨[7, 8], none⟩, ⟨[9], some .timeout⟩],
          readRequest [⟨[], some .other⟩]]).sent <+:
      (downstream openConfig (plainSession 0 0)
        [readRequest [⟨[7, 8], none⟩, ⟨[9], some .timeout⟩],
          readRequest [⟨[], some .other⟩]]).read :=
  ⟨by decide,downstream_prefix_of_clean _ _ _ (by decide)⟩

/-- The relay reads and sends one byte and then loses the connection: the text of
`http.NotFound` follows the byte in the same body. -/
theorem downstream_adds_not_found :
    ¬ (downstream openConfig (plainSession 0 0)
        [readRequest [⟨[7], none⟩, ⟨[], some .other⟩]]).sent <+:
      (downstream openConfig (plainSession 0 0)
        [readRequest [⟨[7], none⟩, ⟨[], some .other⟩]]).read := by
  decide

end Psiphon.Meek
