import Psiphon.Web.Completes

/-!
# What the handlers leave in the stores and logs

Every record that a handler finds can be read, if `json.loads` reads back what `json.dumps` wrote.
The logs get what the calls of `Endpoint.calls` write.
-/

namespace Psiphon.Web

open Hoare Function

variable {runtime : Runtime} {server : Server} {request : Request} {inputs : List (Name × Text)}

variable (runtime) in
/-- The records that the handlers write are read back as they were. -/
structure ReadsBack : Prop where
  geoip : ∀ geoip : Geoip, runtime.loads (runtime.dumps geoip.value) = .ok geoip.value
  strategy : ∀ value, runtime.loads (runtime.dumps (strategyRecord value)) =
    .ok (strategyRecord value)

theorem recordGeoip_dumps (h : ReadsBack runtime) (geoip : Geoip) :
    recordGeoip runtime.toPlatform (runtime.dumps geoip.value) = .ok geoip := by
  rw [recordGeoip,h.geoip]
  rfl

theorem recordStrategyValue_dumps (h : ReadsBack runtime) (value : ℕ) :
    recordStrategyValue runtime (runtime.dumps (strategyRecord value)) = .ok value := by
  rw [recordStrategyValue,h.strategy]
  rfl

/-! ### Single statements -/

theorem keeps_raise {α : Type} {I : State → Prop} (r : Py α) : Keeps I (raise r) := by
  cases r with
  | ok a => exact .skip
  | error e => exact .throw fun _ hs => hs

variable (runtime server) in
/-- The state after a request; an exception ends the request only. -/
def serve (s : State) (call : Endpoint × Request) : State :=
  match respond runtime server call.2 call.1 s with
  | .ok _ s' => s'
  | .error _ s' => s'

theorem mem_made_map {ι : Type} (f : ι → LogCall) {l : List ι} {i : ι} (h : i ∈ l) :
    f i ∈ made (l.map fun i => .ok (f i)) := by
  induction h with
  | head => exact .head _
  | tail _ _ ih => exact .tail _ ih

variable (runtime request inputs) in
/-- The call is one of those from which `handle` takes its events. -/
def Endpoint.Makes (endpoint : Endpoint) (call : LogCall) : Prop :=
  ∃ value, call ∈ made (endpoint.calls runtime.toPlatform request
    ((discoveredServers runtime value).map fun found => found.ipAddress.toList) inputs)

variable (runtime) in
/-- The line is what the call writes for the statistics, or its JSON object. -/
def LogCall.Writes (call : LogCall) (line : Line) : Prop :=
  line ∈ call.lines runtime ∨ ∃ lines, call.jsons runtime = .ok lines ∧ line ∈ lines

variable (runtime) in
/-- What the single statements of the handlers keep, if they make only these calls of
`_log_event`. -/
structure Stable (calls : LogCall → Prop) (I : State → Prop) : Prop where
  write : ∀ {s call lines}, calls call → (∀ line ∈ lines, call.Writes runtime line) → I s →
    I (s.write lines)
  session : ∀ {s} (id : Text) (geoip : Option Geoip), I s →
    I { s with session := update s.session id (geoip.map fun geoip => runtime.dumps geoip.value) }
  discovery : ∀ {s} (id : Text) (value : Option ℕ), I s → I { s with
    discovery := update s.discovery id
      (value.map fun value => runtime.dumps (strategyRecord value)) }
  secrets : ∀ {s} (secrets : Option Text), I s → I { s with secrets := secrets }

namespace Stable

variable {calls : LogCall → Prop} {I : State → Prop} (hI : Stable runtime calls I)

include hI

theorem keeps_logEvent {call : LogCall} (h : calls call) : Keeps I (logEvent runtime call) := by
  intro s hs
  cases hj : call.jsons runtime with
  | ok lines =>
    rw [logEvent_of_ok hj]
    exact hI.write h (fun _ hl => (List.mem_append.mp hl).imp id (⟨lines,hj,·⟩)) hs
  | error e =>
    rw [logEvent_of_error hj]
    exact hI.write h (fun _ hl => .inl hl) hs

/-- A call that is made is one of the calls up to the first that raises. -/
theorem keeps_logCall {α : Type} {c : Py LogCall} {cs : List (Py LogCall)} {x : Handled α}
    (h : ∀ call ∈ made (c :: cs), calls call)
    (hx : (∀ call ∈ made cs, calls call) → Keeps I x) :
    Keeps I (logCall runtime c >>= fun _ => x) := by
  cases c with
  | error e => exact fun s hs => hs
  | ok call =>
    exact .bind (hI.keeps_logEvent (h call (.head _))) fun _ => hx fun c hc => h c (.tail _ hc)

theorem keeps_forM {cs : List (Py LogCall)} (h : ∀ call ∈ made cs, calls call) :
    Keeps I (cs.forM (logCall runtime)) := by
  induction cs with
  | nil => exact .skip
  | cons c cs ih => exact hI.keeps_logCall h ih

/-! ### The inputs -/

theorem keeps_cacheGeoip (id : Text) (geoip : Geoip) : Keeps I (cacheGeoip runtime id geoip) := by
  unfold cacheGeoip
  split
  · exact .modify fun s hs => hI.session id (some geoip) hs
  · exact .skip

theorem keeps_lookupGeoip (id : Text) : Keeps I (lookupGeoip runtime server request id) := by
  unfold lookupGeoip
  split
  · exact .skip
  · exact .bind (hI.keeps_cacheGeoip id _) fun _ => .skip

theorem keeps_findGeoip : Keeps I (findGeoip runtime server request) := by
  unfold findGeoip
  split
  · exact .skip
  · next id _ =>
    split
    · exact .skip
    · refine .get fun s => ?_
      split
      · exact .bind (keeps_raise _) fun _ => .skip
      · exact .bind (hI.keeps_lookupGeoip id) fun _ => .skip

theorem keeps_readInputs (additional : List Input) :
    Keeps I (readInputs runtime server request additional) := by
  refine .bind hI.keeps_findGeoip fun geoip => ?_
  cases geoip with
  | none => exact .skip
  | some geoip =>
    dsimp only
    split
    · exact .throw fun _ hs => hs
    · exact .skip
    · exact .skip

theorem triple_readInputs {s : State} (hs : I s) {additional : List Input} :
    Triple (· = s) (readInputs runtime server request additional) (fun read t => I t ∧
      read = getInputs runtime.toPlatform server s.session request additional) fun _ => I := by
  rintro _ rfl
  cases hr : readInputs runtime server request additional _ with
  | ok read t => exact ⟨(hI.keeps_readInputs additional).of_ok hs hr,(readInputs_of_ok hr).1⟩
  | error e t => exact (hI.keeps_readInputs additional).of_error hs hr

/-! ### The handlers -/

theorem keeps_findStrategyValue : Keeps I (findStrategyValue runtime server request) := by
  unfold findStrategyValue
  split
  · split
    · exact Triple.skip
    · next id _ =>
      refine Triple.get fun s hs => ?_
      split
      · -- the record is taken out before it is read
        exact Triple.bind (Triple.set fun _ _ => hI.discovery id none hs) fun _ =>
          Triple.bind (keeps_raise _) fun _ => Triple.skip
      · exact Triple.pure fun t ht => ht ▸ hs
  · refine Triple.bind ?_ fun _ => Triple.skip
    unfold putStrategyValue
    split
    · exact Triple.skip
    · next id _ =>
      refine Triple.modify fun s hs => ?_
      split
      · exact hI.discovery id (some _) hs
      · exact hs

theorem keeps_setPskFor (rp : Text) : Keeps I (setPskFor runtime server rp) := by
  unfold setPskFor
  split
  · refine Triple.get fun s hs => ?_
    refine Triple.bind ((keeps_raise _).weaken_pre fun t ht => ht ▸ hs) fun secrets => ?_
    exact Triple.bind (Triple.set fun _ _ => hI.secrets _ hs) fun _ => Triple.skip
  · exact Triple.skip

omit hI in
theorem keeps_sendRoutes : Keeps I (sendRoutes runtime inputs) := by
  refine .bind (keeps_raise _) fun _ => .bind (keeps_raise _) fun _ => ?_
  split
  · exact .skip
  · split
    · exact .skip
    · exact .skip

theorem keeps_download (h : calls ⟨.stats .download, logged inputs⟩) :
    Keeps I (download runtime inputs) := by
  refine .bind (hI.keeps_logEvent h) fun _ => .bind (keeps_raise _) fun _ => ?_
  refine .bind (keeps_raise _) fun _ => .bind (keeps_raise _) fun _ => ?_
  split
  · exact .skip
  · exact .skip

theorem keeps_connected (h : calls ⟨.stats .connected, logged inputs⟩) :
    Keeps I (connected runtime inputs) := by
  refine .bind (hI.keeps_logEvent h) fun _ => .bind (keeps_raise _) fun wants => ?_
  split
  · exact keeps_sendRoutes
  · exact .skip

theorem keeps_statusFor
    (h : ∀ call ∈ made (statusCall request :: bodyCalls runtime.toPlatform request inputs),
      calls call) : Keeps I (statusFor runtime request inputs) := by
  refine .bind (keeps_raise _) fun isConnected => hI.keeps_logCall h fun h => ?_
  have hp : Keeps I (parses runtime request inputs) :=
    .tryCatch (.bind (hI.keeps_forM h) fun _ => .skip) fun _ => .skip
  refine .bind hp fun parsed => ?_
  split
  · refine .bind ?_ fun _ => .skip
    unfold cleanUpSession
    split
    · exact .skip
    · next id _ =>
      split
      · exact .modify fun s hs => hI.session id none hs
      · exact .skip
  · exact .skip

theorem keeps_handshakeFor
    (h : ∀ call, Endpoint.handshake.Makes runtime request inputs call → calls call) :
    Keeps I (handshakeFor runtime server request inputs) := by
  unfold handshakeFor
  split
  · next hk =>
    simp only [Endpoint.Makes,Endpoint.calls,hk,if_true] at h
    refine .bind (hI.keeps_logEvent (h _ ⟨none,.head _⟩)) fun _ => ?_
    refine .bind hI.keeps_findStrategyValue fun value => ?_
    refine .bind (keeps_raise _) fun _ => .bind (keeps_raise _) fun _ => ?_
    refine Triple.bind (Keeps.forM_mem fun found hf => hI.keeps_logEvent (h _ ⟨value,.tail _
      (mem_made_map (discoveryCall request inputs) (List.mem_map_of_mem hf))⟩)) fun _ => ?_
    refine .bind (keeps_raise _) fun _ => .bind (keeps_raise _) fun _ => ?_
    exact .bind (hI.keeps_setPskFor _) fun _ => .skip
  · exact .skip

theorem keeps_answer {endpoint : Endpoint}
    (h : ∀ call, endpoint.Makes runtime request inputs call → calls call) :
    Keeps I (endpoint.answer runtime server request inputs) := by
  cases endpoint with
  | handshake => exact hI.keeps_handshakeFor h
  | download => exact hI.keeps_download (h _ ⟨none,.head _⟩)
  | routes => exact .bind (hI.keeps_logEvent (h _ ⟨none,.head _⟩)) fun _ => keeps_sendRoutes
  | connected => exact hI.keeps_connected (h _ ⟨none,.head _⟩)
  | failed => exact .bind (hI.keeps_logEvent (h _ ⟨none,.head _⟩)) fun _ => .skip
  | status => exact hI.keeps_statusFor fun call hc => h call ⟨none,hc⟩
  | speed => exact .bind (hI.keeps_logEvent (h _ ⟨none,.head _⟩)) fun _ => .skip

/-- A request keeps what its statements keep, whether it is answered or raises. -/
theorem serve {s : State} {endpoint : Endpoint} (hs : I s) (h : ∀ inputs,
      getInputs runtime.toPlatform server s.session request
        (endpoint.additional runtime.toPlatform) = some inputs →
      ∀ call, endpoint.Makes runtime request inputs call → calls call) :
    I (serve runtime server s (endpoint, request)) := by
  have hrun : Triple (· = s) (respond runtime server request endpoint) (fun _ => I) fun _ => I := by
    refine .bind (hI.triple_readInputs hs) fun read t ht => ?_
    obtain ⟨ht,rfl⟩ := ht
    cases hi : getInputs runtime.toPlatform server s.session request
      (endpoint.additional runtime.toPlatform) with
    | none => exact ht
    | some inputs => exact hI.keeps_answer (h inputs hi) t ht
  unfold Web.serve
  split
  · next hx => exact hrun.of_ok rfl hx
  · next hx => exact hrun.of_error rfl hx

end Stable

/-! ### The stores -/

theorem forall_update {store : Text → Option Text} {id : Text} {record : Option Text}
    {P : Text → Prop} (h : ∀ other text, store other = some text → P text)
    (hr : ∀ text, record = some text → P text) :
    ∀ other text, update store id record other = some text → P text :=
  (forall_update_iff store fun _ record => ∀ text, record = some text → P text).mpr
    ⟨hr,fun other _ => h other⟩

theorem stable_readable (h : ReadsBack runtime) :
    Stable runtime (fun _ => True) (Readable runtime) where
  write _ _ hs := ⟨hs.sessions,hs.discovery⟩
  session id geoip hs := by
    refine ⟨forall_update hs.sessions fun text ht => ?_,hs.discovery⟩
    obtain ⟨geoip,-,rfl⟩ := Option.map_eq_some_iff.mp ht
    exact ⟨geoip,recordGeoip_dumps h geoip⟩
  discovery id value hs := by
    refine ⟨hs.sessions,forall_update hs.discovery fun text ht => ?_⟩
    obtain ⟨value,-,rfl⟩ := Option.map_eq_some_iff.mp ht
    exact ⟨value,recordStrategyValue_dumps h value⟩
  secrets _ hs := ⟨hs.sessions,hs.discovery⟩

/-- Whatever was asked before, the records in the stores can be read. -/
theorem readable_serves (h : ReadsBack runtime) (secrets : Option Text)
    (c : List (Endpoint × Request)) :
    Readable runtime (c.foldl (serve runtime server) (.initial secrets)) := by
  have hr : ∀ s, Readable runtime s → Readable runtime (c.foldl (serve runtime server) s) := by
    induction c with
    | nil => exact fun _ hs => hs
    | cons call c ih =>
      exact fun s hs => ih _ ((stable_readable h).serve hs fun _ _ _ _ => trivial)
  exact hr _ (readable_initial secrets)

theorem readsBack_smallRuntime : ReadsBack smallRuntime := by
  refine ⟨fun geoip => ?_,fun value => ?_⟩
  · have h : Flat.loads (Flat.dumps geoip.value) = .ok geoip.value := by
      refine Flat.loads_dumps ?_ ?_ <;> simp [Flat.IsFlat]
    exact h
  · have h : Flat.loads (Flat.dumps (strategyRecord value)) = .ok (strategyRecord value) := by
      refine Flat.loads_dumps ?_ ?_ <;> simp [Flat.IsFlat]
    exact h

/-- A handshake from outside the tunnel leaves a record in each of the stores. -/
theorem readable_serves_handshake :
    let s := serve smallRuntime smallServer (.initial (some []))
      (.handshake, smallRequest
        (fun name => if name = .clientSessionId then some "0f".toList else none)
        [])
    ReadsBack smallRuntime ∧
      s.session "0f".toList = some
        "\x7b\"region\": \"CA\", \"city\": \"Toronto\", \"isp\": \"None\"\x7d".toList ∧
      s.discovery "0f".toList = some "\x7b\"client_ip_address_strategy_value\": 1\x7d".toList ∧
      Readable smallRuntime s :=
  ⟨readsBack_smallRuntime,by decide +kernel,by decide +kernel,
    readable_serves readsBack_smallRuntime (some []) [_]⟩

/-! ### The logs -/

theorem stable_log (calls : LogCall → Prop) (log : List Line) : Stable runtime calls fun s =>
    ∀ line ∈ s.log, line ∈ log ∨ ∃ call, calls call ∧ call.Writes runtime line where
  write hc hw hs line hl :=
    (List.mem_append.mp hl).elim (hs line) fun hl => .inr ⟨_,hc,hw line hl⟩
  session _ _ hs := hs
  discovery _ _ hs := hs
  secrets _ hs := hs

/-- A request adds to the logs only what is written by the calls from which `handle` takes its
events. -/
theorem mem_log_serve (s : State) (endpoint : Endpoint) :
    ∀ line ∈ (serve runtime server s (endpoint, request)).log, line ∈ s.log ∨
      ∃ call, (∃ inputs, getInputs runtime.toPlatform server s.session request
          (endpoint.additional runtime.toPlatform) = some inputs ∧
        endpoint.Makes runtime request inputs call) ∧ call.Writes runtime line :=
  (stable_log _ s.log).serve (fun _ hl => .inl hl) fun inputs hi _ hc => ⟨inputs,hi,hc⟩

end Psiphon.Web
