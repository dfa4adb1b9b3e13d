import Psiphon.Stats.LogLine
import Psiphon.Web.ServerInstance

/-!
# What the logged values can be

The checks of some names let only single words through; the other names are free.
-/

namespace Psiphon.Web

open List Option Words Stats Input

/-- The names whose values may be anything but single words. -/
def freeNames : List Name :=
  [.serverIpAddress, .clientRegion, .clientCity, .clientIsp, .relayProtocol, .sessionId,
    .lastConnected, .bytes, .page, .domain, .operation, .info]

/-- What the client is and where, in the order in which it is logged. -/
def clientNames : List Name :=
  [.serverIpAddress, .clientRegion, .clientCity, .clientIsp, .propagationChannelId, .sponsorId,
    .clientVersion, .clientPlatform, .relayProtocol, .tunnelWholeDevice]

def EventName.names : EventName → List Name
  | handshake => clientNames
  | discovery => clientNames ++ [.serverIpAddress, .unknown]
  | connected => clientNames ++ [.sessionId, .lastConnected]
  | failed => clientNames ++ [.errorCode]
  | download => clientNames
  | status => [.relayProtocol, .sessionId]
  | disconnected => [.relayProtocol, .sessionId]
  | bytesTransferred => clientNames ++ [.sessionId, .connected, .bytes]
  | pageViews => clientNames ++ [.sessionId, .connected, .page, .count]
  | httpsRequests => clientNames ++ [.sessionId, .connected, .domain, .count]
  | speed => clientNames ++ [.operation, .info, .milliseconds, .size]

/-- The values that are logged are those of the names, and single words where the name is not
free. -/
structure Logs (values : List (Name × Text)) (names : List Name) : Prop where
  names : (values.filter fun value => !isOptional value.1).map Prod.fst = names
  words : ∀ value ∈ values.filter fun value => !isOptional value.1,
    value.1 ∉ freeNames → IsWord isSpace value.2

def Event.Regular (event : Event) : Prop := Logs event.values event.name.names

theorem Logs.append {a b : List (Name × Text)} {ns ms : List Name} (ha : Logs a ns)
    (hb : Logs b ms) : Logs (a ++ b) (ns ++ ms) := by
  refine ⟨by rw [filter_append,map_append,ha.names,hb.names],?_⟩
  intro value hv
  rw [filter_append] at hv
  rcases mem_append.mp hv with hv | hv
  · exact ha.words value hv
  · exact hb.words value hv

theorem Logs.nil : Logs [] [] := ⟨rfl,by simp⟩

variable {values : List (Name × Text)} {text : Text} {names : List Name} {name : Name}

theorem Logs.cons (hk : isOptional name = false) (ht : name ∉ freeNames → IsWord isSpace text)
    (h : Logs values names) : Logs ((name, text) :: values) (name :: names) := by
  refine ⟨by simp [hk,h.names],?_⟩
  intro value hv hf
  rw [filter_cons_of_pos (by simp [hk])] at hv
  rcases mem_cons.mp hv with rfl | hv
  · exact ht hf
  · exact h.words value hv hf

theorem Logs.free (hn : name ∈ freeNames) (hk : isOptional name = false) (h : Logs values names) :
    Logs ((name, text) :: values) (name :: names) := h.cons hk fun hf => absurd hn hf

theorem Logs.word (ht : IsWord isSpace text) (hk : isOptional name = false)
    (h : Logs values names) : Logs ((name, text) :: values) (name :: names) := h.cons hk fun _ => ht

/-! ### Texts that pass the checks -/

theorem isWord_of_consistsOf {text characters : Text} (hs : ∀ c ∈ characters, isSpace c = false)
    (hne : text ≠ []) (h : consistsOf text characters = true) : IsWord isSpace text := by
  refine ⟨hne,fun c hc => hs c ?_⟩
  have hn : text.filter (fun c => c ∉ characters) = [] :=
    eq_nil_of_length_eq_zero (of_decide_eq_true h)
  simpa using filter_eq_nil_iff.mp hn c hc

theorem isWord_of_isOneOf {texts : List String}
    (hw : ∀ t ∈ texts.map String.toList, IsWord isSpace t) (h : isOneOf texts text = true) :
    IsWord isSpace text := hw text (contains_iff_mem.mp h)

theorem isWord_of_not_contains (hne : text ≠ []) (h : contains text whitespace = false) :
    IsWord isSpace text := by
  refine ⟨hne,fun c hc => eq_false_of_ne_true fun hs => ?_⟩
  have hm : c ∈ whitespace := by
    simp only [isSpace,Bool.or_eq_true,decide_eq_true_eq] at hs
    rcases hs with ((((rfl | rfl) | rfl) | rfl) | rfl) | rfl <;> decide +kernel
  simpa [hc] using any_eq_false.mp h c hm

theorem isWord_emptyValue : IsWord isSpace emptyValue := by decide +kernel

theorem space_of_hexdigits : ∀ c ∈ hexdigits, isSpace c = false := fun c hc =>
  Bool.eq_false_iff.mpr (any_eq_false.mp (by decide +kernel) c hc)

theorem space_of_digits : ∀ c ∈ digits, isSpace c = false := fun c hc =>
  Bool.eq_false_iff.mpr (any_eq_false.mp (by decide +kernel) c hc)

theorem isWord_of_orEmpty {text characters : Text} (hs : ∀ c ∈ characters, isSpace c = false)
    (hne : text ≠ []) (h : (consistsOf text characters || text = emptyValue) = true) :
    IsWord isSpace text := by
  rcases (Bool.or_eq_true _ _).mp h with h | h
  · exact isWord_of_consistsOf hs hne h
  · exact of_decide_eq_true h ▸ isWord_emptyValue

theorem isWord_of_isValidBooleanStr (h : isValidBooleanStr text = true) : IsWord isSpace text :=
  isWord_of_isOneOf (by decide +kernel) h

theorem isWord_toDigits (n : ℕ) : IsWord isSpace (Nat.toDigits 10 n) := by
  refine ⟨Nat.toDigits_ne_nil,fun c hc => ?_⟩
  have hd : c.isDigit = true := Nat.isDigit_of_mem_toDigits (by decide) (by decide) hc
  refine eq_false_of_ne_true fun hs => ?_
  simp only [isSpace,Bool.or_eq_true,decide_eq_true_eq] at hs
  rcases hs with ((((rfl | rfl) | rfl) | rfl) | rfl) | rfl <;>
    exact absurd hd (by decide)

theorem isWord_decimal (n : ℤ) : IsWord isSpace (decimal n) := by
  cases n with
  | ofNat n => exact isWord_toDigits n
  | negSucc n =>
    refine ⟨cons_ne_nil _ _,fun c hc => ?_⟩
    rcases mem_cons.mp hc with rfl | hc
    · rfl
    · exact (isWord_toDigits _).2 c hc

/-! ### Inputs -/

theorem orEmptyValue_ne_nil (text : Text) : orEmptyValue text ≠ [] := by
  unfold orEmptyValue
  split
  · decide +kernel
  · next hl => exact fun hn => hl (by rw [hn]; rfl)

/-- The check of a name that is not free lets only words through. -/
def Input.Tight (input : Input) : Prop :=
  input.name ∉ freeNames → input.name ≠ .serverSecret → ∀ text ≠ [], input.valid text = some true →
    IsWord isSpace text

theorem Input.tight_of {valid : Text → Bool}
    (h : name ∉ freeNames → name ≠ .serverSecret → ∀ text ≠ [], valid text = true →
      IsWord isSpace text) : (of name valid).Tight :=
  fun hf hs text hne hv => h hf hs text hne (Option.some.inj hv)

theorem Input.tight_of_free {i : Input} (h : i.name ∈ freeNames) : i.Tight :=
  fun hf => absurd h hf

section

variable (platform : Platform) (server : Server)

theorem tight_commonInputs : ∀ i ∈ commonInputs server, i.Tight := by
  simp only [commonInputs,forall_mem_cons]
  refine ⟨?_,?_,?_,?_,?_,?_,?_,by simp⟩
  · exact tight_of fun _ hs => absurd rfl hs
  · exact tight_of fun _ _ _ hne h => isWord_of_orEmpty space_of_hexdigits hne h
  · exact tight_of fun _ _ _ hne h => isWord_of_orEmpty space_of_hexdigits hne h
  · exact tight_of fun _ _ _ hne h => isWord_of_orEmpty space_of_digits hne h
  · exact tight_of fun _ _ _ hne h => isWord_of_not_contains hne (by simpa using h)
  · exact tight_of_free (by decide)
  · exact tight_of fun _ _ _ _ h => isWord_of_isValidBooleanStr h

theorem tight_connectedInputs : ∀ i ∈ connectedInputs platform, i.Tight := by
  simp only [connectedInputs,forall_mem_cons]
  exact ⟨tight_of_free (show .sessionId ∈ freeNames by decide), tight_of_free (by decide),by simp⟩

theorem tight_failedInputs : ∀ i ∈ failedInputs, i.Tight := by
  simp only [failedInputs,forall_mem_cons]
  exact ⟨tight_of fun _ _ _ hne h => isWord_of_consistsOf space_of_digits hne h,by simp⟩

theorem tight_statusInputs : ∀ i ∈ statusInputs platform, i.Tight := by
  simp only [statusInputs,forall_mem_cons]
  exact ⟨tight_of_free (show .sessionId ∈ freeNames by decide),
    tight_of fun _ _ _ _ h => isWord_of_isValidBooleanStr h,by simp⟩

theorem tight_speedInputs : ∀ i ∈ speedInputs, i.Tight := by
  simp only [speedInputs,forall_mem_cons]
  exact ⟨tight_of_free (by decide),tight_of_free (by decide),
    tight_of fun _ _ _ hne h => isWord_of_consistsOf space_of_digits hne h,
    tight_of fun _ _ _ hne h => isWord_of_consistsOf space_of_digits hne h,by simp⟩

theorem isOptional_iff (name : Name) :
    isOptional name = true ↔ name ∈ (optionalCommonInputs platform).map Input.name := by
  cases name <;> simp [isOptional,optionalCommonInputs,of]

end

theorem isOptional_of_given {request : Request} (h : given request name = .skipped) :
    isOptional name = true := by
  unfold given at h
  split at h
  · exact Given.noConfusion h
  · split at h
    all_goals first
      | exact Given.noConfusion h
      | split at h
        · assumption
        · exact Given.noConfusion h

def keeps (name : Name) : Bool := !isOptional name && name ≠ .serverSecret

/-- The value was given for one of the inputs, and passed its check. -/
def Collected (inputs : List Input) (value : Name × Text) : Prop :=
  value.1 ≠ .serverSecret ∧ value.2 ≠ [] ∧
    ∃ input ∈ inputs, input.name = value.1 ∧ input.valid value.2 = some true

theorem Collected.cons {inputs : List Input} {value : Name × Text} (h : Collected inputs value)
    (input : Input) : Collected (input :: inputs) value := by
  obtain ⟨hs,hne,i,hi,hv⟩ := h
  exact ⟨hs,hne,i,mem_cons_of_mem _ hi,hv⟩

/-- The loop over the inputs keeps the names that it logs, in their order, with values that passed
their checks. -/
theorem checkInputs_spec {request : Request} {inputs : List Input}
    (h : checkInputs request inputs = .ok (some values)) :
    (values.filter fun value => !isOptional value.1).map Prod.fst =
      (inputs.map Input.name).filter keeps ∧ ∀ value ∈ values, Collected inputs value := by
  induction inputs generalizing values with
  | nil =>
    cases h
    exact ⟨rfl,by simp⟩
  | cons i inputs ih =>
    simp only [checkInputs] at h
    split at h
    · cases h
    · next hsk =>
      -- only optional inputs are skipped, and none of them is logged
      obtain ⟨hn,hv⟩ := ih h
      have hd : keeps i.name = false := by
        simp [keeps,isOptional_of_given hsk]
      refine ⟨?_,fun value hva => (hv value hva).cons i⟩
      rw [hn,map_cons,filter_cons_of_neg (by simp [hd])]
    · next text hgiven =>
      split at h
      · cases h
      · cases h
      · next hval =>
        obtain ⟨_,hl,heq⟩ := Fallible.bind_eq_ok_iff.mp h
        obtain ⟨later,rfl,hva⟩ := map_eq_some_iff.mp (Except.ok.inj heq)
        obtain ⟨hn,hv⟩ := ih hl
        by_cases hs : i.name = .serverSecret
        · rw [if_neg (not_not_intro hs)] at hva
          subst hva
          refine ⟨?_,fun value hva => (hv value hva).cons i⟩
          rw [hn,map_cons,filter_cons_of_neg (by simp [keeps,hs])]
        · rw [if_pos hs] at hva
          subst hva
          constructor
          · rw [map_cons,filter_cons,filter_cons]
            by_cases ho : isOptional i.name = true
            · simp [keeps,ho,hn]
            · simp [keeps,ho,hs,hn]
          · intro value hmem
            rcases mem_cons.mp hmem with rfl | hmem
            · exact ⟨hs,orEmptyValue_ne_nil text,i,(.head _),rfl,hval⟩
            · exact (hv value hmem).cons i

/-- The names of the inputs that a handler expects besides the common ones. -/
def Endpoint.additionalNames : Endpoint → List Name
  | .handshake | .download => []
  | .routes => [.sessionId]
  | .connected => [.sessionId, .lastConnected]
  | .failed => [.errorCode]
  | .status => [.sessionId, .connected]
  | .speed => [.operation, .info, .milliseconds, .size]

theorem map_name_additional (platform : Platform) (endpoint : Endpoint) :
    (endpoint.additional platform).map Input.name = endpoint.additionalNames := by
  cases endpoint <;> rfl

theorem tight_additional (platform : Platform) (endpoint : Endpoint) :
    ∀ i ∈ endpoint.additional platform, i.Tight := by
  cases endpoint with
  | handshake => exact fun _ h => absurd h not_mem_nil
  | download => exact fun _ h => absurd h not_mem_nil
  | routes =>
    exact forall_mem_singleton.mpr (tight_of_free (show .sessionId ∈ freeNames by decide))
  | connected => exact tight_connectedInputs platform
  | failed => exact tight_failedInputs
  | status => exact tight_statusInputs platform
  | speed => exact tight_speedInputs

theorem keeps_additional (platform : Platform) (endpoint : Endpoint) :
    ∀ i ∈ endpoint.additional platform, keeps i.name = true := by
  intro i hi
  have hn : i.name ∈ endpoint.additionalNames :=
    map_name_additional platform endpoint ▸ mem_map_of_mem hi
  have hk : ∀ name ∈ endpoint.additionalNames, keeps name = true := by cases endpoint <;> decide
  exact hk _ hn

section

variable {platform : Platform} {server : Server} {session : Text → Option Text} {request : Request}
  {endpoint : Endpoint} {inputs : List (Name × Text)}

theorem exists_of_getInputs {additional : List Input}
    (h : getInputs platform server session request additional = some inputs) :
    ∃ geoip values, inputs = located server geoip values ∧
      checkInputs request (expectedInputs platform server additional) = .ok (some values) := by
  obtain ⟨geoip,-,h⟩ := bind_eq_some_iff.mp h
  split at h
  · next values hva => exact ⟨geoip,values,(Option.some.inj h).symm,hva⟩
  · cases h

theorem logs_getInputs
    (h : getInputs platform server session request (endpoint.additional platform) = some inputs) :
    Logs inputs (clientNames ++ endpoint.additionalNames) := by
  obtain ⟨geoip,values,rfl,hva⟩ := exists_of_getInputs h
  obtain ⟨hn,hval⟩ := checkInputs_spec hva
  have hv : Logs values (clientNames.drop 4 ++ endpoint.additionalNames) := by
    constructor
    · rw [hn,expectedInputs,map_append,map_append,filter_append,filter_append,← map_name_additional]
      have hc : ((commonInputs server).map name).filter keeps = clientNames.drop 4 := rfl
      have ho : ((optionalCommonInputs platform).map name).filter keeps = [] := rfl
      have ha : ((endpoint.additional platform).map name).filter keeps =
          (endpoint.additional platform).map name := by
        refine filter_eq_self.mpr fun name hna => ?_
        obtain ⟨i,hi,rfl⟩ := mem_map.mp hna
        exact keeps_additional platform endpoint i hi
      rw [hc,ho,ha,append_nil]
    · intro value hvalue hf
      obtain ⟨hm,hnot⟩ := mem_filter.mp hvalue
      obtain ⟨hs,hne,i,hi,hna,hok⟩ := hval value hm
      have ht : i.Tight := by
        rcases mem_append.mp hi with hi | hi
        · rcases mem_append.mp hi with hi | hi
          · exact tight_commonInputs server i hi
          · -- an optional input is not logged
            have ho := (isOptional_iff platform value.1).mpr (hna ▸ mem_map_of_mem hi)
            rw [ho] at hnot
            cases hnot
        · exact tight_additional platform endpoint i hi
      exact ht (hna ▸ hf) (hna ▸ hs) value.2 hne hok
  exact ((((hv.free (by decide) rfl).free (by decide) rfl).free (by decide) rfl).free
    (by decide) rfl)

/-! ### Calls -/

/-- The forms of the calls for the body of a status request. -/
inductive ReportCall (inputs : List (Name × Text)) : LogCall → Prop where
  | bytesTransferred (bytes : Value) :
    ReportCall inputs ⟨.stats .bytesTransferred, logged inputs ++ [(.name .bytes, bytes)]⟩
  | pageViews (page : Value) (count : ℤ) : ReportCall inputs
    ⟨.stats .pageViews, logged inputs ++ [(.name .page, page), (.name .count, .int count)]⟩
  | httpsRequests (domain : Value) (count : ℤ) : ReportCall inputs
    ⟨.stats .httpsRequests, logged inputs ++ [(.name .domain, domain), (.name .count, .int count)]⟩
  | session (values : List (Key × Value)) : ReportCall inputs ⟨.session, values⟩
  | domainBytes (values : List (Key × Value)) : ReportCall inputs ⟨.domainBytes, values⟩
  | remoteServerList (values : List (Key × Value)) : ReportCall inputs ⟨.remoteServerList, values⟩

variable {call : LogCall} {stats : Value}

theorem exists_of_mem_itemCalls {key : String} {make : Value → Py LogCall}
    (h : .ok call ∈ itemCalls stats key make) : ∃ item, make item = .ok call := by
  unfold itemCalls at h
  split at h
  · cases mem_singleton.mp h
  · obtain ⟨item,-,hi⟩ := mem_map.mp h
    exact ⟨item,hi⟩

theorem exists_of_mem_itemCallsIfSent {key : String} {make : Value → Py LogCall}
    (h : .ok call ∈ itemCallsIfSent stats key make) : ∃ item, make item = .ok call := by
  unfold itemCallsIfSent at h
  split at h
  · exact exists_of_mem_itemCalls h
  · cases h

theorem exists_of_countCall {event : EventName} {key : String} {item : Value}
    (h : countCall platform event inputs key name item = .ok call) : ∃ value n,
      call = ⟨.stats event, logged inputs ++ [(.name name, value), (.name .count, .int n)]⟩ := by
  obtain ⟨value,-,h⟩ := Fallible.bind_eq_ok_iff.mp h
  obtain ⟨count,-,h⟩ := Fallible.bind_eq_ok_iff.mp h
  exact ⟨value,_,(Except.ok.inj h).symm⟩

theorem exists_of_tunnelCall {tunnel : Value} (h : tunnelCall platform inputs tunnel = .ok call) :
    ∃ values, call = ⟨.session, values⟩ := by
  simp only [tunnelCall,Fallible.bind_eq_ok_iff] at h
  obtain ⟨_,-,_,-,_,-,_,-,_,-,_,-,_,-,_,-,h⟩ := h
  exact ⟨_,(Except.ok.inj h).symm⟩

theorem exists_of_remoteServerListCall {item : Value}
    (h : remoteServerListCall inputs item = .ok call) :
    ∃ values, call = ⟨.remoteServerList, values⟩ := by
  simp only [remoteServerListCall,Fallible.bind_eq_ok_iff] at h
  obtain ⟨_,-,_,-,_,-,h⟩ := h
  exact ⟨_,(Except.ok.inj h).symm⟩

theorem reportCall_of_mem (h : .ok call ∈ reportCalls platform inputs stats) :
    ReportCall inputs call := by
  simp only [reportCalls,mem_append] at h
  rcases h with h | h | h | h | h | h
  · unfold bytesTransferredCalls at h
    split at h
    · cases mem_singleton.mp h
    · split at h
      · cases mem_singleton.mp h
        exact .bytesTransferred _
      · cases h
  · obtain ⟨item,hi⟩ := exists_of_mem_itemCalls h
    obtain ⟨page,count,rfl⟩ := exists_of_countCall hi
    exact .pageViews page count
  · obtain ⟨item,hi⟩ := exists_of_mem_itemCalls h
    obtain ⟨domain,count,rfl⟩ := exists_of_countCall hi
    exact .httpsRequests domain count
  · obtain ⟨tunnel,ht⟩ := exists_of_mem_itemCallsIfSent h
    obtain ⟨values,rfl⟩ := exists_of_tunnelCall ht
    exact .session values
  · unfold hostBytesCalls at h
    split at h
    · cases h
    · obtain ⟨member,-,hm⟩ := mem_map.mp h
      cases hm
      exact .domainBytes _
    · cases mem_singleton.mp h
  · obtain ⟨item,hi⟩ := exists_of_mem_itemCallsIfSent h
    obtain ⟨values,rfl⟩ := exists_of_remoteServerListCall hi
    exact .remoteServerList values

theorem reportCall_of_mem_bodyCalls (h : .ok call ∈ bodyCalls platform request inputs) :
    ReportCall inputs call := by
  unfold bodyCalls at h
  split at h
  · cases h
  · split at h
    · cases mem_singleton.mp h
    · exact reportCall_of_mem h

/-! ### Events -/

theorem filterMap_written_logged (inputs : List (Name × Text)) :
    (logged inputs).filterMap (written platform) = inputs := by
  rw [logged,filterMap_map]
  exact filterMap_some

variable (platform) in
/-- If the call is for the statistics, then its event is regular. -/
def LogCall.Regular (call : LogCall) : Prop :=
  ∀ event, call.event? platform = some event → event.Regular

theorem regular_of_logs {name : EventName} {values : List (Key × Value)}
    (h : Logs (values.filterMap (written platform)) name.names) :
    LogCall.Regular platform ⟨.stats name, values⟩ := fun event he => by
  cases he
  exact h

theorem regular_of_logged {name : EventName} (h : Logs inputs name.names) :
    LogCall.Regular platform ⟨.stats name, logged inputs⟩ :=
  regular_of_logs (by rwa [filterMap_written_logged])

theorem regular_of_append {name : EventName} {values : List (Key × Value)} {more : List Name}
    (h : Logs inputs names) (hm : Logs (values.filterMap (written platform)) more)
    (hn : name.names = names ++ more) :
    LogCall.Regular platform ⟨.stats name, logged inputs ++ values⟩ := by
  refine regular_of_logs ?_
  rw [filterMap_append,filterMap_written_logged,hn]
  exact h.append hm

theorem ReportCall.regular (hi : Logs inputs (clientNames ++ [.sessionId, .connected]))
    (h : ReportCall inputs call) : call.Regular platform := by
  cases h with
  | bytesTransferred bytes =>
    exact regular_of_append hi (Logs.nil.free (by decide) rfl) rfl
  | pageViews page count =>
    exact regular_of_append hi ((Logs.nil.word (isWord_decimal _) rfl).free (by decide) rfl) rfl
  | httpsRequests domain count =>
    exact regular_of_append hi ((Logs.nil.word (isWord_decimal _) rfl).free (by decide) rfl) rfl
  | session values => exact nofun
  | domainBytes values => exact nofun
  | remoteServerList values => exact nofun

theorem regular_of_statusCall (h : statusCall request = .ok call) : call.Regular platform := by
  simp only [statusCall,Fallible.bind_eq_ok_iff] at h
  obtain ⟨isConnected,-,_,-,_,-,h⟩ := h
  cases h
  refine regular_of_logged ?_
  have hn : (if isConnected = "1".toList then EventName.status else .disconnected).names =
      [.relayProtocol,.sessionId] := by
    split <;> rfl
  rw [hn]
  exact (Logs.nil.free (by decide) rfl).free (by decide) rfl

theorem regular_of_mem_calls {discovered : List Text}
    (hi : Logs inputs (clientNames ++ endpoint.additionalNames))
    (h : .ok call ∈ endpoint.calls platform request discovered inputs) : call.Regular platform := by
  cases endpoint with
  | handshake =>
    replace hi : Logs inputs clientNames := hi
    simp only [Endpoint.calls] at h
    split at h
    · rcases mem_cons.mp h with h | h
      · cases h
        exact regular_of_logged hi
      · obtain ⟨ipAddress,-,hc⟩ := mem_map.mp h
        cases hc
        have hf : IsWord isSpace
            (if request.knownServers.contains ipAddress then "0".toList else "1".toList) := by
          split <;> decide +kernel
        exact regular_of_append hi ((Logs.nil.word hf rfl).free (by decide) rfl) rfl
    · cases h
  | status =>
    rcases mem_cons.mp h with h | h
    · exact regular_of_statusCall h.symm
    · exact (reportCall_of_mem_bodyCalls h).regular hi
  | routes =>
    cases mem_singleton.mp h
    exact nofun
  | download =>
    cases mem_singleton.mp h
    exact regular_of_logged hi
  | connected =>
    cases mem_singleton.mp h
    exact regular_of_logged hi
  | failed =>
    cases mem_singleton.mp h
    exact regular_of_logged hi
  | speed =>
    cases mem_singleton.mp h
    exact regular_of_logged hi

theorem mem_of_mem_made {calls : List (Py LogCall)} (h : call ∈ made calls) : .ok call ∈ calls := by
  induction calls with
  | nil => cases h
  | cons first rest ih =>
    cases first with
    | error e => cases h
    | ok c =>
      rcases mem_cons.mp h with rfl | h
      · exact .head _
      · exact .tail _ (ih h)

/-- Whatever a handler logs has the names of its event, with words where the checks ask for them. -/
theorem regular_of_mem_handle {discovered : List Text} {event : Event}
    (h : event ∈ handle platform server session request endpoint discovered) : event.Regular := by
  unfold handle at h
  split at h
  · cases h
  · next inputs hi =>
    obtain ⟨call,hc,he⟩ := mem_filterMap.mp h
    exact regular_of_mem_calls (logs_getInputs hi) (mem_of_mem_made hc) event he

end

end Psiphon.Web
