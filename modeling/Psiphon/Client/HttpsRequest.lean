import Psiphon.Lib.Base64
import Psiphon.Lib.Runs

/-!
# HTTPS requests

`httpsrequest.cpp`: WinHTTP reports to a callback, while the caller waits for the handle to close or
for the stop signal.
-/

namespace Psiphon.Client.HttpsRequest

open Runs (run run_invariant)
open Option

abbrev Bytes := List UInt8

/-- Where `MakeRequestWithURLProxyOption` is. -/
inductive Main where
  | sending
  | waiting
  /-- It has closed the handle and waits for the last callback. -/
  | stopping
  /-- With the response if it returned true. -/
  | returned (response : Option Bytes)
  deriving DecidableEq

structure Request where
  main : Main
  handleOpen : Bool
  closedEvent : Bool
  requestSuccess : Bool
  response : Bytes
  /-- `WinHttpReceiveResponse` and `WinHttpQueryDataAvailable` were called. -/
  receiveAsked : Bool
  queryAsked : Bool
  /-- The certificate of a connection on which WinHTTP is about to send the request. -/
  sending : Option Bytes
  /-- The certificates of the connections on which the request was sent. -/
  transmitted : List Bytes
  statuses : List ℕ
  /-- A length of 0 was reported. -/
  ended : Bool
  /-- What `WinHttpReadData` gave. -/
  reads : List Bytes
  deriving DecidableEq

/-- The callbacks, with the results of the calls that they make. -/
inductive Callback where
  | handleClosing
  | sendingRequest (certificate : Bytes) (queryOption allocated : Bool)
  | sendRequestComplete (receiveResponse : Bool)
  | headersAvailable (queryHeaders : Option ℕ) (queryDataAvailable : Bool)
  | dataAvailable (length : ℕ) (allocated : Bool) (readData : Option Bytes)
      (queryDataAvailable : Bool)
  | requestError
  | secureFailure
  | other

/-- The result of `WaitForSingleObject`, and of `CheckSignal` after a timeout. -/
inductive Wait where
  | timeout (stop : Bool)
  | failed
  | signalled

inductive Action where
  | sendRequest (success : Bool)
  | callback (c : Callback)
  | transmit
  | wait (result : Wait)
  /-- The wait after the handle was closed is over. -/
  | stopped

namespace Request

/-- When `WinHttpSendRequest` is called. -/
def start : Request := ⟨.sending, true, false, false, [], false, false, none, [], [], false, []⟩

def close (s : Request) : Request := { s with handleOpen := false }

section

variable (decode : Bytes → Option Bytes) (expected : Bytes)

/-- `decode` is `CryptStringToBinaryA`, unless it fails. -/
def validateServerCert (certificate : Bytes) (allocated : Bool) : Bool :=
  expected ≠ [] && allocated && decode expected = some certificate

/-- `WinHttpStatusCallback`; data is available only after it was asked for. -/
def winHttpStatusCallback (s : Request) : Callback → Option Request
  | .handleClosing => some { s with closedEvent := true }
  | .sendingRequest certificate queryOption allocated =>
    let s := { s with sending := some certificate }
    if expected ≠ [] ∧
        (queryOption && validateServerCert decode expected certificate allocated) = false then
      some s.close
    else some s
  | .sendRequestComplete receiveResponse =>
    some (if receiveResponse then { s with receiveAsked := true } else s.close)
  | .headersAvailable queryHeaders queryDataAvailable =>
    if s.receiveAsked then
      match queryHeaders with
      | none => some s.close
      | some status =>
        let s := { s with statuses := s.statuses ++ [status] }
        some (if status = 200 ∧ queryDataAvailable then { s with queryAsked := true } else s.close)
    else none
  | .dataAvailable length allocated readData queryDataAvailable =>
    if s.queryAsked ∧ ∀ data ∈ readData, data.length ≤ length then
      if length = 0 then some { s.close with ended := true, requestSuccess := true }
      else match readData with
        | some data =>
          if allocated then
            let s := { s with response := s.response ++ data, reads := s.reads ++ [data] }
            some (if queryDataAvailable then s else s.close)
          else some s.close
        | none => some s.close
    else none
  | .requestError => some s.close
  | .secureFailure => some s.close
  | .other => some s

/-- No callback comes after that of the closed handle, and a request is sent only after the callback
for it, if the handle is still open. -/
def step (s : Request) : Action → Option Request
  | .sendRequest success =>
    if s.main = .sending then
      some (if success then { s with main := .waiting }
        else { s.close with main := .returned none })
    else none
  | .callback c => if s.closedEvent then none else s.winHttpStatusCallback decode expected c
  | .transmit =>
    match s.sending with
    | some certificate =>
      if s.handleOpen then
        some { s with sending := none, transmitted := s.transmitted ++ [certificate] }
      else none
    | none => none
  | .wait result =>
    if s.main = .waiting then
      match result with
      | .timeout false => some s
      | .timeout true => some { s.close with main := .stopping }
      | .failed => some { s.close with main := .stopping }
      | .signalled =>
        if s.closedEvent then
          some { s.close with
            main := .returned (if s.requestSuccess then some s.response else none) }
        else none
    else none
  | .stopped =>
    if s.main = .stopping ∧ s.closedEvent then some { s with main := .returned none } else none

end

/-! ### What holds at any time -/

variable {decode : Bytes → Option Bytes} {expected : Bytes} {s s' : Request}

structure Safe (decode : Bytes → Option Bytes) (expected : Bytes) (s : Request) : Prop where
  transmitted : ∀ certificate ∈ s.transmitted, decode expected = some certificate
  sending : ∀ certificate, s.sending = some certificate → s.handleOpen = true →
    decode expected = some certificate
  asked : s.queryAsked = true → 200 ∈ s.statuses
  success : s.requestSuccess = true → s.ended = true ∧ 200 ∈ s.statuses
  response : s.response = s.reads.flatten
  returned : ∀ response, s.main = .returned (some response) →
    s.closedEvent = true ∧ s.requestSuccess = true ∧ response = s.response

theorem Safe.close (h : s.Safe decode expected) : s.close.Safe decode expected :=
  ⟨h.transmitted,fun _ _ ho => absurd ho Bool.false_ne_true,h.asked,h.success,h.response,h.returned⟩

theorem Safe.callback {c : Callback} (he : expected ≠ []) (h : s.Safe decode expected)
    (ho : s.closedEvent = false) (hc : s.winHttpStatusCallback decode expected c = some s') :
    s'.Safe decode expected := by
  -- the caller has not returned a response before the last callback
  have hm (t : Request) (response : Bytes) (ht : s.main = .returned (some response)) :
      s.closedEvent = true ∧ t.requestSuccess = true ∧ response = t.response := by
    have hcl := (h.returned response ht).1
    rw [ho] at hcl
    cases hcl
  cases c with
  | handleClosing =>
    cases hc
    exact ⟨h.transmitted,h.sending,h.asked,h.success,h.response,
      fun r hr => ⟨rfl,(h.returned r hr).2⟩⟩
  | sendingRequest certificate queryOption a =>
    simp only [winHttpStatusCallback] at hc
    split_ifs at hc with hv <;> cases hc
    · exact ⟨h.transmitted,fun _ _ ho => absurd ho Bool.false_ne_true,h.asked,h.success,
        h.response,h.returned⟩
    · refine ⟨h.transmitted,fun cert hce _ => ?_,h.asked,h.success,h.response,h.returned⟩
      cases hce
      simp only [validateServerCert,not_and,Bool.not_eq_false,Bool.and_eq_true,decide_eq_true_eq]
        at hv
      exact (hv he).2.2
  | sendRequestComplete receiveResponse =>
    cases hc
    split_ifs
    · exact ⟨h.transmitted,h.sending,h.asked,h.success,h.response,h.returned⟩
    · exact h.close
  | headersAvailable queryHeaders qda =>
    simp only [winHttpStatusCallback] at hc
    split_ifs at hc
    split at hc
    · cases hc
      exact h.close
    · rename_i status
      cases hc
      have hk : 200 ∈ s.statuses → 200 ∈ s.statuses ++ [status] := List.mem_append_left _
      have hre : Safe decode expected { s with statuses := s.statuses ++ [status] } :=
        ⟨h.transmitted,h.sending,fun ha => hk (h.asked ha),
          fun hs => ⟨(h.success hs).1,hk (h.success hs).2⟩,h.response,h.returned⟩
      split_ifs with hst
      · exact ⟨hre.transmitted,hre.sending,fun _ => by simp [hst.1],hre.success,
          hre.response,hre.returned⟩
      · exact hre.close
  | dataAvailable length a readData qda =>
    simp only [winHttpStatusCallback] at hc
    split at hc
    case isFalse => cases hc
    case isTrue ha =>
      by_cases hz : length = 0
      · rw [if_pos hz] at hc
        cases hc
        exact ⟨h.transmitted,fun _ _ ho => absurd ho Bool.false_ne_true,h.asked,
          fun _ => ⟨rfl,h.asked ha.1⟩,h.response,hm _⟩
      · rw [if_neg hz] at hc
        split at hc
        · rename_i data
          have hre : Safe decode expected
              { s with response := s.response ++ data, reads := s.reads ++ [data] } :=
            ⟨h.transmitted,h.sending,h.asked,h.success,by simp [h.response],hm _⟩
          split at hc <;> cases hc
          · split_ifs
            · exact hre
            · exact hre.close
          · exact h.close
        · exact some.inj hc ▸ h.close
  | requestError => exact some.inj hc ▸ h.close
  | secureFailure => exact some.inj hc ▸ h.close
  | other => exact some.inj hc ▸ h

theorem Safe.step {a : Action} (he : expected ≠ []) (h : s.Safe decode expected)
    (ha : s.step decode expected a = some s') : s'.Safe decode expected := by
  cases a with
  | sendRequest success =>
    rw [Request.step] at ha
    split at ha
    · cases ha
      split_ifs
      · exact ⟨h.transmitted,h.sending,h.asked,h.success,h.response,by simp⟩
      · exact ⟨h.transmitted,h.close.sending,h.asked,h.success,h.response,by simp⟩
    · cases ha
  | callback c =>
    rw [Request.step] at ha
    split at ha
    · cases ha
    · exact h.callback he (Bool.eq_false_iff.mpr ‹_›) ha
  | transmit =>
    rw [Request.step] at ha
    split at ha
    · rename_i certificate hse
      split at ha
      · rename_i ho
        cases ha
        refine ⟨fun cert hce => ?_,by simp,h.asked,h.success,h.response,h.returned⟩
        rcases List.mem_append.mp hce with hce | hce
        · exact h.transmitted cert hce
        · exact List.mem_singleton.mp hce ▸ h.sending certificate hse ho
      · cases ha
    · cases ha
  | wait result =>
    simp only [Request.step] at ha
    split at ha
    · have hs : Safe decode expected { s.close with main := .stopping } :=
        ⟨h.transmitted,h.close.sending,h.asked,h.success,h.response,by simp⟩
      split at ha
      · exact some.inj ha ▸ h
      · exact some.inj ha ▸ hs
      · exact some.inj ha ▸ hs
      · split at ha
        · rename_i hc
          cases ha
          refine ⟨h.transmitted,h.close.sending,h.asked,h.success,h.response,fun r hr => ?_⟩
          have hre := Main.returned.inj hr
          split_ifs at hre with hsu
          exact ⟨hc,hsu,(some.inj hre).symm⟩
        · cases ha
    · cases ha
  | stopped =>
    rw [Request.step] at ha
    split at ha
    · cases ha
      exact ⟨h.transmitted,h.sending,h.asked,h.success,h.response,by simp⟩
    · cases ha

theorem safe_start : start.Safe decode expected :=
  ⟨by simp [start],by simp [start],by simp [start],by simp [start],rfl,by simp [start]⟩

/-- A request with an expected certificate is sent only on connections with that certificate, and a
response that is returned was read to its end after the status 200. -/
theorem request_pinned_and_complete (decode : Bytes → Option Bytes) (expected : Bytes)
    (actions : List Action) (s : Request) (hexpected : expected ≠ [])
    (hrun : run (step decode expected) start actions = some s) :
    (∀ certificate ∈ s.transmitted, decode expected = some certificate) ∧
      ∀ response, s.main = .returned (some response) →
        200 ∈ s.statuses ∧ s.ended = true ∧ response = s.reads.flatten := by
  have hsa : s.Safe decode expected :=
    run_invariant (fun _ _ _ h ha => .step hexpected h ha) safe_start hrun
  refine ⟨hsa.transmitted,fun response hr => ?_⟩
  obtain ⟨-,hs,rfl⟩ := hsa.returned response hr
  obtain ⟨he,hst⟩ := hsa.success hs
  exact ⟨hst,he,hsa.response⟩

/-- A request whose response comes in two pieces. -/
def twoPieces : List Action :=
  [.sendRequest true, .callback (.sendingRequest [7] true true), .transmit,
    .callback (.sendRequestComplete true), .callback (.headersAvailable (some 200) true),
    .callback (.dataAvailable 2 true (some [1, 2]) true),
    .callback (.dataAvailable 3 true (some [3]) true), .wait (.timeout false),
    .callback (.dataAvailable 0 true none true), .callback .handleClosing, .wait .signalled]

def decodeBase64 (text : Bytes) : Option Bytes :=
  if text.length % 4 = 0 then some (Base64.decode text) else none

/-- The certificate `[7]` in Base64. -/
def expectedSeven : Bytes := Base64.encode [7]

theorem request_pinned_and_complete_twoPieces :
    ∃ s, run (step decodeBase64 expectedSeven) start twoPieces = some s ∧ s.transmitted = [[7]] ∧
      s.main = .returned (some [1, 2, 3]) ∧ (∀ certificate ∈ s.transmitted,
        decodeBase64 expectedSeven = some certificate) ∧ s.ended = true := by
  have hr : run (step decodeBase64 expectedSeven) start twoPieces =
      some ⟨.returned (some [1,2,3]),false,true,true,[1,2,3],true,true,none,[[7]],[200],true,
        [[1,2],[3]]⟩ := by decide +kernel
  obtain ⟨hp,hc⟩ := request_pinned_and_complete _ expectedSeven twoPieces _ (by decide +kernel) hr
  exact ⟨_,hr,rfl,rfl,hp,(hc [1,2,3] rfl).2.1⟩

end Request

end Psiphon.Client.HttpsRequest
