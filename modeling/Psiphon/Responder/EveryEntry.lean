import Psiphon.Responder.NoAutoReply
import Psiphon.Lib.Fallible

/-!
# The entries of the mail responder

`process_email` catches a `BotoServerError` of a sending through SES and nothing else.
-/

namespace Psiphon.Responder

open List
open Fallible (bind_eq_ok_iff)

inductive Raised where
  | botoServerError (errorMessage : String)
  | other (name : String)
  deriving DecidableEq, Repr

structure Entry where
  emailAddr : Text
  /-- Each should be a bucket, a name in it and the name of the attachment. -/
  attachments : List (List Text)
  /-- The empty text if there is none, and `none` for what is not a text. -/
  sendMethod : Option Text
  deriving DecidableEq

/-- What the library calls for an entry return or raise. -/
structure Calls where
  getS3Attachment : Text × Text × Text → Except Raised Unit
  createRawEmail : Except Raised Text
  dkimSign : Except Raised Text
  smtpConnect : Except Raised Unit
  smtpSendmail : Except Raised Unit
  smtpQuit : Except Raised Unit
  sesConnect : Except Raised Unit
  sesSendRawEmail : Except Raised Unit

/-- How the body of the loop ends. -/
inductive Turn where
  | sent
  /-- `full_success = False`, perhaps with an exception to raise -/
  | failed (toRaise : Option Raised)
  | returnsFalse
  deriving DecidableEq, Repr

/-- `send_method.upper() == 'SES'` -/
def isSes (sendMethod : Text) : Bool := sendMethod.map Char.toUpper = "SES".toList

namespace Calls

/-- An attachment is unpacked and fetched. -/
def attach (calls : Calls) : List Text → Except Raised Unit
  | [bucketname, bucketFilename, attachmentFilename] =>
    calls.getS3Attachment (bucketname, bucketFilename, attachmentFilename)
  | _ => .error (.other "ValueError")

/-- Only the exceptions of the connection are caught. -/
def sendRawEmailSmtp (calls : Calls) : Except Raised Bool :=
  match calls.smtpConnect with
  | .error _ => .ok false
  | .ok _ => do
    calls.smtpSendmail
    calls.smtpQuit
    return true

def sendRawEmailAmazonses (calls : Calls) : Except Raised Bool := do
  calls.sesConnect
  calls.sesSendRawEmail
  return true

/-- The turn of an entry, once its email is written. -/
def send (calls : Calls) : Bool → Except Raised Turn
  | true =>
    match calls.sendRawEmailAmazonses with
    | .ok sent => return if sent then .sent else .returnsFalse
    | .error (.botoServerError message) =>
      return .failed
        (if message = "Address blacklisted." then none else some (.botoServerError message))
    | .error ex => .error ex
  | false => do
    let _ ← calls.dkimSign
    let sent ← calls.sendRawEmailSmtp
    return if sent then .sent else .failed none

end Calls

def Entry.turn (entry : Entry) (calls : Calls) : Except Raised Turn := do
  entry.attachments.forM calls.attach
  let raw ← calls.createRawEmail
  if raw = [] then return .failed none
  match entry.sendMethod with
  | none => .error (.other "AttributeError")
  | some method => calls.send (isSes method)

/-- The loop: the entries that had their turn, and what it returns or raises. -/
def respond : List (Entry × Calls) → Bool → Option Raised → List Entry × Except Raised Bool
  | [], fullSuccess, none => ([], .ok fullSuccess)
  | [], _, some ex => ([], .error ex)
  | (entry, calls) :: rest, fullSuccess, toRaise =>
    match entry.turn calls with
    | .error ex => ([entry], .error ex)
    | .ok .returnsFalse => ([entry], .ok false)
    | .ok .sent => (respond rest fullSuccess toRaise).map (entry :: ·) id
    | .ok (.failed ex) => (respond rest false (ex.or toRaise)).map (entry :: ·) id

variable (services : Services)

/-- The entries for the address of a request, with the calls made for each. -/
def matching (conf : List Entry) (calls : ℕ → Calls) (request : Request) : List (Entry × Calls) :=
  (conf.filter (·.emailAddr = request.requestedAddr)).zipIdx.map fun t => (t.1, calls t.2)

/-- `process_email`, with the exceptions of the check for the blacklist left out. -/
def handleEmail (conf : List Entry) (calls : ℕ → Calls) (email : Email) :
    List Entry × Except Raised Bool :=
  match parseEmail services email with
  | .error _ => ([], .ok false)
  | .ok request =>
    match matching conf calls request with
    | [] => ([], .ok false)
    | first :: rest =>
      if services.checkBlacklist request.requesterAddr = some true then
        respond (first :: rest) true none
      else ([], .ok false)

/-! ### The turn of an entry -/

section Turn

/-- A call that succeeds or fails as the loop expects. -/
def BotoOnly (result : Except Raised Unit) : Prop :=
  result = .ok () ∨ ∃ message, result = .error (.botoServerError message)

/-- A turn, or a part of it, by what is raised, what is caught and what succeeds. -/
def Ends (result : Except Raised Turn) (caught sent : Prop) : Prop :=
  (∃ ex, result = .error ex ∧ ¬caught ∧ ¬sent) ∨
  (∃ ex, result = .ok (.failed ex) ∧ caught ∧ ¬sent) ∨
    result = .ok .sent ∧ caught ∧ sent

namespace Calls

variable (c : Calls)

/-- All attachments are triples that can be fetched. -/
def Fetches (attachments : List (List Text)) : Prop :=
  ∀ attachment ∈ attachments, ∃ bucketname bucketFilename attachmentFilename,
    attachment = [bucketname, bucketFilename, attachmentFilename] ∧
      c.getS3Attachment (bucketname, bucketFilename, attachmentFilename) = .ok ()

/-- What may fail in a sending without keeping later entries from their turn. -/
def SendingCaught : Bool → Prop
  | true => BotoOnly c.sesConnect ∧ (c.sesConnect = .ok () → BotoOnly c.sesSendRawEmail)
  | false => (∃ signed, c.dkimSign = .ok signed) ∧
    ((∃ ex, c.smtpConnect = .error ex) ∨ c.smtpSendmail = .ok () ∧ c.smtpQuit = .ok ())

def SendingSucceeds : Bool → Prop
  | true => c.sesConnect = .ok () ∧ c.sesSendRawEmail = .ok ()
  | false => (∃ signed, c.dkimSign = .ok signed) ∧
    c.smtpConnect = .ok () ∧ c.smtpSendmail = .ok () ∧ c.smtpQuit = .ok ()

theorem attach_eq_ok_iff {attachment : List Text} : c.attach attachment = .ok () ↔
    ∃ bucketname bucketFilename attachmentFilename,
      attachment = [bucketname, bucketFilename, attachmentFilename] ∧
        c.getS3Attachment (bucketname, bucketFilename, attachmentFilename) = .ok () := by
  unfold attach
  split
  · simp
  · rename_i hne
    refine iff_of_false nofun ?_
    rintro ⟨b,f,n,rfl,-⟩
    exact hne b f n rfl

theorem forM_attach_iff {attachments : List (List Text)} :
    attachments.forM c.attach = .ok () ↔ c.Fetches attachments := by
  induction attachments with
  | nil => exact iff_of_true rfl nofun
  | cons a rest ih =>
    rw [Fetches,forall_mem_cons,← attach_eq_ok_iff,← Fetches,← ih]
    refine bind_eq_ok_iff.trans ⟨?_,fun h => ⟨(),h⟩⟩
    rintro ⟨⟨⟩,h⟩
    exact h

/-- A sending raises, fails, or succeeds. -/
theorem send_ends (ses : Bool) :
    Ends (c.send ses) (c.SendingCaught ses) (c.SendingSucceeds ses) := by
  cases ses with
  | true =>
    rcases hc : c.sesConnect with (_ | _) | _ <;> rcases hs : c.sesSendRawEmail with (_ | _) | _ <;>
      simp [Ends,send,sendRawEmailAmazonses,SendingCaught,SendingSucceeds,BotoOnly,hc,hs,
        bind,Except.bind,pure,Except.pure]
  | false =>
    rcases hd : c.dkimSign with _ | _ <;> rcases hc : c.smtpConnect with _ | _ <;>
      rcases hs : c.smtpSendmail with _ | _ <;> rcases hq : c.smtpQuit with _ | _ <;>
      simp [Ends,send,sendRawEmailSmtp,SendingCaught,SendingSucceeds,hd,hc,hs,hq,
        bind,Except.bind,pure,Except.pure]

end Calls

namespace Entry

variable (entry : Entry) (c : Calls)

/-- No exception leaves the turn of the entry. -/
def Caught : Prop :=
  c.Fetches entry.attachments ∧ ∃ raw, c.createRawEmail = .ok raw ∧ (raw ≠ [] →
    ∃ method, entry.sendMethod = some method ∧ c.SendingCaught (isSes method))

/-- The email of the entry is sent. -/
def Sent : Prop :=
  c.Fetches entry.attachments ∧ ∃ raw, c.createRawEmail = .ok raw ∧ raw ≠ [] ∧
    ∃ method, entry.sendMethod = some method ∧ c.SendingSucceeds (isSes method)

theorem turn_ends : Ends (entry.turn c) (entry.Caught c) (entry.Sent c) := by
  rw [turn,Caught,Sent,← c.forM_attach_iff]
  cases entry.attachments.forM c.attach with
  | error ex => exact .inl ⟨ex,rfl,by simp,by simp⟩
  | ok _ =>
    cases c.createRawEmail with
    | error ex => exact .inl ⟨ex,rfl,by simp,by simp⟩
    | ok raw =>
      by_cases hr : raw = []
      · exact .inr (.inl ⟨none,by simp [hr],by simp [hr],by simp [hr]⟩)
      · cases entry.sendMethod with
        | none => exact .inl ⟨.other "AttributeError",by simp [hr],by simp [hr],by simp⟩
        | some method =>
          obtain ⟨ex,h,hc,hs⟩ | ⟨ex,h,hc,hs⟩ | ⟨h,hc,hs⟩ := c.send_ends (isSes method)
          · exact .inl ⟨ex,by simp [hr,h],by simp [hr,hc],by simp [hs]⟩
          · exact .inr (.inl ⟨ex,by simp [hr,h],by simp [hc],by simp [hs]⟩)
          · exact .inr (.inr ⟨by simp [hr,h],by simp [hc],by simp [hr,hs]⟩)

end Entry

end Turn

/-! ### The loop -/

section Loop

variable {tries : List (Entry × Calls)} {fullSuccess : Bool} {toRaise : Option Raised}

theorem respond_fst_iff : (respond tries fullSuccess toRaise).1 = tries.map Prod.fst ↔
    ∀ t ∈ tries.dropLast, t.1.Caught t.2 := by
  induction tries generalizing fullSuccess toRaise with
  | nil => cases toRaise <;> simp [respond]
  | cons t rest ih =>
    obtain ⟨entry,c⟩ := t
    have hr (hc : entry.Caught c) : (∀ t ∈ ((entry,c) :: rest).dropLast, t.1.Caught t.2) ↔
        ∀ t ∈ rest.dropLast, t.1.Caught t.2 := by
      rcases rest with _ | ⟨next,rest⟩ <;> simp [hc]
    rw [respond]
    obtain ⟨ex,h,hc,-⟩ | ⟨ex,h,hc,-⟩ | ⟨h,hc,-⟩ := entry.turn_ends c
    · rcases rest with _ | ⟨next,rest⟩ <;> simp [h,hc]
    · simp only [h,hr hc,Prod.map_fst,map_cons,List.cons.injEq,true_and,ih]
    · simp only [h,hr hc,Prod.map_fst,map_cons,List.cons.injEq,true_and,ih]

theorem respond_snd_iff : (respond tries fullSuccess toRaise).2 = .ok true ↔
    fullSuccess = true ∧ toRaise = none ∧ ∀ t ∈ tries, t.1.Sent t.2 := by
  induction tries generalizing fullSuccess toRaise with
  | nil => cases toRaise <;> simp [respond]
  | cons t rest ih =>
    obtain ⟨entry,c⟩ := t
    rw [respond,forall_mem_cons]
    obtain ⟨ex,h,-,hs⟩ | ⟨ex,h,-,hs⟩ | ⟨h,-,hs⟩ := entry.turn_ends c <;> simp [h,hs,ih]

end Loop

/-- Every entry has its turn, once and in order, exactly when no exception but a `BotoServerError`
of SES comes before the last. The result is `True` exactly when all were sent. -/
theorem every_entry_tried_iff (conf : List Entry) (calls : ℕ → Calls) (email : Email)
    (request : Request) (haccepted : parseEmail services email = .ok request)
    (hallowed : services.checkBlacklist request.requesterAddr = some true)
    (hmatches : matching conf calls request ≠ []) :
    ((handleEmail services conf calls email).1 =
        conf.filter (·.emailAddr = request.requestedAddr) ↔
      ∀ t ∈ (matching conf calls request).dropLast, t.1.Caught t.2) ∧
    ((handleEmail services conf calls email).2 = .ok true ↔
      ∀ t ∈ matching conf calls request, t.1.Sent t.2) := by
  have he : conf.filter (·.emailAddr = request.requestedAddr) =
      (matching conf calls request).map Prod.fst := by
    rw [matching,map_map]
    exact (zipIdx_map_fst ..).symm
  obtain ⟨first,rest,hm⟩ := exists_cons_of_ne_nil hmatches
  simp only [handleEmail,haccepted,he,hm,hallowed,if_true,respond_fst_iff,respond_snd_iff,
    true_and,and_self]

/-- Every call succeeds but those for attachments. -/
def callsWith (attachment : Except Raised Unit) : Calls :=
  ⟨fun _ => attachment, .ok ['m'], .ok ['s'], .ok (), .ok (), .ok (), .ok (), .ok ()⟩

def twoEntries : List Entry :=
  [⟨"get@psiphon3.com".toList, [[[], [], []]], some "ses".toList⟩,
    ⟨"get@psiphon3.com".toList, [], some []⟩]

theorem every_entry_tried_allSent :
    (handleEmail sampleServices twoEntries (fun _ => callsWith (.ok ()))
      (sampleEmail "other@example.com" [])).1 = twoEntries := by
  refine (every_entry_tried_iff sampleServices twoEntries (fun _ => callsWith (.ok ())) _
    sampleRequest rfl rfl nofun).1.mpr ?_
  refine forall_mem_singleton.mpr
    ⟨forall_mem_singleton.mpr ⟨[],[],[],rfl,rfl⟩,['m'],rfl,fun _ => ?_⟩
  exact ⟨"ses".toList,rfl,.inl rfl,fun _ => .inl rfl⟩

/-- An attachment of the first entry cannot be fetched, and the second entry is never tried. -/
theorem second_entry_not_tried :
    handleEmail sampleServices twoEntries (fun _ => callsWith (.error (.other "S3ResponseError")))
      (sampleEmail "other@example.com" []) =
        (twoEntries.take 1, .error (.other "S3ResponseError")) := rfl

end Psiphon.Responder
