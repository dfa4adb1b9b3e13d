import Psiphon.Responder.MailProcess

/-!
# Which automatic mail is answered

The test for `MAILER-DAEMON` compares capital letters with an address in lower case, and of several
headers with one name only the first is looked at.
-/

namespace Psiphon.Responder

open List Option

variable {services : Services} {email : Email}

/-! ### The tests -/

theorem toLower_ne_M (c : Char) : c.toLower ≠ 'M' := by
  intro h
  obtain ⟨hl,-⟩ | ⟨hs,hu⟩ := toLower_range c
  · rw [h] at hl
    exact absurd hl (by decide)
  · rw [← hs,h] at hu
    exact hu (by decide)

/-- No address in lower case starts with capital letters. -/
theorem startsWith_daemon (a : Text) : startsWith (lower a) "MAILER-DAEMON" = false := by
  have hc : "MAILER-DAEMON".toList = 'M' :: "AILER-DAEMON".toList := by decide +kernel
  rw [startsWith,hc]
  cases a with
  | nil => rfl
  | cons c a =>
    have hne : ('M' == c.toLower) = false := beq_eq_false_iff_ne.mpr (toLower_ne_M c).symm
    rw [lower,map_cons,isPrefixOf_cons_cons,hne,Bool.false_and]

theorem checkRequester_eq_ok_iff {a : Text} : checkRequester a = .ok () ↔
      a ∉ sesAddresses ∧ ∀ start ∈ noReplyStarts, startsWith (lower a) start = false := by
  rw [checkRequester,startsWith_daemon]
  by_cases hses : a ∈ sesAddresses
  · rw [if_pos (contains_iff_mem.mpr hses)]
    exact ⟨fun h => (by cases h),fun h => absurd hses h.1⟩
  · rw [if_neg (mt contains_iff_mem.mp hses),if_neg Bool.false_ne_true]
    by_cases hs : noReplyStarts.any (startsWith (lower a)) = true
    · rw [if_pos hs]
      obtain ⟨start,hst,ht⟩ := any_eq_true.mp hs
      refine ⟨fun h => (by cases h),fun h => ?_⟩
      rw [h.2 start hst] at ht
      cases ht
    · rw [if_neg hs]
      refine ⟨fun _ => ⟨hses,fun start hst => ?_⟩,fun _ => rfl⟩
      exact Bool.eq_false_iff.mpr fun ht => hs (any_eq_true.mpr ⟨start,hst,ht⟩)

/-- The tests for bulk mail, apart from the signs of automatic mail. -/
structure NotBulk (services : Services) (email : Email) : Prop where
  listId : present services email "List-ID" = false
  listUnsubscribe : present services email "List-Unsubscribe" = false
  precedence : ∀ value ∈ ["junk", "list", "bulk"],
    headerIs services email "Precedence" value = false
  preference : headerIs services email "Preference" "auto_reply" = false
  machineGenerated : headerIs services email "X-FC-MachineGenerated" "true" = false
  messageClass : mentionsAuto services email "X-POST-MessageClass" = some false
  deliveredTo : mentionsAuto services email "Delivered-To" = some false
  suppress : headerIs services email "X-Auto-Response-Suppress" "All" = false

theorem autoBulk_eq_some_false_iff : autoBulk services email = some false ↔ NotBulk services email ∧
      autoSubmitted services email = false ∧
      ∀ name ∈ autoHeaders, decodes services email name = false := by
  rw [autoBulk]
  constructor
  · intro h
    split at h
    · cases h
    · rename_i hs
      split at h
      · cases h
      · cases h
      · rename_i hc
        split at h
        · cases h
        · cases h
        · rename_i hd
          simp only [Bool.or_eq_true,not_or,Bool.not_eq_true] at hs
          obtain ⟨⟨⟨⟨⟨⟨⟨⟨⟨⟨⟨⟨hid,hu⟩,hj⟩,hl⟩,hb⟩,ha⟩,hpr⟩, hre⟩,hg⟩,hr⟩,hm⟩,hmachine⟩,hrep⟩ := hs
          refine ⟨⟨hid,hu,?_,hpr,hmachine,hc,hd, some.inj h⟩,ha,?_⟩
          · simp [hj,hl,hb]
          · simp [autoHeaders,hre,hg,hr,hm,hrep]
  · rintro ⟨hb,ha,hh⟩
    simp only [autoHeaders,forall_mem_cons,not_mem_nil,false_imp_iff,implies_true,and_true] at hh
    obtain ⟨hre,hg,hr,hm,hrep⟩ := hh
    have hp := hb.precedence
    simp only [forall_mem_cons,not_mem_nil,false_imp_iff,implies_true,and_true] at hp
    obtain ⟨hj,hl,hb'⟩ := hp
    simp only [hb.listId,hb.listUnsubscribe,hj,hl,hb',ha,hb.preference,
      hre,hg,hr,hm,hb.machineGenerated,hrep,Bool.or_self,
      Bool.false_eq_true,if_false,hb.messageClass,hb.deliveredTo,hb.suppress]

/-! ### Signs of automatic mail -/

/-- The email is automatic: by its address, by a header that has to be there, by a header
`Auto-Submitted`, or because it has the headers of a response. -/
def Automatic (services : Services) (email : Email) : Prop :=
  (∃ address, requesterAddress services email = some address ∧
    ∃ start ∈ "mailer-daemon" :: noReplyStarts, startsWith (lower address) start = true) ∨
  (∃ header ∈ email.headers, ∃ name ∈ autoHeaders, lower header.1 = lower name.toList) ∨
  (∃ header ∈ email.headers, lower header.1 = lower "Auto-Submitted".toList ∧
    decodeHeader services (some header.2) ≠ some "no".toList) ∨
  ∃ sender request raw,
    createRawEmail { services with responseFromAddr := sender } request = some raw ∧
      ∀ header ∈ raw, header ∈ email.headers

/-- One of the signs is recognised: the address is one of SES or starts in one of four ways, the
first header of a name has a value that decodes, or the first `Auto-Submitted` does not decode to
`no`. -/
def Recognised (services : Services) (email : Email) : Prop :=
  (∃ address, requesterAddress services email = some address ∧ (address ∈ sesAddresses ∨
    ∃ start ∈ noReplyStarts, startsWith (lower address) start = true)) ∨
  (∃ name ∈ autoHeaders, (decodeHeader services (email.header name)).isSome = true) ∨
  ∃ value, email.header "Auto-Submitted" = some value ∧
    decodeHeader services (some value) ≠ some "no".toList

/-- Nothing else keeps the email, from this requester to this address, from being answered. -/
structure Answerable (services : Services) (conf : List ConfItem) (email : Email)
    (requested requester : Text) : Prop where
  originalTo : present services email "X-Original-To" = true
  requestedAddress : requestedAddress services email = some requested
  noComplaint : stripEmail (some services.complaintsAddress) ≠ some (lower requested)
  requesterAddress : requesterAddress services email = some requester
  notBulk : NotBulk services email
  noSpam : present services email "X-Spam-Flag" = false
  dkim : checkDkim services email = .ok ()
  allowed : services.checkBlacklist requester = some true
  configured : ∃ item items, conf.filter (·.emailAddr = lower requested) = item :: items ∧
    item.prepared = true
  encodes : createRawEmail services (makeRequest services email requested requester) ≠ none

theorem autoSubmitted_eq_false_iff :
    autoSubmitted services email = false ↔ ¬ ∃ value, email.header "Auto-Submitted" = some value ∧
      decodeHeader services (some value) ≠ some "no".toList := by
  have hno : decodeHeader services (some "no".toList) = some "no".toList :=
    services.decode_plain _ (by decide +kernel)
  rw [autoSubmitted]
  cases email.header "Auto-Submitted" with
  | none =>
    rw [getD_none,hno]
    exact ⟨fun _ ⟨_,hv,_⟩ => (by cases hv),fun _ => decide_eq_false fun h => h rfl⟩
  | some value =>
    rw [getD_some,decide_eq_false_iff_not]
    refine not_congr ⟨fun h => ⟨value,rfl,h⟩,fun ⟨value',hv,h⟩ => ?_⟩
    rwa [some.inj hv]

theorem not_recognised_iff {requester : Text}
    (hr : requesterAddress services email = some requester) :
    ¬ Recognised services email ↔ checkRequester requester = .ok () ∧
      autoSubmitted services email = false ∧
      ∀ name ∈ autoHeaders, decodes services email name = false := by
  have ha : (¬ ∃ a, requesterAddress services email = some a ∧
      (a ∈ sesAddresses ∨ ∃ start ∈ noReplyStarts, startsWith (lower a) start = true)) ↔
      requester ∉ sesAddresses ∧
        ∀ start ∈ noReplyStarts, startsWith (lower requester) start = false := by
    rw [hr]
    constructor
    · intro h
      refine ⟨fun hses => h ⟨requester,rfl,.inl hses⟩,fun start hst => ?_⟩
      exact Bool.eq_false_iff.mpr fun ht => h ⟨requester,rfl,.inr ⟨start,hst,ht⟩⟩
    · rintro ⟨hses,hs⟩ ⟨a,ha,h | ⟨start,hst,ht⟩⟩
      · exact hses (some.inj ha ▸ h)
      · rw [← some.inj ha,hs start hst] at ht
        cases ht
  have hh : (¬ ∃ name ∈ autoHeaders, (decodeHeader services (email.header name)).isSome = true) ↔
      ∀ name ∈ autoHeaders, decodes services email name = false := by
    refine ⟨fun h name hn => ?_,fun h ⟨name,hn,ht⟩ => ?_⟩
    · exact Bool.eq_false_iff.mpr fun ht => h ⟨name,hn,ht⟩
    · exact Bool.false_ne_true ((h name hn).symm.trans ht)
  rw [checkRequester_eq_ok_iff,autoSubmitted_eq_false_iff,← ha,← hh,Recognised,not_or,not_or]
  exact ⟨fun ⟨h,h',h''⟩ => ⟨h,h'',h'⟩,fun ⟨h,h',h''⟩ => ⟨h,h'',h'⟩⟩

theorem checkHeaders_eq_ok_iff :
    checkHeaders services email = .ok () ↔ autoBulk services email = some false ∧
      present services email "X-Spam-Flag" = false ∧ checkDkim services email = .ok () := by
  unfold checkHeaders
  generalize autoBulk services email = bulk
  generalize present services email "X-Spam-Flag" = spam
  cases bulk with
  | none => simp
  | some bulk =>
    cases bulk with
    | true => simp
    | false => cases spam <;> simp

/-- An email is parsed when it passes the tests of its addresses and of its headers. -/
theorem parseEmail_eq_ok_iff {request : Request} :
    parseEmail services email = .ok request ↔ ∃ r requester,
      present services email "X-Original-To" = true ∧ requestedAddress services email = some r ∧
      stripEmail (some services.complaintsAddress) ≠ some (lower r) ∧
      requesterAddress services email = some requester ∧
      checkRequester requester = .ok () ∧ checkHeaders services email = .ok () ∧
      request = makeRequest services email r requester := by
  rw [parseEmail]
  cases hpresent : present services email "X-Original-To" with
  | false => simp
  | true =>
    cases hrequested : requestedAddress services email with
    | none => simp
    | some r =>
      by_cases hc : stripEmail (some services.complaintsAddress) = some (lower r)
      · simp [hc]
      · cases hrequester : requesterAddress services email with
        | none => simp [hc]
        | some requester =>
          cases hch : checkRequester requester with
          | error reason => simp [hc,hch,bind,Except.bind]
          | ok u =>
            cases hheaders : checkHeaders services email with
            | error reason => simp [hc,hch,bind,Except.bind]
            | ok v =>
              simp only [hc,hch,bind,Except.bind,pure,Except.pure,Bool.not_true,
                Bool.false_eq_true,if_false,Except.ok.injEq,some.injEq]
              refine ⟨fun h => ⟨r,requester,trivial,rfl,hc,rfl,hch,trivial, h.symm⟩,?_⟩
              rintro ⟨_,_,-,rfl,-,rfl,-,-,h⟩
              exact h.symm

/-- For a request that is allowed, responses are sent when the first of them can be made. -/
theorem sendResponses_ne_nil_iff {r : Request} {item : ConfItem} {items : List ConfItem} :
    sendResponses services r (item :: items) ≠ [] ↔
      item.prepared = true ∧ createRawEmail services r ≠ none := by
  rw [sendResponses]
  cases item.prepared with
  | false => simp
  | true =>
    cases createRawEmail services r with
    | none => simp
    | some raw => cases item.ses <;> cases item.sending <;> simp

/-- An email is answered when no sign of automatic mail is recognised in it, and nothing else keeps
it from being answered. -/
theorem processEmail_ne_nil_iff {conf : List ConfItem} :
    processEmail services conf email ≠ [] ↔ ¬ Recognised services email ∧
      ∃ r requester, Answerable services conf email r requester := by
  constructor
  · intro h
    rw [processEmail] at h
    split at h
    · exact absurd rfl h
    · rename_i request hpa
      obtain ⟨r,requester,hto,hre,hc,hr,hch,hh,rfl⟩ :=
        parseEmail_eq_ok_iff.mp hpa
      obtain ⟨hau,hsp,hd⟩ := checkHeaders_eq_ok_iff.mp hh
      obtain ⟨hb,hs,hsi⟩ := autoBulk_eq_some_false_iff.mp hau
      refine ⟨(not_recognised_iff hr).mpr ⟨hch,hs,hsi⟩,r,requester,?_⟩
      split at h
      · exact absurd rfl h
      · rename_i item items hi
        split at h
        · rename_i hal
          obtain ⟨hp,he⟩ := sendResponses_ne_nil_iff.mp h
          exact ⟨hto,hre,hc,hr,hb,hsp,hd,hal, ⟨item,items,hi,hp⟩,he⟩
        · exact absurd rfl h
  · rintro ⟨hsi,r,requester,ha⟩
    obtain ⟨hch,hs,hn⟩ := (not_recognised_iff ha.requesterAddress).mp hsi
    have hau := autoBulk_eq_some_false_iff.mpr ⟨ha.notBulk,hs,hn⟩
    have hh := checkHeaders_eq_ok_iff.mpr ⟨hau,ha.noSpam,ha.dkim⟩
    have hpa := parseEmail_eq_ok_iff.mpr ⟨r,requester,ha.originalTo,
      ha.requestedAddress,ha.noComplaint,ha.requesterAddress,hch,
      hh,rfl⟩
    obtain ⟨item,items,hi,hp⟩ := ha.configured
    have hal : services.checkBlacklist
        (makeRequest services email r requester).requesterAddr = some true :=
      ha.allowed
    have hco : conf.filter (·.emailAddr = (makeRequest services email r requester).requestedAddr) =
        item :: items := hi
    simp only [processEmail,hpa,hco,hal]
    exact sendResponses_ne_nil_iff.mpr ⟨hp,ha.encodes⟩

/-- Automatic mail is left without a response exactly when one of its signs is recognised, or
something else keeps it from being answered. -/
theorem not_answered_iff_recognised (services : Services) (conf : List ConfItem) (email : Email) :
    (Automatic services email → processEmail services conf email = []) ↔
      (Automatic services email → Recognised services email ∨
        ∀ requested requester, ¬ Answerable services conf email requested requester) := by
  refine imp_congr_right fun _ => ?_
  rw [← not_iff_not,← ne_eq,processEmail_ne_nil_iff]
  simp

/-! ### What is recognised of the signs -/

theorem header_eq_of_all {name : String} {value : Text} (hm : ∃ header ∈ email.headers,
    lower header.1 = lower name.toList)
    (ha : ∀ header ∈ email.headers, lower header.1 = lower name.toList → header.2 = value) :
    email.header name = some value := by
  cases hf : email.headers.find? fun header => lower header.1 = lower name.toList with
  | none =>
    obtain ⟨header,hh,hn⟩ := hm
    exact absurd (decide_eq_true hn) (List.find?_eq_none.mp hf header hh)
  | some header =>
    have hn := List.find?_some hf
    simp only [decide_eq_true_eq] at hn
    rw [Email.header,hf,map_some,ha header (mem_of_find?_eq_some hf) hn]

/-- Every response says what it is. -/
theorem autoSubmitted_mem_createRawEmail {r : Request} {raw : List (Text × Text)}
    (h : createRawEmail services r = some raw) : ∃ value, ("Auto-Submitted".toList, value) ∈ raw ∧
        services.encodeUtf8 "auto-replied".toList = some value := by
  obtain ⟨recipient,-,h⟩ := bind_eq_some_iff.mp h
  obtain ⟨sender,-,h⟩ := bind_eq_some_iff.mp h
  obtain ⟨s,-,h⟩ := bind_eq_some_iff.mp h
  obtain ⟨rt,-,h⟩ := bind_eq_some_iff.mp h
  obtain ⟨value,hv,h⟩ := bind_eq_some_iff.mp h
  refine ⟨value,?_,hv⟩
  have hmem : ∀ rest, ("Auto-Submitted".toList, value) ∈ [("To".toList, recipient),
      ("From".toList, sender),("Subject".toList, s),("Reply-To".toList, rt),
      ("Auto-Submitted".toList, value)] ++ rest :=
    fun rest => mem_append_left _ (mem_of_mem_getLast? rfl)
  cases hm : r.requesterMsgid with
  | none =>
    rw [hm] at h
    exact some.inj h ▸ hmem _
  | some msgid =>
    rw [hm] at h
    obtain ⟨reference,-,h⟩ := bind_eq_some_iff.mp h
    exact some.inj h ▸ hmem _

/-- An email with the headers of a response is recognised, unless it has another value of the header
as well. -/
theorem recognised_of_carries {s : Text} {r : Request} {raw : List (Text × Text)}
    (h : createRawEmail { services with responseFromAddr := s } r = some raw)
    (hc : ∀ header ∈ raw, header ∈ email.headers)
    (hs : ∀ header ∈ email.headers, ∀ header' ∈ email.headers,
      lower header.1 = lower "Auto-Submitted".toList →
      lower header'.1 = lower "Auto-Submitted".toList → header.2 = header'.2) :
    Recognised services email := by
  obtain ⟨value,hmem,he⟩ := autoSubmitted_mem_createRawEmail h
  have hh : email.header "Auto-Submitted" = some value :=
    header_eq_of_all ⟨_,hc _ hmem,rfl⟩ fun header hh hn => hs header hh _ (hc _ hmem) hn rfl
  -- The receiver reads what the sender wrote.
  have hd : decodeHeader services (some value) = some "auto-replied".toList :=
    services.decode_encodeUtf8 _ value he
  refine .inr (.inr ⟨value,hh,?_⟩)
  rw [hd]
  decide +kernel

/-! ### Sample emails -/

def sampleServices : Services where
  decodeWords value := if '=' ∈ value then none else some value
  encodeAscii value := some value
  encodeUtf8 value := if '=' ∈ value then none else some value
  decode_encodeUtf8 value encoded h := by
    split at h
    · cases h
    · rename_i hplain
      obtain rfl := some.inj h
      cases value with
      | nil => rfl
      | cons c value => exact if_neg hplain
  decode_plain value hplain := by
    cases value with
    | nil => rfl
    | cons c value => exact if_neg hplain
  parseAuthResults _ := some (some "pass".toList)
  dkimVerify _ := true
  complaintsAddress := "complaints@psiphon3.com".toList
  responseFromAddr := "get@psiphon3.com".toList
  forwards := true
  checkBlacklist _ := some true

def sampleConf : List ConfItem := [⟨"get@psiphon3.com".toList, false, true, .sent⟩]

def sampleEmail (sender : String) (headers : List (Text × Text)) : Email :=
  ⟨[("X-Original-To".toList, "get@psiphon3.com".toList), ("From".toList, sender.toList)] ++ headers⟩

def sampleRequest : Request :=
  ⟨"get@psiphon3.com".toList, "other@example.com".toList, "Re: ".toList, none⟩

theorem not_answered_response : ∃ raw, createRawEmail sampleServices sampleRequest = some raw ∧
    processEmail sampleServices sampleConf (sampleEmail "get@psiphon3.com" raw) = [] := by
  have hr := (Option.some_get (x := createRawEmail sampleServices sampleRequest)
    (by decide +kernel)).symm
  refine ⟨_,hr,(not_answered_iff_recognised sampleServices sampleConf _).mpr ?_ ?_⟩
  · refine fun _ => .inl (recognised_of_carries hr (fun header hh => ?_) ?_)
    · exact mem_append_right _ hh
    · decide +kernel
  · refine .inr (.inr (.inr ⟨_,sampleRequest,_,hr,fun header hh => ?_⟩))
    exact mem_append_right _ hh

/-- A bounce of another mail server is answered. -/
theorem answered_daemon :
    Automatic sampleServices (sampleEmail "MAILER-DAEMON@example.com" []) ∧
      processEmail sampleServices sampleConf (sampleEmail "MAILER-DAEMON@example.com" []) ≠ [] := by
  refine ⟨.inl ⟨"MAILER-DAEMON@example.com".toList,?_,"mailer-daemon",(.head _),?_⟩,?_⟩
  · decide +kernel
  · decide +kernel
  · decide +kernel

end Psiphon.Responder
