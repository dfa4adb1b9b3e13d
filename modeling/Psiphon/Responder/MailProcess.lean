import Psiphon.Responder.Blacklist

/-!
# The mail responder

`process_email` of `mail_process.py`, with the headers that `sendmail.py` writes.
-/

namespace Psiphon.Responder

/-! ### Addresses -/

/-- The ways to match one or more characters of a class, the longest first: what is matched, and the
rest. -/
def greedy (p : Char → Bool) (text : Text) : List (Text × Text) :=
  (List.range (text.takeWhile p).length).reverse.map fun k => (text.take (k + 1), text.drop (k + 1))

def one (c : Char) : Text → List Text
  | [] => []
  | d :: rest => if d = c then [rest] else []

def isDomainChar (c : Char) : Bool := c.isAlphanum || c = '+' || c = '.' || c = '-'

def isLocalChar (c : Char) : Bool := isDomainChar c || c = '_'

/-- The group of the regular expression that is the address. -/
def addressAt (text : Text) : List (Text × Text) :=
  (greedy isLocalChar text).flatMap fun (before, rest) =>
  (one '@' rest).flatMap fun rest =>
  (greedy isDomainChar rest).flatMap fun (domain, rest) =>
  (one '.' rest).flatMap fun rest =>
  (greedy isDomainChar rest).map fun (top, rest) => (before ++ '@' :: domain ++ '.' :: top, rest)

/-- `[^>]*$` -/
def closes (rest : Text) : Bool := rest.all (· ≠ '>')

/-- A match that starts here, with an angle bracket if there is one. -/
def matchHere (text : Text) : List Text :=
  let bracketed := match text with
    | '<' :: rest => (addressAt rest).filterMap fun (address, rest) =>
      match rest with
      | '>' :: rest => if closes rest then some address else none
      | _ => none
    | _ => []
  bracketed ++ (addressAt text).filterMap fun (address, rest) =>
    if closes rest then some address else none

/-- `re.match` with `.*?` before the address, which does not match a line break -/
def searchAddress : Text → Option Text
  | [] => none
  | c :: text =>
    match matchHere (c :: text) with
    | address :: _ => some address
    | [] => if c = '\n' then none else searchAddress text

/-- `strip_email`: `none` is `False`. -/
def stripEmail : Option Text → Option Text
  | none => none
  | some text => searchAddress text

/-! ### Headers -/

/-- `email.message_from_string`, as far as headers go. -/
structure Email where
  headers : List (Text × Text)

/-- `email[name]` is the first header with the name, in whatever letter case. -/
def Email.header (email : Email) (name : String) : Option Text :=
  (email.headers.find? fun header => lower header.1 = lower name.toList).map Prod.snd

/-- `decode_header` of `mail_process.py`, with the decoder of the library. -/
def decodeWith (decodeWords : Text → Option Text) : Option Text → Option Text
  | none => none
  | some [] => some []
  | some value => decodeWords value

structure Services where
  /-- The decoded words of a header value, joined, unless that raises. -/
  decodeWords : Text → Option Text
  /-- `Header(value.encode('utf-8'), 'ascii').encode()`, unless it raises -/
  encodeAscii : Text → Option Text
  /-- `Header(value.encode('utf-8'), 'UTF-8').encode()`, unless it raises -/
  encodeUtf8 : Text → Option Text
  /-- Decoding inverts encoding. -/
  decode_encodeUtf8 : ∀ value encoded, encodeUtf8 value = some encoded →
    decodeWith decodeWords (some encoded) = some value
  /-- A value without encoded words decodes to itself. -/
  decode_plain : ∀ value, '=' ∉ value → decodeWith decodeWords (some value) = some value
  /-- `authres.parse_value`, unless it raises: the result of the first entry, if there is one. -/
  parseAuthResults : Text → Option (Option Text)
  dkimVerify : Email → Bool
  complaintsAddress : Text
  responseFromAddr : Text
  /-- `forward_to_administrator` returns. -/
  forwards : Bool
  /-- `_check_blacklist`, unless it raises -/
  checkBlacklist : Text → Option Bool

variable (services : Services)

def decodeHeader (value : Option Text) : Option Text := decodeWith services.decodeWords value

def present (email : Email) (name : String) : Bool :=
  match decodeHeader services (email.header name) with
  | some (_ :: _) => true
  | _ => false

def headerIs (email : Email) (name value : String) : Bool :=
  decodeHeader services (email.header name) = some value.toList

/-- `decode_header(email[name]) is not None` -/
def decodes (email : Email) (name : String) : Bool :=
  (decodeHeader services (email.header name)).isSome

/-- `text.lower().find('auto') > 0` -/
def findsAuto (text : Text) : Bool :=
  (lower text).tails.any "auto".toList.isPrefixOf && !"auto".toList.isPrefixOf (lower text)

/-- `decode_header(email.get(name, '')).lower().find('auto') > 0`, unless the value does not
decode -/
def mentionsAuto (email : Email) (name : String) : Option Bool :=
  (decodeHeader services (some ((email.header name).getD []))).map findsAuto

/-- `decode_header(email.get('Auto-Submitted', 'no')) != 'no'` -/
def autoSubmitted (email : Email) : Bool :=
  decodeHeader services (some ((email.header "Auto-Submitted").getD "no".toList)) ≠
    some "no".toList

/-- The headers that only have to be there. -/
def autoHeaders : List String :=
  ["X-Autorespond", "X-Autogenerated", "X-AutoReply-From", "X-Mail-Autoreply", "X-Autoreply"]

/-- The test for automatic and bulk mail. `none` is the `AttributeError` of a value that does not
decode. -/
def autoBulk (email : Email) : Option Bool :=
  if present services email "List-ID" || present services email "List-Unsubscribe" ||
      headerIs services email "Precedence" "junk" || headerIs services email "Precedence" "list" ||
      headerIs services email "Precedence" "bulk" || autoSubmitted services email ||
      headerIs services email "Preference" "auto_reply" ||
      decodes services email "X-Autorespond" || decodes services email "X-Autogenerated" ||
      decodes services email "X-AutoReply-From" || decodes services email "X-Mail-Autoreply" ||
      headerIs services email "X-FC-MachineGenerated" "true" ||
      decodes services email "X-Autoreply" then some true
  else
    match mentionsAuto services email "X-POST-MessageClass" with
    | none => none
    | some true => some true
    | some false =>
      match mentionsAuto services email "Delivered-To" with
      | none => none
      | some true => some true
      | some false => some (headerIs services email "X-Auto-Response-Suppress" "All")

/-! ### Parsing -/

inductive Rejection where
  | noRequestedAddress
  | unparsableRequestedAddress
  | complaint
  | badRequesterAddress
  | sesError
  | postfixError
  | noReply
  | autoBulk
  | spam
  | authenticationResults
  | dkimAbsent
  | dkimFailed
  | exception
  deriving DecidableEq, Repr

structure Request where
  requestedAddr : Text
  requesterAddr : Text
  subject : Text
  requesterMsgid : Option Text

def sesAddresses : List Text :=
  ["MAILER-DAEMON@email-bounces.amazonses.com".toList, "MAILER-DAEMON@amazonses.com".toList,
    "complaints@email-abuse.amazonses.com".toList]

def startsWith (text : Text) (start : String) : Bool := start.toList.isPrefixOf text

def noReplyStarts : List String := ["no-reply", "noreply", "complaints", "bounces"]

def requestedAddress (email : Email) : Option Text :=
  stripEmail (decodeHeader services (email.header "X-Original-To"))

def requesterAddress (email : Email) : Option Text :=
  stripEmail (decodeHeader services (email.header "From"))

def checkRequester (address : Text) : Except Rejection Unit :=
  if sesAddresses.contains address then .error .sesError
  else if startsWith (lower address) "MAILER-DAEMON" then .error .postfixError
  else if noReplyStarts.any (startsWith (lower address)) then .error .noReply
  else .ok ()

/-- A warning that is forwarded, after which the parsing goes on. -/
def warn : Except Rejection Unit := if services.forwards then .ok () else .error .exception

def checkDkim (email : Email) : Except Rejection Unit :=
  if present services email "X-DKIM" || present services email "DKIM-Filter" then
    match decodeHeader services (email.header "Authentication-Results") with
    | some (c :: value) =>
      match services.parseAuthResults (c :: value) with
      | none => .error .authenticationResults
      | some none => warn services
      | some (some result) =>
        if result = "none".toList then
          if services.dkimVerify email then .ok () else .error .dkimAbsent
        else if result = "pass".toList then .ok ()
        else .error .dkimFailed
    | _ => warn services
  else warn services

def checkHeaders (email : Email) : Except Rejection Unit :=
  match autoBulk services email with
  | none => .error .exception
  | some true => .error .autoBulk
  | some false =>
    if present services email "X-Spam-Flag" then .error .spam else checkDkim services email

/-- What an email that passes all tests asks for. -/
def makeRequest (email : Email) (requested requester : Text) : Request where
  requestedAddr := lower requested
  requesterAddr := requester
  subject := "Re: ".toList ++ (decodeHeader services (email.header "Subject")).getD []
  requesterMsgid := match decodeHeader services (email.header "Message-ID") with
    | some (c :: value) => some (c :: value)
    | _ => none

def parseEmail (email : Email) : Except Rejection Request :=
  if !present services email "X-Original-To" then .error .noRequestedAddress
  else match requestedAddress services email with
    | none => .error .unparsableRequestedAddress
    | some requested =>
      if stripEmail (some services.complaintsAddress) = some (lower requested) then
        .error .complaint
      else match requesterAddress services email with
        | none => .error .badRequesterAddress
        | some requester => do
          checkRequester requester
          checkHeaders services email
          return makeRequest services email requested requester

/-! ### Responding -/

/-- The headers that `create_raw_email` writes for a request, unless an encoding raises. -/
def createRawEmail (request : Request) : Option (List (Text × Text)) := do
  let recipient ← services.encodeAscii request.requesterAddr
  let sender ← services.encodeAscii services.responseFromAddr
  let subject ← services.encodeUtf8 request.subject
  let replyTo ← services.encodeAscii request.requestedAddr
  let autoSubmitted ← services.encodeUtf8 "auto-replied".toList
  let reference ← match request.requesterMsgid with
    | none => pure []
    | some msgid => do
      let msgid ← services.encodeUtf8 msgid
      pure [("In-Reply-To".toList, msgid), ("References".toList, msgid)]
  return [("To".toList, recipient), ("From".toList, sender), ("Subject".toList, subject),
    ("Reply-To".toList, replyTo), ("Auto-Submitted".toList, autoSubmitted)] ++ reference

inductive Sending where
  | sent
  /-- Amazon SES returns a false value, or SMTP does. -/
  | refused
  /-- A `BotoServerError` -/
  | botoError
  | raises
  deriving DecidableEq, Repr

structure ConfItem where
  emailAddr : Text
  ses : Bool
  /-- The attachments are fetched, and the response is signed. -/
  prepared : Bool
  sending : Sending

/-- The responses that are sent for the entries in turn. -/
def sendResponses (request : Request) : List ConfItem → List (List (Text × Text))
  | [] => []
  | item :: items =>
    if item.prepared then
      match createRawEmail services request with
      | none => []
      | some raw =>
        match item.ses, item.sending with
        -- A failed response through SES ends the loop, one through SMTP does not.
        | true, .refused => [raw]
        | _, .raises => [raw]
        | _, _ => raw :: sendResponses request items
    else []

/-- The responses that `process_email` sends. -/
def processEmail (conf : List ConfItem) (email : Email) : List (List (Text × Text)) :=
  match parseEmail services email with
  | .error _ => []
  | .ok request =>
    match conf.filter (·.emailAddr = request.requestedAddr) with
    | [] => []
    | item :: items =>
      match services.checkBlacklist request.requesterAddr with
      | some true => sendResponses services request (item :: items)
      | _ => []

end Psiphon.Responder
