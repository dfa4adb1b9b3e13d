import Psiphon.Feedback.Decryptor

/-!
# The two services that store feedback

`go` of `maildecryptor.py` and of `s3decryptor.py`. The mail service holds the candidate in one
variable for all attachments of an email.
-/

namespace Psiphon.Feedback

inductive Insert where
  | diagnosticInfo (info : Obj)
  | emailDiagnosticInfo
  | autoresponderEntry (emailInfo : Obj) (hasRecord : Bool)

/-- The body of the loop of a service: what it writes stays written when it raises. -/
abbrev Service := EStateM Exn (List Insert)

variable (libs : Libraries)

/-- The stages before the first assignment to `diagnostic_info`. -/
def readAttachment (attachment : Text) : Raises Text := do
  decrypt libs (← libs.jsonLoads attachment)

/-- The stages that assign to `diagnostic_info` or change it, and whether all were passed. -/
def examine (load : Text → Raises Obj) (plaintext : Text) : EStateM Exn Obj Bool := do
  set (Obj.str .byte (strip plaintext))
  edit fun _ => load (strip plaintext)
  edit (convertPsinetValues libs.psinet)
  if ← reading (isDiagnosticInfoSane libs) then
    transform libs
    return true
  else
    return false

/-! ### Mail -/

structure Mail where
  subject : Option (StrKind × Text)
  attachments : List Text
  /-- What `_get_email_info` returns. -/
  emailInfo : Obj

/-- `u'Re: %s' % (msg['subject'] or '')` decodes a byte string as ASCII. -/
def formatsSubject (mail : Mail) : Bool :=
  match mail.subject with
  | some (.byte, text) => isAscii text
  | _ => true

/-- What leaves the handlers of the mail service, if anything. -/
def handle (mail : Mail) : Exn → Option Exn
  | .decryptorException => if formatsSubject mail then none else some .valueError
  | .valueError => none
  | .typeError => none
  | e => some e

inductive Trial where
  /-- `break` -/
  | good (info : Obj)
  /-- On to the next attachment, with this value in `diagnostic_info`. -/
  | left (info : Obj)
  /-- On to the next attachment, without an assignment. -/
  | unread
  /-- An exception that nothing catches. -/
  | escapes (e : Exn)

def tryAttachment (mail : Mail) (attachment : Text) : Trial :=
  match readAttachment libs attachment with
  | .error e =>
    match handle mail e with
    | none => .unread
    | some e => .escapes e
  | .ok plaintext =>
    match examine libs (loadYaml libs) plaintext .none with
    | .ok true info => .good info
    | .ok false info => .left info
    | .error e info =>
      match handle mail e with
      | none => .left info
      | some e => .escapes e

end Psiphon.Feedback
