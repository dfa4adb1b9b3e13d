import Psiphon.Client.ServerEntry

/-!
# The local proxy of the Windows client

The statistics of `local_proxy.cpp`. A buffer that `ReadFile` failed to fill is parsed all the same,
so that it may hold anything.
-/

namespace Psiphon.Client

open Json (Bytes ascii)

/-! ### Entries of Polipo -/

def strstr (text needle : Bytes) : Option ℕ :=
  text.tails.findIdx? fun rest => needle.isPrefixOf rest

inductive EntryKind where
  | pageViewHttp
  | pageViewHttps
  | bytesTransferred
  | unproxied
  | debug
  deriving DecidableEq, Repr

namespace EntryKind

def all : List EntryKind := [pageViewHttp, pageViewHttps, bytesTransferred, unproxied, debug]

def marker : EntryKind → Bytes
  | pageViewHttp => ascii "PSIPHON-PAGE-VIEW-HTTP:>>"
  | pageViewHttps => ascii "PSIPHON-PAGE-VIEW-HTTPS:>>"
  | bytesTransferred => ascii "PSIPHON-BYTES-TRANSFERRED:>>"
  | unproxied => ascii "PSIPHON-UNPROXIED:>>"
  | debug => ascii "PSIPHON-DEBUG:>>"

end EntryKind

def entryEnd : Bytes := ascii "<<"

def nextEntry (text : Bytes) : Option (EntryKind × ℕ) :=
  EntryKind.all.foldl (fun next kind =>
    match strstr text kind.marker, next with
    | none, _ => next
    | some start, none => some (kind, start)
    | some start, some (_, first) => if start < first then some (kind, start) else next) none

theorem nextEntry_nil : nextEntry [] = none := by decide

/-- The entries of a buffer; an entry without its end stops the loop. -/
def polipoEntries (text : Bytes) : List (EntryKind × Bytes) :=
  match _h : nextEntry text with
  | none => []
  | some (kind, start) =>
    let rest := text.drop (start + kind.marker.length)
    match strstr rest entryEnd with
    | none => []
    | some length =>
      (kind, rest.take length) :: polipoEntries (rest.drop (length + entryEnd.length))
termination_by text.length
decreasing_by
  have hne : text ≠ [] := by
    rintro rfl
    rw [nextEntry_nil] at _h
    cases _h
  have hpos := List.length_pos_iff.mpr hne
  have hend : entryEnd.length = 2 := rfl
  rw [List.length_drop, List.length_drop]
  omega

/-! ### What is counted -/

structure RegexReplace where
  regexMatch : Bytes → Bool
  regexReplace : Bytes → Bytes

/-- What is stored for an entry: the replacement of the first pattern that matches, unless it is
empty. -/
def storeEntry (regexes : List RegexReplace) (entry : Bytes) : Option Bytes :=
  if entry = [] then none else
  let stored := match regexes.find? fun regex => regex.regexMatch entry with
    | some regex => regex.regexReplace entry
    | none => ascii "(OTHER)"
  if stored = [] then none else some stored

def dropPort (entry : Bytes) : Bytes :=
  if entry.contains 58 then ((entry.reverse.dropWhile (· != 58)).drop 1).reverse else entry

inductive Stat where
  | pageView (entry : Bytes)
  | httpsRequest (entry : Bytes)
  | bytes (n : ℕ)
  deriving DecidableEq, Repr

abbrev Counts := List (Bytes × ℕ)

def upsert (entry : Bytes) : Counts → Counts
  | [] => [(entry, 1)]
  | (key, n) :: counts =>
    if key = entry then (key, n + 1) :: counts else (key, n) :: upsert entry counts

structure Counters where
  pageViewEntries : Counts
  httpsRequestEntries : Counts
  bytesTransferred : ℕ
  deriving DecidableEq, Repr

namespace Counters

def empty : Counters := ⟨[], [], 0⟩

/-- The counters with one more thing; `m_bytesTransferred` has 64 bits. -/
def add (c : Counters) : Stat → Counters
  | .pageView entry => { c with pageViewEntries := upsert entry c.pageViewEntries }
  | .httpsRequest entry => { c with httpsRequestEntries := upsert entry c.httpsRequestEntries }
  | .bytes n => { c with bytesTransferred := (c.bytesTransferred + n) % 2 ^ 64 }

def tally (stats : List Stat) : Counters := stats.foldl add empty

end Counters

/-! ### The proxy -/

structure Attempt where
  final : Bool
  counters : Counters
  sent : Bool
  deriving DecidableEq, Repr

structure LocalProxy where
  /-- `m_statsCollector` is not null. -/
  collecting : Bool
  /-- `m_polipoProcessInfo.hProcess` is not zero. -/
  process : Bool
  counters : Counters
  lastStatusSendTime : UInt32
  finalStatsSent : Bool
  pageViewRegexes : List RegexReplace
  httpsRequestRegexes : List RegexReplace
  sendInterval : UInt32
  sendMaxEntries : UInt32
  /-- All that was ever counted. -/
  counted : List Stat
  /-- The calls that the collector has seen. -/
  attempts : List Attempt

namespace LocalProxy

variable (s : LocalProxy)

def statOf : EntryKind × Bytes → Option Stat
  | (.pageViewHttp, entry) => (storeEntry s.pageViewRegexes entry).map .pageView
  | (.pageViewHttps, entry) =>
    (storeEntry s.httpsRequestRegexes (dropPort entry)).map .httpsRequest
  | (.bytesTransferred, entry) =>
    if strtol entry > 0 then some (.bytes (strtol entry).toNat) else none
  | (.unproxied, _) | (.debug, _) => none

def count (stats : List Stat) : LocalProxy :=
  { s with counters := stats.foldl .add s.counters, counted := s.counted ++ stats }

def parsePolipoStatsBuffer (buffer : Bytes) : LocalProxy :=
  s.count ((polipoEntries (cString buffer)).filterMap s.statOf)

def sendStatusMessage (final sent : Bool) : LocalProxy :=
  { s with attempts := s.attempts ++ [⟨final, s.counters, sent⟩] }

def defaultSendInterval : UInt32 := 5 * 60 * 1000

def defaultSendMaxEntries : UInt32 := 1000

structure Call where
  /-- `GetTickCount` before the pipe is read. -/
  start : UInt32
  /-- The buffer, unless `PeekNamedPipe` fails. -/
  peek : Option Bytes
  /-- `GetTickCount` after it. -/
  now : UInt32
  /-- The result of `SendStatusMessage`, if it is called. -/
  sent : Bool
  /-- `rand_s` -/
  random : UInt32

def due (now : UInt32) : Bool :=
  s.lastStatusSendTime + s.sendInterval < now ||
    s.sendMaxEntries.toNat ≤ s.counters.pageViewEntries.length ||
    s.sendMaxEntries.toNat ≤ s.counters.httpsRequestEntries.length

/-- Sends the statistics: they start anew when that succeeds, and the thresholds back off when it
fails. -/
def sendStats (final : Bool) (call : Call) : LocalProxy :=
  let s := s.sendStatusMessage final call.sent
  if call.sent then { s with
    sendInterval := defaultSendInterval + call.random % defaultSendInterval
    sendMaxEntries := defaultSendMaxEntries
    counters := .empty
    lastStatusSendTime := call.now }
  else { s with
    sendInterval := s.sendInterval + defaultSendInterval
    sendMaxEntries := s.sendMaxEntries + defaultSendMaxEntries }

/-- What precedes the pipe: the flag of the final statistics, and the time of the very first
call. -/
def enter (final : Bool) (start : UInt32) : LocalProxy :=
  { s with
    finalStatsSent := s.finalStatsSent || final
    lastStatusSendTime := if s.lastStatusSendTime = 0 then start else s.lastStatusSendTime }

/-- The clock wraps after 49 days. -/
def wrapTime (now : UInt32) : LocalProxy :=
  { s with lastStatusSendTime := if now < s.lastStatusSendTime then 0 else s.lastStatusSendTime }

def sendIfDue (final : Bool) (call : Call) : LocalProxy :=
  if final || s.due call.now then s.sendStats final call else s

def processStatsAndStatus (final : Bool) (call : Call) : LocalProxy × Bool :=
  if !s.collecting then (s, true) else
  let s := s.enter final call.start
  match call.peek with
  | none => (s, false)
  | some buffer =>
    (((s.parsePolipoStatsBuffer buffer).wrapTime call.now).sendIfDue final call, true)

def stopImminent (call : Call) : LocalProxy :=
  if s.process then (s.processStatsAndStatus true call).1 else s

/-- `Cleanup`; `sent` is the result of `SendStatusMessage`, if it is called. -/
def cleanup (doStats sent : Bool) : LocalProxy :=
  let s := { s with process := false, lastStatusSendTime := 0 }
  if doStats && !s.finalStatsSent && s.collecting && s.counters.bytesTransferred > 0 then
    let s := s.sendStatusMessage true sent
    if sent then { s with finalStatsSent := true } else s
  else s

def doStop (cleanly sent : Bool) : LocalProxy := s.cleanup cleanly sent

end LocalProxy

/-! ### Lifetimes -/

inductive Check where
  /-- `ProcessStatsAndStatus(false)` of a periodic check -/
  | periodic (call : LocalProxy.Call)
  /-- `UpdateSessionInfo` -/
  | updateSessionInfo (pageViewRegexes httpsRequestRegexes : List RegexReplace)

def LocalProxy.check (s : LocalProxy) : Check → LocalProxy
  | .periodic call => (s.processStatsAndStatus false call).1
  | .updateSessionInfo pageViewRegexes httpsRequestRegexes =>
    { s with pageViewRegexes, httpsRequestRegexes }

/-- The life of a proxy. The statics have the values that earlier proxies left. -/
structure Lifetime where
  collecting : Bool
  /-- Polipo was started. -/
  started : Bool
  sendInterval : UInt32
  sendMaxEntries : UInt32
  checks : List Check
  /-- `StopImminent` is called when the proxy is stopped cleanly, if it is. -/
  stopImminent : Option LocalProxy.Call
  /-- The argument of `DoStop`. -/
  cleanly : Bool
  /-- The results of `SendStatusMessage` in `DoStop` and in the destructor. -/
  stopSent : Bool
  destroySent : Bool

namespace Lifetime

variable (life : Lifetime)

def running : LocalProxy where
  collecting := life.collecting
  process := life.started
  counters := .empty
  lastStatusSendTime := 0
  finalStatsSent := false
  pageViewRegexes := []
  httpsRequestRegexes := []
  sendInterval := life.sendInterval
  sendMaxEntries := life.sendMaxEntries
  counted := []
  attempts := []

def checked : LocalProxy := life.checks.foldl .check life.running

def stopping : LocalProxy :=
  match life.stopImminent with
  | none => life.checked
  | some call => life.checked.stopImminent call

def stopped : LocalProxy := life.stopping.doStop life.cleanly life.stopSent

def destroyed : LocalProxy := life.stopped.cleanup true life.destroySent

end Lifetime

end Psiphon.Client
