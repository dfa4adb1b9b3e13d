import Psiphon.Client.CoreOutput
import Psiphon.Client.ProxyStats
import Psiphon.Lib.Delimited

/-!
# Reading the pipe of Polipo in pieces

`ProcessStatsAndStatus` keeps nothing of what one `ReadFile` returned: an entry counts only if it
lies in one read.
-/

namespace Psiphon.Client

open List
open Json (Bytes ascii)
open Delimited (At IsFirst)

/-! ### Searches -/

theorem strstr_eq_some {text n : Bytes} {i : ℕ} (hne : n ≠ []) :
    strstr text n = some i ↔ IsFirst n text i := by
  rw [strstr,List.findIdx?_eq_some_iff_getElem]
  simp only [getElem_tails,List.isPrefixOf_iff_prefix,length_tails]
  constructor
  · rintro ⟨-,hat,hf⟩
    exact ⟨hat,hf⟩
  · rintro ⟨hat,hf⟩
    have hle := hat.add_le hne
    exact ⟨by omega,hat,hf⟩

theorem strstr_eq_none {text n : Bytes} : strstr text n = none ↔ ∀ i, ¬ At n text i := by
  rw [strstr,List.findIdx?_eq_none_iff]
  simp only [Bool.eq_false_iff,ne_eq,List.isPrefixOf_iff_prefix,mem_tails]
  constructor
  · exact fun h i hat => h _ (drop_suffix i text) hat
  · rintro h rest ⟨b,rfl⟩ hat
    refine h b.length ?_
    rwa [At,drop_left]

def Best (text : Bytes) (seen : List EntryKind) : Option (EntryKind × ℕ) → Prop
  | none => ∀ kind ∈ seen, ∀ i, ¬ At kind.marker text i
  | some (kind, start) => At kind.marker text start ∧
      ∀ other ∈ seen, ∀ i, At other.marker text i → start ≤ i

def polipoGrammar : Delimited.Grammar UInt8 EntryKind where
  opener := EntryKind.marker
  closer := entryEnd
  close := 60
  opener_ne_nil := by
    intro kind
    cases kind <;> decide
  closer_head := rfl
  close_notMem := by
    intro kind
    cases kind <;> decide
  separate := by
    have hall : ∀ kind ∈ EntryKind.all, ∀ other ∈ EntryKind.all, ∀ d < 29,
        other.marker <+: kind.marker.drop d → other = kind := by decide +kernel
    have hmem : ∀ kind : EntryKind, kind ∈ EntryKind.all ∧ kind.marker.length < 29 := by
      intro kind
      cases kind <;> decide
    intro kind other d hd hat
    have hlength := (hmem kind).2
    exact hall kind (hmem kind).1 other (hmem other).1 d (by omega) hat

theorem polipoGrammar_opener (kind : EntryKind) : polipoGrammar.opener kind = kind.marker := rfl

theorem polipoGrammar_closer : polipoGrammar.closer = entryEnd := rfl

def better (text : Bytes) (next : Option (EntryKind × ℕ)) (kind : EntryKind) :
    Option (EntryKind × ℕ) :=
  match strstr text kind.marker, next with
  | none, _ => next
  | some start, none => some (kind, start)
  | some start, some (_, first) => if start < first then some (kind, start) else next

theorem best_better {text : Bytes} {seen : List EntryKind} {next : Option (EntryKind × ℕ)}
    (h : Best text seen next) (kind : EntryKind) :
    Best text (kind :: seen) (better text next kind) := by
  have hne := polipoGrammar.opener_ne_nil kind
  unfold better
  cases hfi : strstr text kind.marker with
  | none =>
    have ha := strstr_eq_none.mp hfi
    cases next with
    | none => exact forall_mem_cons.mpr ⟨ha,h⟩
    | some found =>
      exact ⟨h.1,forall_mem_cons.mpr ⟨fun i hat => absurd hat (ha i),h.2⟩⟩
  | some start =>
    obtain ⟨hat,hf⟩ := (strstr_eq_some hne).mp hfi
    have hl : ∀ i, At kind.marker text i → start ≤ i := fun i hi =>
      Nat.le_of_not_lt fun hlt => hf i hlt hi
    cases next with
    | none => exact ⟨hat,forall_mem_cons.mpr ⟨hl,fun k hk i hi => absurd hi (h k hk i)⟩⟩
    | some found =>
      obtain ⟨hfo,hb⟩ := h
      show Best text _ (if start < found.2 then some (kind, start) else some found)
      split
      · rename_i hlt
        exact ⟨hat,forall_mem_cons.mpr ⟨hl,fun k hk i hi => hlt.le.trans (hb k hk i hi)⟩⟩
      · rename_i hge
        exact ⟨hfo,forall_mem_cons.mpr ⟨fun i hi => (Nat.le_of_not_lt hge).trans (hl i hi),hb⟩⟩

theorem best_foldl {text : Bytes} (k : List EntryKind) {seen : List EntryKind}
    {next : Option (EntryKind × ℕ)} (h : Best text seen next) :
    Best text (k.reverse ++ seen) (k.foldl (better text) next) := by
  induction k generalizing seen next with
  | nil => exact h
  | cons kind k ih =>
    rw [reverse_cons,append_assoc]
    exact ih (best_better h kind)

theorem best_nextEntry (text : Bytes) : Best text (EntryKind.all.reverse ++ []) (nextEntry text) :=
  best_foldl EntryKind.all fun _ hk => absurd hk not_mem_nil

theorem EntryKind.mem_all_reverse (kind : EntryKind) : kind ∈ EntryKind.all.reverse ++ [] := by
  cases kind <;> decide

theorem absent_of_nextEntry {text : Bytes} (h : nextEntry text = none) (kind : EntryKind) (i : ℕ) :
    ¬ At kind.marker text i := by
  have hb := best_nextEntry text
  rw [h] at hb
  exact hb kind kind.mem_all_reverse i

theorem isNext_of_nextEntry {text : Bytes} {kind : EntryKind} {start : ℕ}
    (h : nextEntry text = some (kind, start)) : polipoGrammar.IsNext text kind start := by
  have hb := best_nextEntry text
  rw [h] at hb
  exact ⟨hb.1,fun o i hat => hb.2 o o.mem_all_reverse i hat⟩

theorem nextEntry_of_isNext {text : Bytes} {kind : EntryKind} {start : ℕ}
    (h : polipoGrammar.IsNext text kind start) : nextEntry text = some (kind, start) := by
  cases hn : nextEntry text with
  | none => exact absurd h.1 (absent_of_nextEntry hn kind start)
  | some found =>
    obtain ⟨rfl,rfl⟩ := h.unique (isNext_of_nextEntry hn)
    rfl

/-! ### Entries and their places -/

def locatedEntries (place : ℕ) (text : Bytes) : List (Delimited.Entry UInt8 EntryKind) :=
  match _h : nextEntry text with
  | none => []
  | some (kind, start) =>
    match strstr (text.drop (start + kind.marker.length)) entryEnd with
    | none => []
    | some length =>
      let stop := start + kind.marker.length + length + entryEnd.length
      ⟨kind, place + start, place + stop, (text.drop (start + kind.marker.length)).take length⟩ ::
        locatedEntries (place + stop) (text.drop stop)
termination_by text.length
decreasing_by
  have hne : text ≠ [] := by
    rintro rfl
    rw [nextEntry_nil] at _h
    cases _h
  have hpos := List.length_pos_iff.mpr hne
  have hend : entryEnd.length = 2 := rfl
  rw [List.length_drop]
  omega

theorem scanned_locatedEntries (place : ℕ) (text : Bytes) :
    polipoGrammar.Scanned place text (locatedEntries place text) := by
  induction place, text using locatedEntries.induct with
  | case1 place text hn =>
    rw [locatedEntries,hn]
    exact .none (absent_of_nextEntry hn)
  | case2 place text kind start hn hc =>
    rw [locatedEntries,hn]
    simp only [hc]
    exact .unclosed (isNext_of_nextEntry hn) (strstr_eq_none.mp hc)
  | case3 place text kind start hn length hc stop ih =>
    rw [locatedEntries,hn]
    simp only [hc]
    exact .entry (isNext_of_nextEntry hn) ((strstr_eq_some polipoGrammar.closer_ne_nil).mp hc) ih

theorem polipoEntries_of_scanned {place : ℕ} {text : Bytes}
    {es : List (Delimited.Entry UInt8 EntryKind)} (h : polipoGrammar.Scanned place text es) :
    polipoEntries text = es.map fun e => (e.kind, e.text) := by
  induction h with
  | @none place text h =>
    have hn : nextEntry text = none := by
      cases hn : nextEntry text with
      | none => rfl
      | some found => exact absurd (isNext_of_nextEntry hn).1 (h _ _)
    rw [polipoEntries,hn]
    rfl
  | unclosed hn ho =>
    rw [polipoEntries,nextEntry_of_isNext hn]
    have hc := strstr_eq_none.mpr ho
    simp only [polipoGrammar_opener,polipoGrammar_closer] at hc ⊢
    rw [hc]
    rfl
  | @entry place text kind start length es hn hc hrest ih =>
    rw [polipoEntries,nextEntry_of_isNext hn]
    have hf := (strstr_eq_some polipoGrammar.closer_ne_nil).mpr hc
    simp only [polipoGrammar_opener,polipoGrammar_closer] at hf ih ⊢
    rw [hf]
    simp only [map_cons,drop_drop,← ih,Nat.add_assoc]

/-! ### Reads -/

/-- The buffer of a call: what `ReadFile` wrote, and what `new` had left in the rest of the bytes
that were peeked. -/
structure PipeRead where
  bytes : Bytes
  stale : Bytes

/-- A call of `ProcessStatsAndStatus`; there is no read when `PeekNamedPipe` fails. -/
structure Visit where
  final : Bool
  start : UInt32
  read : Option PipeRead
  now : UInt32
  sent : Bool
  random : UInt32

namespace Visit

def bytes (visit : Visit) : Bytes := (visit.read.map PipeRead.bytes).getD []

def parsed (visit : Visit) : Bytes :=
  (visit.read.map fun read => cString (read.bytes ++ read.stale)).getD []

def call (visit : Visit) : LocalProxy.Call :=
  ⟨visit.start, visit.read.map fun read => read.bytes ++ read.stale, visit.now, visit.sent,
    visit.random⟩

/-- The buffer ends where the bytes do: all that was peeked was read, or a zero follows. -/
def Ends (visit : Visit) : Prop := visit.parsed = visit.bytes

instance (visit : Visit) : Decidable visit.Ends :=
  inferInstanceAs (Decidable (_ = _))

end Visit

namespace LocalProxy

variable {s : LocalProxy}

def visits (s : LocalProxy) (vs : List Visit) : LocalProxy :=
  vs.foldl (fun s visit => (s.processStatsAndStatus visit.final visit.call).1) s

def found (s : LocalProxy) (text : Bytes) : List Stat := (polipoEntries text).filterMap s.statOf

theorem found_nil : s.found [] = [] := by
  have hn : polipoEntries [] = [] := by
    rw [polipoEntries,nextEntry_nil]
  rw [found,hn,filterMap_nil]

theorem statOf_congr {t : LocalProxy} (hp : t.pageViewRegexes = s.pageViewRegexes)
    (hh : t.httpsRequestRegexes = s.httpsRequestRegexes) : t.statOf = s.statOf := by
  funext entry
  obtain ⟨kind,text⟩ := entry
  cases kind with
  | pageViewHttp => rw [statOf,statOf,hp]
  | pageViewHttps => rw [statOf,statOf,hh]
  | bytesTransferred | unproxied | debug => rfl

theorem sendIfDue_counted (f : Bool) (call : Call) :
    (s.sendIfDue f call).statOf = s.statOf ∧ (s.sendIfDue f call).counted = s.counted ∧
      (call.sent = false → (s.sendIfDue f call).counters = s.counters) := by
  rw [sendIfDue,sendStats]
  split
  · split
    · rename_i hs
      exact ⟨statOf_congr rfl rfl,rfl,fun hu => absurd hs (Bool.eq_false_iff.mp hu)⟩
    · exact ⟨statOf_congr rfl rfl,rfl,fun _ => rfl⟩
  · exact ⟨rfl,rfl,fun _ => rfl⟩

theorem processStatsAndStatus_counted (hc : s.collecting = true) (visit : Visit) :
    (s.processStatsAndStatus visit.final visit.call).1.statOf = s.statOf ∧
      (s.processStatsAndStatus visit.final visit.call).1.counted =
        s.counted ++ s.found visit.parsed ∧
      (visit.sent = false → (s.processStatsAndStatus visit.final visit.call).1.counters =
        (s.found visit.parsed).foldl .add s.counters) := by
  rw [processStatsAndStatus,hc,Visit.call,Visit.parsed]
  cases visit.read with
  | none =>
    rw [Option.map_none,Option.map_none,Option.getD_none,found_nil,append_nil]
    exact ⟨rfl,rfl,fun _ => rfl⟩
  | some read =>
    exact sendIfDue_counted _ _

theorem visits_counted (hcol : s.collecting = true) (vs : List Visit) :
    (s.visits vs).counted = s.counted ++ vs.flatMap (fun visit => s.found visit.parsed) ∧
      ((∀ visit ∈ vs, visit.sent = false) → (s.visits vs).counters =
        (vs.flatMap fun visit => s.found visit.parsed).foldl .add s.counters) := by
  induction vs generalizing s with
  | nil => exact ⟨(append_nil _).symm,fun _ => rfl⟩
  | cons visit vs ih =>
    obtain ⟨hs,hco,hc⟩ := processStatsAndStatus_counted hcol visit
    have hf := (processStatsAndStatus_frame (s := s) visit.final visit.call).2.1
    obtain ⟨hco',hc'⟩ := ih (hf.trans hcol)
    simp only [found,hs] at hco hc hco' hc'
    rw [flatMap_cons]
    constructor
    · rw [← append_assoc,found,← hco]
      exact hco'
    · intro hu
      obtain ⟨hfi,hl⟩ := forall_mem_cons.mp hu
      rw [foldl_append,found,← hc hfi]
      exact hc' hl

/-- Reads that split no entry find what one read would. -/
theorem found_flatten {reads : List Bytes}
    (ho : ∀ e ∈ locatedEntries 0 reads.flatten, Delimited.Grammar.InOne 0 reads e) :
    s.found reads.flatten = reads.flatMap s.found := by
  obtain ⟨ess,he,ha⟩ := (scanned_locatedEntries 0 reads.flatten).pieces ho
  rw [found,polipoEntries_of_scanned (scanned_locatedEntries 0 reads.flatten),he]
  clear ho he
  induction ha with
  | nil => rfl
  | @cons read es reads ess hr ha ih =>
    obtain ⟨place,hs⟩ := hr
    rw [flatten_cons,map_append,filterMap_append,flatMap_cons,ih,found,polipoEntries_of_scanned hs]

/-- What calls count of a stream that they read, when no read splits an entry and the buffers hold
nothing else, is what one call counts of the whole stream. -/
theorem reads_counted_as_one (hcollecting : s.collecting = true) {vs : List Visit}
    (hnul : ∀ visit ∈ vs, 0 ∉ visit.bytes) (hends : ∀ visit ∈ vs, visit.Ends)
    (hone : ∀ e ∈ locatedEntries 0 (vs.map Visit.bytes).flatten,
      Delimited.Grammar.InOne 0 (vs.map Visit.bytes) e) :
    (s.visits vs).counted =
        (s.parsePolipoStatsBuffer (vs.map Visit.bytes).flatten).counted ∧
      ((∀ visit ∈ vs, visit.sent = false) → (s.visits vs).counters =
        (s.parsePolipoStatsBuffer (vs.map Visit.bytes).flatten).counters) := by
  have hnul' : 0 ∉ (vs.map Visit.bytes).flatten := by
    simpa using hnul
  have hs : vs.flatMap (fun visit => s.found visit.parsed) =
      s.found (cString (vs.map Visit.bytes).flatten) := by
    rw [cString_of_notMem hnul',found_flatten hone,flatMap_map]
    exact flatMap_congr fun visit hv => congrArg s.found (hends visit hv)
  obtain ⟨hco,hc⟩ := visits_counted hcollecting vs
  rw [hs] at hco hc
  exact ⟨hco,hc⟩

def fresh : LocalProxy where
  collecting := true
  process := true
  counters := .empty
  lastStatusSendTime := 0
  finalStatsSent := false
  pageViewRegexes := []
  httpsRequestRegexes := []
  sendInterval := defaultSendInterval
  sendMaxEntries := defaultSendMaxEntries
  counted := []
  attempts := []

def wholeRead (text : String) : Visit := ⟨false, 1, some ⟨ascii text, []⟩, 2, false, 0⟩

def cutBetween : List Visit :=
  [wholeRead "PSIPHON-DEBUG:>>x<<PSIPHON-BYTES-TRANSFERRED:>>40<<-",
    wholeRead "PSIPHON-BYTES-TRANSFERRED:>>60<<"]

theorem reads_counted_as_one_hundred : (fresh.visits cutBetween).counters = ⟨[], [], 100⟩ := by
  have he : locatedEntries 0 (cutBetween.map Visit.bytes).flatten =
      [⟨.debug,0,19,ascii "x"⟩,⟨.bytesTransferred,19,51,ascii "40"⟩,
        ⟨.bytesTransferred,52,84,ascii "60"⟩] := by
    decide +kernel
  have hone : ∀ e ∈ locatedEntries 0 (cutBetween.map Visit.bytes).flatten,
      Delimited.Grammar.InOne 0 (cutBetween.map Visit.bytes) e := by
    rw [he]
    refine forall_mem_cons.mpr ⟨⟨[],_,_,rfl,by decide,by decide⟩,?_⟩
    refine forall_mem_cons.mpr ⟨⟨[],_,_,rfl,by decide,by decide⟩,?_⟩
    exact forall_mem_singleton.mpr ⟨[_],_,[],rfl,by decide,by decide⟩
  have hc := reads_counted_as_one (s := fresh) rfl (by decide) (by decide) hone
  exact (hc.2 (by decide)).trans (by decide +kernel)

/-- An entry that two reads share is lost, a short read counts what an earlier buffer left, and so
does a read that fails. -/
theorem split_entry_lost :
    (fresh.visits [wholeRead "PSIPHON-BYTES-TRANSFERRED:>>10", wholeRead "0<<"]).counted = [] ∧
      (fresh.parsePolipoStatsBuffer (ascii "PSIPHON-BYTES-TRANSFERRED:>>10" ++ ascii "0<<")).counted
        = [.bytes 100] ∧
      (fresh.visits [⟨false, 1, some ⟨[], ascii "PSIPHON-BYTES-TRANSFERRED:>>7<<"⟩, 2, false,
        0⟩]).counted = [.bytes 7] := by
  refine ⟨by decide +kernel,by decide +kernel,by decide +kernel⟩

end LocalProxy

end Psiphon.Client
