import Mathlib.Data.List.Chain
import Psiphon.Client.LocalProxy
import Psiphon.Lib.Runs

/-!
# The interval between status messages

`ProcessStatsAndStatus` compares readings of `GetTickCount` and a deadline, all modulo `2 ^ 32`.
-/

namespace Psiphon.Client.LocalProxy

open List
open Json (Bytes)

def getTickCount (time : ℕ) : UInt32 := UInt32.ofNat time

structure TimedCall where
  start : ℕ
  peek : Option Bytes
  now : ℕ
  sent : Bool
  random : UInt32

namespace TimedCall

def call (c : TimedCall) : Call :=
  ⟨getTickCount c.start, c.peek, getTickCount c.now, c.sent, c.random⟩

def interval (c : TimedCall) : UInt32 := defaultSendInterval + c.random % defaultSendInterval

def passes (c : TimedCall) : Bool := c.peek.isSome

/-- The times of consecutive calls: they do not go back, and are less than `2 ^ 31` apart. -/
structure Follows (c d : TimedCall) : Prop where
  le : c.now ≤ d.start
  near : d.start < c.start + 2 ^ 31

structure Timely (cs : List TimedCall) : Prop where
  start_le : ∀ c ∈ cs, c.start ≤ c.now
  follows : cs.IsChain Follows

end TimedCall

open TimedCall

variable {s : LocalProxy} {c d : TimedCall} {cs : List TimedCall} {time : ℕ} {interval : UInt32}

def next (s : LocalProxy) (c : TimedCall) : LocalProxy := (s.processStatsAndStatus false c.call).1

def sends (s : LocalProxy) (c : TimedCall) : Bool :=
  s.attempts.length < (s.next c).attempts.length

/-- The times of the calls of `SendStatusMessage` in a run, with their results. -/
def messages : LocalProxy → List TimedCall → List (ℕ × Bool)
  | _, [] => []
  | s, c :: cs =>
    if s.sends c then (c.now, c.sent) :: messages (s.next c) cs else messages (s.next c) cs

def Spaced (a b : ℕ × Bool) : Prop := a.2 = true → a.1 + defaultSendInterval.toNat ≤ b.1

def Below (s : LocalProxy) (c : TimedCall) : Prop :=
  ∀ buffer ∈ c.peek,
    let s := (s.enter false c.call.start).parsePolipoStatsBuffer buffer
    s.counters.pageViewEntries.length < s.sendMaxEntries.toNat ∧
      s.counters.httpsRequestEntries.length < s.sendMaxEntries.toNat

def BelowLimit (s : LocalProxy) (cs : List TimedCall) : Prop :=
  Runs.Along (fun s c => some (s.next c)) Below s cs

/-- After a message at `time` the deadline is past the wrap of the clock, and a reading is not, nor
as late as it should be. -/
def Early (time : ℕ) (interval : UInt32) (reading : ℕ) : Prop :=
  2 ^ 32 ≤ time % 2 ^ 32 + interval.toNat ∧ reading / 2 ^ 32 = time / 2 ^ 32 ∧
    reading < time + defaultSendInterval.toNat

/-- No successful message has a deadline past the wrap and is followed early by a call that gets
past the pipe. -/
def NoneEarly : LocalProxy → List TimedCall → Prop
  | _, [] => True
  | s, c :: cs =>
    (s.sends c = true → c.sent = true → ∀ d ∈ cs.find? passes, ¬ Early c.now c.interval d.now) ∧
      NoneEarly (s.next c) cs

/-! ### Readings of the clock -/

theorem toNat_getTickCount (time : ℕ) : (getTickCount time).toNat = time % 2 ^ 32 :=
  UInt32.toNat_ofNat'

theorem toNat_defaultSendInterval : defaultSendInterval.toNat = 300000 := rfl

theorem interval_bounds (c : TimedCall) :
    300000 ≤ c.interval.toNat ∧ c.interval.toNat < 600000 := by
  have hjitter : (c.random % defaultSendInterval).toNat < 300000 := by
    exact Nat.mod_lt _ (by decide)
  rw [TimedCall.interval,UInt32.toNat_add,toNat_defaultSendInterval]
  omega

theorem Early.of_le {reading reading' : ℕ} (h : Early time interval reading')
    (htime : time ≤ reading)
    (hle : reading ≤ reading') : Early time interval reading := by
  obtain ⟨hw,hepoch,hearly⟩ := h
  refine ⟨hw,?_,by omega⟩
  omega

/-! ### What a call does -/

/-- `m_lastStatusSendTimeMS` after the first lines of a call. -/
def enteredTime (s : LocalProxy) (c : TimedCall) : UInt32 :=
  if s.lastStatusSendTime = 0 then getTickCount c.start else s.lastStatusSendTime

/-- `m_lastStatusSendTimeMS` when the deadline is compared. -/
def comparedTime (s : LocalProxy) (c : TimedCall) : UInt32 :=
  if getTickCount c.now < s.enteredTime c then 0 else s.enteredTime c

def Overdue (s : LocalProxy) (c : TimedCall) : Prop :=
  s.comparedTime c + s.sendInterval < getTickCount c.now

instance (s : LocalProxy) (c : TimedCall) : Decidable (s.Overdue c) :=
  inferInstanceAs (Decidable (_ < _))

inductive Effect (s : LocalProxy) (c : TimedCall) : Prop where
  | stops (hpasses : c.passes = false) (hsends : s.sends c = false)
    (hlast : (s.next c).lastStatusSendTime = s.enteredTime c)
    (hinterval : (s.next c).sendInterval = s.sendInterval)
  | waits (hpasses : c.passes = true) (hsends : s.sends c = false) (hdue : ¬ s.Overdue c)
    (hlast : (s.next c).lastStatusSendTime = s.comparedTime c)
    (hinterval : (s.next c).sendInterval = s.sendInterval)
  | sends (hpasses : c.passes = true) (hsends : s.sends c = true) (hdue : s.Overdue c)
    (hlast : c.sent = true → (s.next c).lastStatusSendTime = getTickCount c.now)
    (hinterval : c.sent = true → (s.next c).sendInterval = c.interval)

theorem next_of_none (hc : s.collecting = true) (hp : c.peek = none) :
    s.next c = s.enter false (getTickCount c.start) := by
  have hca : c.call.peek = none := hp
  rw [next,processStatsAndStatus,hc,hca]
  rfl

def compared (s : LocalProxy) (c : TimedCall) (buffer : Bytes) : LocalProxy :=
  ((s.enter false c.call.start).parsePolipoStatsBuffer buffer).wrapTime c.call.now

theorem next_of_some {b : Bytes} (hc : s.collecting = true) (hp : c.peek = some b) :
    s.next c = (s.compared c b).sendIfDue false c.call := by
  have hca : c.call.peek = some b := hp
  rw [next,processStatsAndStatus,hc,hca]
  rfl

theorem due_compared_iff {b : Bytes} (hb : s.Below c) (hpe : c.peek = some b) :
    (s.compared c b).due c.call.now = true ↔ s.Overdue c := by
  obtain ⟨hp,hh⟩ := hb b hpe
  have hp : ¬ (s.compared c b).sendMaxEntries.toNat ≤
      (s.compared c b).counters.pageViewEntries.length := Nat.not_le_of_lt hp
  have hh : ¬ (s.compared c b).sendMaxEntries.toNat ≤
      (s.compared c b).counters.httpsRequestEntries.length := Nat.not_le_of_lt hh
  rw [due,Bool.or_eq_true,Bool.or_eq_true,decide_eq_true_eq,decide_eq_true_eq,
    decide_eq_true_eq,or_iff_left hh,or_iff_left hp]
  rfl

theorem next_collecting (hc : s.collecting = true) (c : TimedCall) :
    (s.next c).collecting = true := by
  cases hp : c.peek with
  | none =>
    rw [next_of_none hc hp]
    exact hc
  | some buffer =>
    rw [next_of_some hc hp,sendIfDue,sendStats]
    split
    · split <;> exact hc
    · exact hc

theorem effect (hc : s.collecting = true) (hb : s.Below c) : s.Effect c := by
  cases hpe : c.peek with
  | none =>
    have hn := next_of_none hc hpe
    refine .stops (by rw [passes,hpe]; rfl) ?_ (by rw [hn]; rfl) (by rw [hn]; rfl)
    rw [LocalProxy.sends,hn]
    exact decide_eq_false (Nat.lt_irrefl _)
  | some buffer =>
    have hp : c.passes = true := by rw [passes,hpe]; rfl
    have hn := next_of_some hc hpe
    have hdue := due_compared_iff hb hpe
    rw [sendIfDue,Bool.false_or] at hn
    by_cases h : s.Overdue c
    · rw [if_pos (hdue.mpr h),sendStats] at hn
      refine .sends hp ?_ h (fun hs => ?_) (fun hs => ?_)
      · have hlen : (s.next c).attempts.length = s.attempts.length + 1 := by
          rw [hn]
          split <;> exact length_append
        rw [LocalProxy.sends,hlen]
        exact decide_eq_true (Nat.lt_succ_self _)
      · rw [hn,if_pos (show c.call.sent = true from hs)]
        rfl
      · rw [hn,if_pos (show c.call.sent = true from hs)]
        rfl
    · rw [if_neg (mt hdue.mp h)] at hn
      refine .waits hp ?_ h (by rw [hn]; rfl) (by rw [hn]; rfl)
      rw [LocalProxy.sends,hn]
      exact decide_eq_false (Nat.lt_irrefl _)

/-! ### From one message to the next -/

/-- What the proxy remembers of a successful message: its time, or a later time after the wrap of
the clock. -/
def Remembers (s : LocalProxy) (time : ℕ) (interval : UInt32) (upTo : ℕ) : Prop :=
  s.sendInterval = interval ∧ ∃ last, last ≤ upTo ∧ s.lastStatusSendTime = getTickCount last ∧
    (last = time ∨ ∃ epoch, time ≤ epoch * 2 ^ 32 ∧ epoch * 2 ^ 32 ≤ last)

section Remembers

variable {upTo : ℕ}

theorem remembers_entered (h : s.Remembers time interval upTo) (hstart : upTo ≤ c.start) :
    ∃ last, last ≤ c.start ∧ s.enteredTime c = getTickCount last ∧
      (last = time ∨ ∃ e, time ≤ e * 2 ^ 32 ∧ e * 2 ^ 32 ≤ last) := by
  obtain ⟨-,last,hle,hl,hs⟩ := h
  rw [enteredTime]
  split
  · rename_i hz
    -- a reading of zero is at a wrap
    have hwrap : last % 2 ^ 32 = 0 := by
      rw [← toNat_getTickCount,← hl,hz]
      rfl
    refine ⟨c.start,le_rfl,rfl,.inr ?_⟩
    obtain rfl | ⟨e,ht,hepoch⟩ := hs
    · exact ⟨last / 2 ^ 32,by omega,by omega⟩
    · exact ⟨e,ht,by omega⟩
  · exact ⟨last,by omega,hl,hs⟩

theorem remembers_compared (h : s.Remembers time interval upTo) (hst : upTo ≤ c.start)
    (hnow : c.start ≤ c.now) : ∃ last, last ≤ c.now ∧ s.comparedTime c = getTickCount last ∧
      last % 2 ^ 32 ≤ c.now % 2 ^ 32 ∧
      (last = time ∨ ∃ e, time ≤ e * 2 ^ 32 ∧ e * 2 ^ 32 ≤ last) := by
  obtain ⟨last,hle,hl,hs⟩ := remembers_entered h hst
  have hlt : getTickCount c.now < getTickCount last ↔ c.now % 2 ^ 32 < last % 2 ^ 32 := by
    rw [UInt32.lt_iff_toNat_lt,toNat_getTickCount,toNat_getTickCount]
  rw [comparedTime,hl]
  by_cases hw : c.now % 2 ^ 32 < last % 2 ^ 32
  · -- the clock has wrapped since
    rw [if_pos (hlt.mpr hw)]
    obtain ⟨wrap,hwr⟩ : ∃ wrap, wrap = c.now / 2 ^ 32 * 2 ^ 32 := ⟨_,rfl⟩
    have hmod : wrap % 2 ^ 32 = 0 := by rw [hwr,Nat.mul_mod_left]
    have hz : (0 : UInt32) = getTickCount wrap := by
      apply UInt32.toNat_inj.mp
      rw [toNat_getTickCount,hmod]
      rfl
    have ht : time ≤ wrap := by
      obtain rfl | ⟨e,ht,hepoch⟩ := hs <;> omega
    exact ⟨wrap,by omega,hz,by omega,.inr ⟨_,hwr ▸ ht,hwr.ge⟩⟩
  · rw [if_neg (mt hlt.mp hw)]
    exact ⟨last,by omega,rfl,by omega,hs⟩

/-- A call that sends after a message keeps the default interval unless it is early. -/
theorem overdue_bound (h : s.Remembers time interval upTo) (hs : upTo ≤ c.start)
    (hn : c.start ≤ c.now) (htime : time ≤ upTo)
    (hinterval : 300000 ≤ interval.toNat ∧ interval.toNat < 600000) (hd : s.Overdue c)
    (he : ¬ Early time interval c.now) : time + defaultSendInterval.toNat ≤ c.now := by
  obtain ⟨last,hle,hl,hticks,hsi⟩ := remembers_compared h hs hn
  rw [Overdue,hl,h.1,UInt32.lt_iff_toNat_lt,UInt32.toNat_add,toNat_getTickCount,
    toNat_getTickCount] at hd
  rw [Early,toNat_defaultSendInterval] at he
  rw [toNat_defaultSendInterval]
  by_contra hlate
  obtain rfl | ⟨epoch,hfirst,hepoch⟩ := hsi
  · omega
  · omega

/-- An early call sends. -/
theorem overdue_of_early (h : s.Remembers time interval upTo) (hs : upTo ≤ c.start)
    (hn : c.start ≤ c.now) (htime : time ≤ upTo)
    (hinterval : 300000 ≤ interval.toNat ∧ interval.toNat < 600000)
    (he : Early time interval c.now) : s.Overdue c := by
  obtain ⟨last,hle,hl,hticks,hsi⟩ := remembers_compared h hs hn
  rw [Overdue,hl,h.1,UInt32.lt_iff_toNat_lt,UInt32.toNat_add,toNat_getTickCount,toNat_getTickCount]
  obtain ⟨hwrap,hsame,hb⟩ := he
  obtain rfl | ⟨epoch,hfirst,hepoch⟩ := hsi
  · omega
  · omega

end Remembers

/-! ### Runs -/

theorem TimedCall.Timely.tail (h : Timely (c :: cs)) : Timely cs where
  start_le := fun d hd => h.start_le d (mem_cons_of_mem c hd)
  follows := (isChain_cons.mp h.follows).2

theorem TimedCall.Timely.now_le (h : Timely (c :: cs)) : ∀ d ∈ cs.head?, c.now ≤ d.start :=
  fun d hd => ((isChain_cons.mp h.follows).1 d hd).le

theorem TimedCall.Timely.now_le_of_mem (h : Timely (c :: cs)) (hd : d ∈ cs) : c.now ≤ d.now := by
  induction cs generalizing c with
  | nil => cases hd
  | cons first cs ih =>
    have hf : c.now ≤ first.now :=
      (h.now_le first rfl).trans (h.start_le first (by simp))
    rcases mem_cons.mp hd with rfl | hd
    · exact hf
    · exact hf.trans (ih h.tail hd)

theorem BelowLimit.tail (h : s.BelowLimit (c :: cs)) : (s.next c).BelowLimit cs := h.2 _ rfl

/-- After a successful message the next one is late enough exactly when the next call that gets past
the pipe is not early. -/
theorem next_message_iff {upTo : ℕ} (hc : s.collecting = true) (hb : s.BelowLimit cs)
    (ht : Timely cs) (hf : ∀ c ∈ cs.head?, upTo ≤ c.start) (hti : time ≤ upTo)
    (hi : 300000 ≤ interval.toNat ∧ interval.toNat < 600000) (h : s.Remembers time interval upTo) :
    (∀ m ∈ (s.messages cs).head?, time + defaultSendInterval.toNat ≤ m.1) ↔
      ∀ d ∈ cs.find? passes, ¬ Early time interval d.now := by
  induction cs generalizing s upTo with
  | nil => simp [messages]
  | cons c cs ih =>
    have hst : upTo ≤ c.start := hf c rfl
    have hnow : c.start ≤ c.now := ht.start_le c (.head _)
    have hr := fun (hn : (s.next c).Remembers time interval c.now) =>
      ih (next_collecting hc c) hb.tail ht.tail ht.now_le (by omega) hn
    cases effect hc hb.1 with
    | stops hp hs hla hn =>
      rw [messages,hs,List.find?_cons_of_neg (by rw [hp]; decide)]
      obtain ⟨last,hle,he,hsi⟩ := remembers_entered h hst
      exact hr ⟨hn.trans h.1,last,by omega,hla.trans he,hsi⟩
    | waits hp hs hdue hla hn =>
      have hnot : ¬ Early time interval c.now := fun hea =>
        hdue (overdue_of_early h hst hnow hti hi hea)
      rw [messages,hs,List.find?_cons_of_pos hp]
      refine iff_of_true ?_ fun d hd => Option.some.inj hd ▸ hnot
      obtain ⟨last,hle,hco,-,hsi⟩ := remembers_compared h hst hnow
      refine (hr ⟨hn.trans h.1,last,hle,hla.trans hco,hsi⟩).mpr ?_
      -- a later call would be early only if this one were
      intro d hd hea
      have hl : c.now ≤ d.now := ht.now_le_of_mem (mem_of_find?_eq_some hd)
      exact hnot (hea.of_le (by omega) hl)
    | sends hp hs hdue hla hn =>
      rw [messages,hs,List.find?_cons_of_pos hp]
      constructor
      · intro hlate d hd hea
        cases hd
        exact absurd hea.2.2 (Nat.not_lt_of_le (hlate _ rfl))
      · intro hnot m hm
        cases hm
        exact overdue_bound h hst hnow hti hi hdue (hnot c rfl)

/-- Status messages keep their interval exactly when no successful message whose deadline is past
the wrap of the clock is followed by an early call. -/
theorem status_interval_kept_iff (hcollecting : s.collecting = true) (htimely : Timely cs)
    (hbelow : s.BelowLimit cs) : (s.messages cs).IsChain Spaced ↔ s.NoneEarly cs := by
  induction cs generalizing s with
  | nil => simp [messages,NoneEarly]
  | cons c cs ih =>
    have hre := ih (next_collecting hcollecting c) htimely.tail hbelow.tail
    rw [messages,NoneEarly]
    cases effect hcollecting hbelow.1 with
    | stops hp hs hl hn | waits hp hs hdue hl hn =>
      rw [hs,if_neg Bool.false_ne_true,hre]
      exact (and_iff_right fun h => absurd h Bool.false_ne_true).symm
    | sends hp hs hdue hl hn =>
      rw [hs,if_pos rfl,isChain_cons,hre]
      refine and_congr_left fun _ => ?_
      rw [forall_prop_of_true rfl]
      cases hse : c.sent with
      | false =>
        exact iff_of_true (fun _ _ h => absurd h Bool.false_ne_true)
          fun h => absurd h Bool.false_ne_true
      | true =>
        have hr : (s.next c).Remembers c.now c.interval c.now :=
          ⟨hn hse,c.now,le_rfl,hl hse,.inl rfl⟩
        rw [forall_prop_of_true rfl,← next_message_iff (next_collecting hcollecting c) hbelow.tail
          htimely.tail htimely.now_le le_rfl (interval_bounds c) hr]
        exact forall₂_congr fun message _ => ⟨fun h => h rfl,fun h _ => h⟩

/-! ### A proxy that nobody uses -/

def idle (last interval : UInt32) (attempts : List Attempt) : LocalProxy where
  collecting := true
  process := true
  counters := .empty
  lastStatusSendTime := last
  finalStatsSent := false
  pageViewRegexes := []
  httpsRequestRegexes := []
  sendInterval := interval
  sendMaxEntries := defaultSendMaxEntries
  counted := []
  attempts := attempts

def idleCall (time : ℕ) : TimedCall := ⟨time, some [], time, true, 0⟩

section Idle

variable {last : UInt32} {attempts : List Attempt}

theorem parsePolipoStatsBuffer_nil (s : LocalProxy) : s.parsePolipoStatsBuffer [] = s := by
  have hn : polipoEntries (cString []) = [] := by
    show polipoEntries [] = []
    rw [polipoEntries,nextEntry_nil]
  rw [parsePolipoStatsBuffer,hn,filterMap_nil,count,foldl_nil,append_nil]

theorem below_idle (time : ℕ) : (idle last interval attempts).Below (idleCall time) := by
  intro buffer hb
  cases hb
  rw [parsePolipoStatsBuffer_nil]
  have hz : 0 < defaultSendMaxEntries.toNat := by decide
  exact ⟨hz,hz⟩

theorem next_idle (time : ℕ) : (idle last interval attempts).next (idleCall time) =
    if (idle last interval attempts).Overdue (idleCall time) then
      idle (getTickCount time) defaultSendInterval (attempts ++ [⟨false,.empty,true⟩]) else
      idle ((idle last interval attempts).comparedTime (idleCall time)) interval attempts := by
  have hd := due_compared_iff (@below_idle interval last attempts time) rfl
  rw [next_of_some rfl rfl,sendIfDue,Bool.false_or]
  by_cases h : (idle last interval attempts).Overdue (idleCall time)
  · rw [if_pos (hd.mpr h),if_pos h,compared,parsePolipoStatsBuffer_nil]
    rfl
  · rw [if_neg (mt hd.mp h),if_neg h,compared,parsePolipoStatsBuffer_nil]
    rfl

theorem messages_idle (time : ℕ) (cs : List TimedCall) :
    (idle last interval attempts).messages (idleCall time :: cs) =
    if (idle last interval attempts).Overdue (idleCall time) then (time, true) ::
        (idle (getTickCount time) defaultSendInterval
          (attempts ++ [⟨false,.empty,true⟩])).messages cs else
      (idle ((idle last interval attempts).comparedTime (idleCall time)) interval
        attempts).messages cs := by
  rw [messages,LocalProxy.sends,next_idle]
  split
  · exact if_pos (by simp [idle])
  · exact if_neg (by simp [idle])

theorem belowLimit_idle (t : List ℕ) :
    (idle last interval attempts).BelowLimit (t.map idleCall) := by
  induction t generalizing last interval attempts with
  | nil => trivial
  | cons time t ih =>
    refine ⟨below_idle time,fun s hs => ?_⟩
    cases hs
    rw [next_idle]
    split <;> exact ih

end Idle

def callsAroundWrap (time : ℕ) : List TimedCall :=
  [2 ^ 32 - 1000000, 2 ^ 32 - 100, time].map idleCall

theorem timely_callsAroundWrap (ha : 2 ^ 32 - 100 ≤ time) (hnear : time < 2 ^ 32 + 2 ^ 30) :
    Timely (callsAroundWrap time) := by
  constructor
  · intro c hc
    obtain ⟨time,-,rfl⟩ := mem_map.mp hc
    exact le_rfl
  · refine .cons_cons ⟨?_,?_⟩ (.cons_cons ⟨ha,?_⟩ (.singleton _))
    all_goals simp only [idleCall]; omega

theorem messages_callsAroundWrap (time : ℕ) :
    (idle 0 defaultSendInterval []).messages (callsAroundWrap time) = (2 ^ 32 - 100, true) ::
        (idle (getTickCount (2 ^ 32 - 100)) defaultSendInterval
          [⟨false,.empty,true⟩]).messages [idleCall time] := by
  show (idle 0 defaultSendInterval []).messages
    (idleCall (2 ^ 32 - 1000000) :: idleCall (2 ^ 32 - 100) :: [idleCall time]) = _
  have hc : (idle 0 defaultSendInterval []).comparedTime (idleCall (2 ^ 32 - 1000000)) =
      getTickCount (2 ^ 32 - 1000000) := by decide +kernel
  rw [messages_idle,if_neg (by decide +kernel),hc,messages_idle,if_pos (by decide +kernel)]
  rfl

theorem status_interval_kept_after_wrap :
    (idle 0 defaultSendInterval []).NoneEarly (callsAroundWrap (2 ^ 32 + 400000)) := by
  have hc : Timely (callsAroundWrap (2 ^ 32 + 400000)) :=
    timely_callsAroundWrap (by decide) (by decide)
  refine (status_interval_kept_iff rfl hc (belowLimit_idle _)).mp ?_
  rw [messages_callsAroundWrap,messages_idle,if_pos (by decide +kernel)]
  refine .cons_cons (fun _ => ?_) (.singleton _)
  decide

/-- A message is sent again after 50 milliseconds: the deadline of the one before is past the wrap
of the clock. -/
theorem message_repeated_before_wrap :
    (idle 0 defaultSendInterval []).collecting = true ∧ Timely (callsAroundWrap (2 ^ 32 - 50)) ∧
      (idle 0 defaultSendInterval []).BelowLimit (callsAroundWrap (2 ^ 32 - 50)) ∧
      ¬ ((idle 0 defaultSendInterval []).messages (callsAroundWrap (2 ^ 32 - 50))).IsChain
        Spaced := by
  refine ⟨rfl,timely_callsAroundWrap (by decide) (by decide),belowLimit_idle _,?_⟩
  rw [messages_callsAroundWrap,messages_idle,if_pos (by decide +kernel)]
  intro h
  have hs := (isChain_cons_cons.mp h).1 rfl
  exact absurd hs (by decide)

end Psiphon.Client.LocalProxy
