import Psiphon.Client.LocalProxy

/-!
# Delivery of the local proxy's statistics

The messages that succeeded are the tallies of successive segments of what was counted.
-/

namespace Psiphon.Client

open List LocalProxy

namespace LocalProxy

variable {s : LocalProxy}

def delivered (s : LocalProxy) : List Counters :=
  (s.attempts.filter Attempt.sent).map Attempt.counters

/-- Everything counted is in at most one message: the messages are the tallies of segments that
follow each other in what was counted. -/
def DeliveredOnce (s : LocalProxy) : Prop :=
  ∃ (segments : List (List Stat)) (rest : List Stat), s.counted = segments.flatten ++ rest ∧
    s.delivered = segments.map .tally

def Accounted (s : LocalProxy) : Prop :=
  ∃ (segments : List (List Stat)) (rest : List Stat), s.counted = segments.flatten ++ rest ∧
    s.delivered = segments.map .tally ∧ s.counters = .tally rest

theorem delivered_sendStatusMessage (f sent : Bool) : (s.sendStatusMessage f sent).delivered =
      if sent then s.delivered ++ [s.counters] else s.delivered := by
  cases sent <;> simp [sendStatusMessage,delivered]

theorem Accounted.deliveredOnce (h : s.Accounted) : s.DeliveredOnce := by
  obtain ⟨segments,rest,hc,hd,-⟩ := h
  exact ⟨segments,rest,hc,hd⟩

theorem Accounted.congr {t : LocalProxy} (h : s.Accounted) (hco : t.counted = s.counted)
    (ha : t.attempts = s.attempts) (hc : t.counters = s.counters) : t.Accounted := by
  rw [Accounted,delivered,hco,ha,hc]
  exact h

theorem Accounted.count (h : s.Accounted) (stats : List Stat) : (s.count stats).Accounted := by
  obtain ⟨segments,rest,hco,hd,hc⟩ := h
  refine ⟨segments,rest ++ stats,?_,hd,?_⟩
  · show s.counted ++ stats = _
    rw [hco,append_assoc]
  · show stats.foldl .add s.counters = _
    rw [hc,Counters.tally,Counters.tally,foldl_append]

theorem Accounted.deliver (h : s.Accounted) : ∃ segments : List (List Stat),
    s.counted = segments.flatten ∧ s.delivered ++ [s.counters] = segments.map .tally := by
  obtain ⟨segments,rest,hco,hd,hc⟩ := h
  refine ⟨segments ++ [rest],?_,?_⟩
  · rw [hco,flatten_append,flatten_singleton]
  · rw [hd,hc,map_append,map_singleton]

theorem Accounted.sendStats (h : s.Accounted) (f : Bool) (call : Call) :
    (s.sendStats f call).Accounted := by
  have hs := @delivered_sendStatusMessage s f call.sent
  rw [LocalProxy.sendStats]
  split
  · rename_i hse
    rw [if_pos hse] at hs
    obtain ⟨segments,hc,hd⟩ := h.deliver
    refine ⟨segments,[],?_,hs.trans hd,rfl⟩
    show s.counted = _
    rw [hc,append_nil]
  · rename_i hse
    rw [if_neg hse] at hs
    have hsa : (s.sendStatusMessage f call.sent).Accounted := by
      obtain ⟨segments,rest,hc,hd,hco⟩ := h
      exact ⟨segments,rest,hc,hs.trans hd,hco⟩
    exact hsa.congr rfl rfl rfl

theorem Accounted.sendIfDue (h : s.Accounted) (f : Bool) (call : Call) :
    (s.sendIfDue f call).Accounted := by
  rw [LocalProxy.sendIfDue]
  split
  · exact h.sendStats f call
  · exact h

theorem Accounted.processStatsAndStatus (h : s.Accounted) (f : Bool) (call : Call) :
    (s.processStatsAndStatus f call).1.Accounted := by
  rw [LocalProxy.processStatsAndStatus]
  split
  · exact h
  · have he : (s.enter f call.start).Accounted := h
    split
    · exact he
    · rename_i b hpeek
      have hw : (((s.enter f call.start).parsePolipoStatsBuffer b).wrapTime
        call.now).Accounted := he.count _
      exact hw.sendIfDue f call

theorem Accounted.stopImminent (h : s.Accounted) (call : Call) :
    (s.stopImminent call).Accounted := by
  rw [LocalProxy.stopImminent]
  split
  · exact h.processStatsAndStatus true call
  · exact h

theorem Accounted.check (h : s.Accounted) (check : Check) : (s.check check).Accounted := by
  cases check with
  | periodic call => exact h.processStatsAndStatus false call
  | updateSessionInfo pageViewRegexes httpsRequestRegexes => exact h

/-- What holds from `DoStop` on: a message of `Cleanup` leaves the counters as they were, and is the
last. -/
def Settled (s : LocalProxy) : Prop :=
  s.Accounted ∨ s.DeliveredOnce ∧ s.finalStatsSent = true

theorem Settled.deliveredOnce (h : s.Settled) : s.DeliveredOnce :=
  h.elim Accounted.deliveredOnce And.left

def Sends (s : LocalProxy) (doStats : Bool) : Prop :=
  doStats = true ∧ s.finalStatsSent = false ∧ s.collecting = true ∧ 0 < s.counters.bytesTransferred

theorem cleanup_of_sends {ds : Bool} (h : s.Sends ds) (sent : Bool) : s.cleanup ds sent =
      { s.sendStatusMessage true sent with
        process := false, lastStatusSendTime := 0, finalStatsSent := sent } := by
  obtain ⟨rfl,hf,hc,hb⟩ := h
  cases sent <;> simp [cleanup,sendStatusMessage,hf,hc,hb]

theorem cleanup_of_not_sends {ds : Bool} (h : ¬ s.Sends ds) (sent : Bool) :
    s.cleanup ds sent = { s with process := false, lastStatusSendTime := 0 } := by
  refine if_neg fun hs => h ?_
  simpa [Sends,and_assoc] using hs

theorem Settled.cleanup (h : s.Settled) (ds sent : Bool) : (s.cleanup ds sent).Settled := by
  by_cases hs : s.Sends ds
  · have ha := h.resolve_right fun hf => by simpa [hs.2.1] using hf.2
    rw [cleanup_of_sends hs]
    have hse := @delivered_sendStatusMessage s true sent
    cases sent with
    | true =>
      obtain ⟨segments,hc,hd⟩ := ha.deliver
      refine .inr ⟨⟨segments,[],?_,hse.trans hd⟩,rfl⟩
      rw [append_nil]
      exact hc
    | false =>
      obtain ⟨segments,rest,hc,hd,hco⟩ := ha
      exact .inl ⟨segments,rest,hc,hse.trans hd,hco⟩
  · rw [cleanup_of_not_sends hs]
    exact h

/-- Once the final statistics are marked as sent, `Cleanup` sends nothing. -/
theorem attempts_cleanup_of_final (h : s.finalStatsSent = true) (ds sent : Bool) :
    (s.cleanup ds sent).attempts = s.attempts ∧ (s.cleanup ds sent).finalStatsSent = true := by
  rw [cleanup_of_not_sends fun hs => by simpa [h] using hs.2.1]
  exact ⟨rfl,h⟩

theorem sendIfDue_frame (f : Bool) (call : Call) : (s.sendIfDue f call).process = s.process ∧
      (s.sendIfDue f call).collecting = s.collecting ∧
      (s.sendIfDue f call).finalStatsSent = s.finalStatsSent := by
  rw [sendIfDue,sendStats]
  split
  · split
    · exact ⟨rfl,rfl,rfl⟩
    · exact ⟨rfl,rfl,rfl⟩
  · exact ⟨rfl,rfl,rfl⟩

theorem processStatsAndStatus_frame (f : Bool) (call : Call) :
    (s.processStatsAndStatus f call).1.process = s.process ∧
      (s.processStatsAndStatus f call).1.collecting = s.collecting ∧
      (s.processStatsAndStatus f call).1.finalStatsSent =
        (s.finalStatsSent || s.collecting && f) := by
  rw [processStatsAndStatus]
  cases hc : s.collecting with
  | false => exact ⟨rfl,hc,by simp⟩
  | true =>
    cases call.peek with
    | none => exact ⟨rfl,hc,rfl⟩
    | some b =>
      obtain ⟨hp,hco,hf⟩ := @sendIfDue_frame
        (((s.enter f call.start).parsePolipoStatsBuffer b).wrapTime call.now) f call
      exact ⟨hp,hco.trans hc,hf⟩

/-- `StopImminent` marks the final statistics as sent, whatever becomes of them. -/
theorem finalStatsSent_stopImminent (hp : s.process = true)
    (hc : s.collecting = true) (call : Call) : (s.stopImminent call).finalStatsSent = true := by
  rw [stopImminent,if_pos hp,(processStatsAndStatus_frame true call).2.2,hc]
  exact Bool.or_true _

theorem counters_stopImminent (hp : s.process = true) (hc : s.collecting = true)
    {call : Call} (hf : call.peek = none ∨ call.sent = false) : (s.stopImminent call).counters =
      match call.peek with
      | none => s.counters
      | some b => (s.parsePolipoStatsBuffer b).counters := by
  rw [stopImminent,if_pos hp,processStatsAndStatus,hc]
  cases hpe : call.peek with
  | none => rfl
  | some b =>
    have hs := hf.resolve_left (by simp [hpe])
    show (sendIfDue _ true call).counters = _
    rw [sendIfDue,Bool.true_or,if_pos rfl,sendStats,hs]
    rfl

theorem check_frame (check : Check) : (s.check check).process = s.process ∧
    (s.check check).collecting = s.collecting ∧
    (s.check check).finalStatsSent = s.finalStatsSent := by
  cases check with
  | updateSessionInfo pageViewRegexes httpsRequestRegexes => exact ⟨rfl,rfl,rfl⟩
  | periodic call =>
    obtain ⟨hp,hc,hf⟩ := @processStatsAndStatus_frame s false call
    exact ⟨hp,hc,hf.trans (by simp)⟩

end LocalProxy

/-! ### Lifetimes -/

namespace Lifetime

variable {life : Lifetime}

theorem checks_accounted (c : List Check) {s : LocalProxy} (h : s.Accounted) :
    (c.foldl check s).Accounted := by
  induction c generalizing s with
  | nil => exact h
  | cons check c ih => exact ih (h.check check)

theorem checks_frame (c : List Check) (s : LocalProxy) :
    (c.foldl check s).process = s.process ∧
      (c.foldl check s).collecting = s.collecting ∧
      (c.foldl check s).finalStatsSent = s.finalStatsSent := by
  induction c generalizing s with
  | nil => exact ⟨rfl,rfl,rfl⟩
  | cons check c ih =>
    obtain ⟨hp,hc,hf⟩ := s.check_frame check
    obtain ⟨hp',hc',hf'⟩ := ih (s.check check)
    exact ⟨hp'.trans hp,hc'.trans hc,hf'.trans hf⟩

theorem stopping_accounted (life : Lifetime) : life.stopping.Accounted := by
  have hr : life.running.Accounted := ⟨[],[],rfl,rfl,rfl⟩
  have hc := checks_accounted life.checks hr
  rw [stopping]
  split
  · exact hc
  · exact hc.stopImminent _

/-- Nothing is delivered twice, whatever fails. -/
theorem deliveredOnce_destroyed (life : Lifetime) : life.destroyed.DeliveredOnce := by
  have hs : life.stopped.Settled :=
    LocalProxy.Settled.cleanup (.inl life.stopping_accounted) life.cleanly life.stopSent
  exact (hs.cleanup true life.destroySent).deliveredOnce

/-- Each later `Cleanup(true)` sends what the counters have at `DoStop`, until one succeeds. -/
def SendsUntilSent (life : Lifetime) : Prop :=
  (life.cleanly = true → life.stopped.attempts =
    life.stopping.attempts ++ [⟨true, life.stopping.counters, life.stopSent⟩]) ∧
  (¬ (life.cleanly = true ∧ life.stopSent = true) → life.destroyed.attempts =
    life.stopped.attempts ++ [⟨true, life.stopping.counters, life.destroySent⟩])

/-- When the thread ends without `StopImminent`, what was counted is sent until that succeeds. -/
theorem sendsUntilSent_of_dirty (hcol : life.collecting = true)
    (hdi : life.stopImminent = none) (hb : 0 < life.stopping.counters.bytesTransferred) :
    life.SendsUntilSent := by
  obtain ⟨-,hco,hf⟩ := checks_frame life.checks life.running
  have hst : life.stopping = life.checked := by rw [stopping,hdi]
  have hse : life.stopping.Sends true := by
    refine ⟨rfl,?_,?_,hb⟩
    · rw [hst]
      exact hf
    · rw [hst]
      exact hco.trans hcol
  -- without a message in `DoStop` that succeeded, the destructor finds the same counters
  have hd : life.stopped.Sends true → life.stopped.counters = life.stopping.counters →
      life.destroyed.attempts =
        life.stopped.attempts ++ [⟨true,life.stopping.counters,life.destroySent⟩] := by
    intro hs hcou
    rw [destroyed,cleanup_of_sends hs,← hcou]
    rfl
  cases hc : life.cleanly with
  | true =>
    have hs : life.stopped = { life.stopping.sendStatusMessage true life.stopSent with
          process := false, lastStatusSendTime := 0, finalStatsSent := life.stopSent } := by
      rw [stopped,doStop,hc,cleanup_of_sends hse]
    refine ⟨fun _ => by rw [hs]; rfl,fun hsent => ?_⟩
    have hu : life.stopSent = false := by simpa [hc] using hsent
    refine hd ?_ (by rw [hs]; rfl)
    rw [hs,hu]
    exact ⟨rfl,rfl,hse.2.2.1,hb⟩
  | false =>
    have hs : life.stopped = { life.stopping with process := false, lastStatusSendTime := 0 } := by
      have hnot : ¬ life.stopping.Sends false := fun h => by cases h.1
      rw [stopped,doStop,hc,cleanup_of_not_sends hnot]
    refine ⟨fun h => absurd (hc.symm.trans h) nofun,fun _ => ?_⟩
    refine hd ?_ (by rw [hs])
    rw [hs]
    exact hse

/-- The final message of `StopImminent` fails, or is not reached because the pipe fails. -/
def FinalFails (life : Lifetime) : Prop :=
  life.collecting = true ∧ life.started = true ∧
    ∃ call ∈ life.stopImminent, call.peek = none ∨ call.sent = false

/-- What such a failure leaves is sent again by each later `Cleanup(true)`, until one succeeds. -/
def Retries (life : Lifetime) : Prop :=
  life.FinalFails → 0 < life.stopping.counters.bytesTransferred → life.SendsUntilSent

/-- `StopImminent` cannot deliver bytes that were counted: before it when the pipe fails, or with
what it reads when its message fails. -/
def Loses (life : Lifetime) : Prop :=
  life.collecting = true ∧ life.started = true ∧ ∃ call ∈ life.stopImminent,
    match call.peek with
    | none => 0 < life.checked.counters.bytesTransferred
    | some buffer => call.sent = false ∧
      0 < (life.checked.parsePolipoStatsBuffer buffer).counters.bytesTransferred

theorem counters_stopping {call : LocalProxy.Call} (hca : call ∈ life.stopImminent)
    (hco : life.collecting = true) (hs : life.started = true)
    (hf : call.peek = none ∨ call.sent = false) : life.stopping.counters =
      match call.peek with
      | none => life.checked.counters
      | some b => (life.checked.parsePolipoStatsBuffer b).counters := by
  obtain ⟨hp,hc,-⟩ := checks_frame life.checks life.running
  rw [stopping,hca]
  exact counters_stopImminent (hp.trans hs) (hc.trans hco) hf

theorem loses_iff : life.Loses ↔ life.FinalFails ∧ 0 < life.stopping.counters.bytesTransferred := by
  constructor
  · rintro ⟨hc,hs,call,hca,hl⟩
    have hf : call.peek = none ∨ call.sent = false := by
      cases hp : call.peek with
      | none => exact .inl rfl
      | some b =>
        rw [hp] at hl
        exact .inr hl.1
    refine ⟨⟨hc,hs,call,hca,hf⟩,?_⟩
    rw [counters_stopping hca hc hs hf]
    cases hp : call.peek with
    | none =>
      rw [hp] at hl
      exact hl
    | some b =>
      rw [hp] at hl
      exact hl.2
  · rintro ⟨⟨hc,hs,call,hca,hf⟩,hb⟩
    refine ⟨hc,hs,call,hca,?_⟩
    rw [counters_stopping hca hc hs hf] at hb
    cases hp : call.peek with
    | none =>
      rw [hp] at hb
      exact hb
    | some b =>
      rw [hp] at hb
      exact ⟨hf.resolve_left (by simp [hp]),hb⟩

/-- After a failure of the final message nothing more is sent. -/
theorem attempts_of_finalFails (h : life.FinalFails) :
    life.stopped.attempts = life.stopping.attempts ∧
      life.destroyed.attempts = life.stopped.attempts := by
  obtain ⟨hco,hs,call,hca,-⟩ := h
  obtain ⟨hp,hc,-⟩ := checks_frame life.checks life.running
  have hf : life.stopping.finalStatsSent = true := by
    rw [stopping,hca]
    exact finalStatsSent_stopImminent (hp.trans hs) (hc.trans hco) call
  obtain ⟨hst,hf⟩ :=
    attempts_cleanup_of_final hf life.cleanly life.stopSent
  exact ⟨hst,(attempts_cleanup_of_final hf true life.destroySent).1⟩

/-- What is counted is delivered at most once, always, and what the final message fails to deliver
is sent again exactly when there is nothing to send. -/
theorem stats_delivered_iff (life : Lifetime) :
    life.destroyed.DeliveredOnce ∧ life.Retries ↔ ¬ life.Loses := by
  constructor
  · rintro ⟨-,hr⟩ hl
    obtain ⟨hf,hb⟩ := loses_iff.mp hl
    obtain ⟨hs,hd⟩ := attempts_of_finalFails hf
    obtain ⟨hst,hde⟩ := hr hf hb
    by_cases hc : life.cleanly = true
    · simpa [hs] using hst hc
    · simpa [hd] using hde fun h => hc h.1
  · intro hl
    refine ⟨life.deliveredOnce_destroyed,fun hf hb => ?_⟩
    exact absurd (loses_iff.mpr ⟨hf,hb⟩) hl

/-- A proxy that is stopped cleanly after it transferred a hundred bytes; `sent` is the result of
the message of `StopImminent`, and later messages would succeed. -/
def hundredBytes (sent : Bool) : Lifetime where
  collecting := true
  started := true
  sendInterval := defaultSendInterval
  sendMaxEntries := defaultSendMaxEntries
  checks := []
  stopImminent := some ⟨1, some (Json.ascii "PSIPHON-BYTES-TRANSFERRED:>>100<<"), 2, sent, 0⟩
  cleanly := true
  stopSent := true
  destroySent := true

theorem sendsUntilSent_hundred : SendsUntilSent { hundredBytes true with
    checks := (hundredBytes false).stopImminent.toList.map .periodic, stopImminent := none } :=
  sendsUntilSent_of_dirty rfl rfl (by decide +kernel)

theorem stats_delivered_hundred :
    (hundredBytes true).destroyed.DeliveredOnce ∧ (hundredBytes true).Retries := by
  refine (stats_delivered_iff (hundredBytes true)).mpr ?_
  rintro ⟨-,-,call,hc,hl⟩
  cases hc
  exact absurd hl.1 nofun

/-- The bytes are still counted, and the only message is the one that failed. -/
theorem stats_lost_hundred :
    (hundredBytes false).FinalFails ∧
      (hundredBytes false).stopping.counters.bytesTransferred = 100 ∧
      (hundredBytes false).destroyed.attempts = [⟨true, ⟨[], [], 100⟩, false⟩] ∧
      ¬ (hundredBytes false).Retries := by
  have hf : (hundredBytes false).FinalFails := ⟨rfl,rfl,_,rfl,.inr rfl⟩
  refine ⟨hf,by decide +kernel,by decide +kernel,fun hr => ?_⟩
  have hs := (hr hf (by decide +kernel)).1 rfl
  exact absurd hs (by decide +kernel)

end Lifetime

end Psiphon.Client
