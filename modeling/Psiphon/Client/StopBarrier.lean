import Psiphon.Client.WorkerThread
import Mathlib.Data.List.Count

/-!
# When the stop barrier gets stuck

A thread that starts while others are past the first barrier is counted as started and never as
ready.
-/

namespace Psiphon.Client

open List Option

/-! ### Counting -/

section Counting

variable {α : Type*} {p q : α → Bool} {l : List α} {a b : α} {i : ℕ}

theorem countP_cons_toNat {p : α → Bool} {l : List α} {a : α} :
    (a :: l).countP p = l.countP p + (p a).toNat := by
  rw [countP_cons]
  cases p a <;> rfl

theorem countP_set_add (h : l[i]? = some a) :
    (l.set i b).countP p + (p a).toNat = l.countP p + (p b).toNat := by
  induction l generalizing i with
  | nil => simp at h
  | cons c l ih =>
    cases i with
    | zero =>
      obtain rfl : c = a := by simpa using h
      rw [set_cons_zero,countP_cons_toNat,countP_cons_toNat]
      omega
    | succ i =>
      have := ih (i := i) (by simpa using h)
      rw [set_cons_succ,countP_cons_toNat,countP_cons_toNat]
      omega

theorem countP_lt_of_mem (hle : ∀ a, p a = true → q a = true) (hmem : a ∈ l) (hq : q a = true)
    (hp : p a = false) : l.countP p < l.countP q := by
  induction l with
  | nil => cases hmem
  | cons c l ih =>
    have hr : l.countP p ≤ l.countP q := countP_mono_left fun a _ => hle a
    rcases mem_cons.mp hmem with rfl | hmem
    · rw [countP_cons_toNat,countP_cons_toNat,hp,hq]
      exact Nat.lt_succ_of_le hr
    · have hlt := ih hmem
      have hc : (p c).toNat ≤ (q c).toNat := by
        cases hpc : p c with
        | false => exact Nat.zero_le _
        | true => simp [hle c hpc]
      rw [countP_cons_toNat,countP_cons_toNat]
      omega

end Counting

/-! ### What a thread has done -/

namespace Point

def started : Point → Bool
  | .threadStarting => false
  | _ => true

def reported : Point → Bool
  | .allStopping | .stopImminent | .readyForStop | .allReady | .doStop _ | .stopped => true
  | _ => false

/-- It has called `ThreadReadyForStop`, or never will. -/
def ready : Point → Bool
  | .allReady | .doStop _ | .stopped => true
  | _ => false

/-- It is past the first barrier and not past the second one. -/
def between : Point → Bool
  | .stopImminent | .readyForStop | .allReady => true
  | _ => false

theorem started_of_reported {point : Point} (h : point.reported = true) : point.started = true := by
  cases point <;> simp_all [reported,started]

theorem reported_of_ready {point : Point} (h : point.ready = true) : point.reported = true := by
  cases point <;> simp_all [reported,ready]

end Point

/-! ### One step of a thread -/

/-- All threads that have started report a clean stop. -/
def WorkerThreadSynch.AllClean (y : WorkerThreadSynch) : Prop :=
  false ∉ y.threadCleanStops ∧ y.threadCleanStops.length = y.threadsStarted

structure Effect (y : WorkerThreadSynch) (point : Point) (y' : WorkerThreadSynch)
    (point' : Point) : Prop where
  started : y'.threadsStarted + point.started.toNat = y.threadsStarted + point'.started.toNat
  reported : y'.threadCleanStops.length + point.reported.toNat =
    y.threadCleanStops.length + point'.reported.toNat
  ready_le : y'.threadsReadyToStop + point.ready.toNat ≤
    y.threadsReadyToStop + point'.ready.toNat
  -- a thread that stops without the second barrier leaves an unclean stop behind
  ready : false ∉ y'.threadCleanStops → false ∉ y.threadCleanStops ∧
    y'.threadsReadyToStop + point.ready.toNat = y.threadsReadyToStop + point'.ready.toNat
  keeps : point ≠ .threadStarting → (∀ clean, point ≠ .stopping clean) → y.AllClean → y'.AllClean
  enters : point'.between = true → point.between = true ∨ y'.AllClean

section Effects

variable {y y' : WorkerThreadSynch} {signal : Bool} {result : CallResult} {point point' : Point}

theorem Effect.silent (hs : point.started = point'.started)
    (hr : point.reported = point'.reported) (hre : point.ready = point'.ready)
    (he : point'.between = true → point.between = true ∨ y.AllClean) :
    Effect y point y point' where
  started := by rw [hs]
  reported := by rw [hr]
  ready_le := Nat.le_of_eq (by rw [hre])
  ready h := ⟨h,by rw [hre]⟩
  keeps _ _ h := h
  enters := he

theorem Effect.branch {b : Bool} {p q : Point} (hp : Effect y point y' p)
    (hq : Effect y point y' q) : Effect y point y' (if b then p else q) := by
  cases b
  · exact hq
  · exact hp

theorem effect_stopping (clean : Bool) : Effect y (.stopping clean) (y.threadStoppingCleanly clean)
      (if clean then .allStopping else .doStop false) where
  started := by cases clean <;> rfl
  reported := by cases clean <;> simp [WorkerThreadSynch.threadStoppingCleanly,Point.reported]
  ready_le := by cases clean <;> simp [WorkerThreadSynch.threadStoppingCleanly,Point.ready]
  ready h := by
    cases clean with
    | true => exact ⟨fun hm => h (mem_append_left _ hm),rfl⟩
    | false => exact absurd (mem_append_right _ (.head _)) h
  keeps _ h := absurd rfl (h clean)
  enters h := by cases clean <;> cases h

theorem effect_allStopping {all : Bool} (h : y.allThreadsStoppingCleanly = some all) :
    Effect y .allStopping y (if all then .stopImminent else .doStop true) := by
  rw [WorkerThreadSynch.allThreadsStoppingCleanly] at h
  split at h
  case isTrue hu =>
    obtain rfl : false = all := Option.some.inj h
    exact ⟨rfl,rfl,Nat.le_succ _,fun hc => absurd hu hc,fun _ _ h => h,nofun⟩
  case isFalse hc =>
    split at h
    case isTrue ha =>
      obtain rfl : true = all := Option.some.inj h
      exact .silent rfl rfl rfl fun _ => .inr ⟨hc,ha⟩
    case isFalse => cases h

/-- Every step of a thread has an effect that the counters account for. -/
theorem effect_step (h : point.step y signal result = some (y', point')) :
    Effect y point y' point' := by
  have hb : ∀ {b : Bool} {p q : Point}, some (y, if b then p else q) = some (y', point') →
      Effect y point y p → Effect y point y q → Effect y point y' point' := by
    intro b p q heq hp hq
    cases heq
    exact hp.branch hq
  cases point with
  | threadStarting =>
    cases h
    exact ⟨rfl,rfl,Nat.le_refl _,fun h => ⟨h,rfl⟩,fun h => absurd rfl h,nofun⟩
  | startSignal | startStopping | loopSignal | loopStopping =>
    exact hb h (.silent rfl rfl rfl nofun) (.silent rfl rfl rfl nofun)
  | doStart | periodicCheck =>
    cases h
    split
    · exact .silent rfl rfl rfl nofun
    · exact .silent rfl rfl rfl nofun
  | stopping clean =>
    cases h
    exact effect_stopping clean
  | allStopping =>
    obtain ⟨all,ha,heq⟩ := map_eq_some_iff.mp h
    obtain ⟨rfl,rfl⟩ := Prod.mk.inj heq
    exact effect_allStopping ha
  | stopImminent =>
    cases h
    exact .silent rfl rfl rfl fun _ => .inl rfl
  | readyForStop =>
    cases h
    exact ⟨rfl,rfl,Nat.le_refl _,fun h => ⟨h,rfl⟩,fun _ _ h => h,fun _ => .inl rfl⟩
  | allReady =>
    rw [Point.step] at h
    split at h
    · cases h
      exact .silent rfl rfl rfl nofun
    · cases h
  | doStop cleanly =>
    cases h
    exact .silent rfl rfl rfl nofun
  | stopped => cases h

end Effects

/-! ### Runs -/

namespace WorkerState

def count (p : Point → Bool) (s : WorkerState) : ℕ := s.threads.countP fun t => p t.point

/-- What holds in every reachable state: the counters count threads. While no stop was unclean,
every thread that stopped went through both barriers. -/
structure Counted (s : WorkerState) : Prop where
  started : s.synch.threadsStarted = s.count Point.started
  reported : s.synch.threadCleanStops.length = s.count Point.reported
  ready_le : s.synch.threadsReadyToStop ≤ s.count Point.ready
  ready : false ∉ s.synch.threadCleanStops → s.synch.threadsReadyToStop = s.count Point.ready

/-- Once a thread has passed the first barrier, and until it has passed the second one, all threads
that have started report a clean stop. -/
def Passed (s : WorkerState) : Prop := ∀ t ∈ s.threads, t.point.between = true → s.synch.AllClean

/-- No thread calls `ThreadStarting` while another one is between the barriers. -/
def Orderly (s : WorkerState) : WorkerAct → Prop
  | .run i _ => (∃ t ∈ s.threads[i]?, t.point = .threadStarting) →
      ∀ t ∈ s.threads, t.point.between = false
  | _ => True

instance (s : WorkerState) (act : WorkerAct) : Decidable (s.Orderly act) := by
  cases act <;> unfold Orderly <;> infer_instance

section Invariant

variable {s s' : WorkerState} {t : WorkerThread} {i : ℕ}

theorem step_cases {act : WorkerAct} (h : s.step act = some s') : s' = s.createThread ∨
    (s'.synch = s.synch ∧ (s'.threads = s.threads ∨ ∃ i t, s.threads[i]? = some t ∧
      s'.threads = s.threads.set i { t with internalSignalStop := true })) ∨
    ∃ i result t, act = .run i result ∧ s.threads[i]? = some t ∧ ∃ point,
      t.point.step s.synch (s.signal || t.internalSignalStop) result = some (s'.synch, point) ∧
      s'.threads = s.threads.set i { t with point } := by
  cases act with
  | create => exact .inl (Option.some.inj h).symm
  | raiseSignal =>
    cases h
    exact .inr (.inl ⟨rfl,.inl rfl⟩)
  | stop i =>
    obtain ⟨t,ht,rfl⟩ := map_eq_some_iff.mp h
    exact .inr (.inl ⟨rfl,.inr ⟨i,t,ht,rfl⟩⟩)
  | run i result =>
    obtain ⟨t,ht,h⟩ := bind_eq_some_iff.mp h
    obtain ⟨⟨synch,point⟩,hp,h⟩ := bind_eq_some_iff.mp h
    cases h
    exact .inr (.inr ⟨i,result,t,rfl,ht,point,hp,rfl⟩)

theorem count_set (p : Point → Bool) {point : Point} {flag : Bool} (ht : s.threads[i]? = some t)
    (hth : s'.threads = s.threads.set i ⟨point,flag⟩) :
    s'.count p + (p t.point).toNat = s.count p + (p point).toNat := by
  rw [count,count,hth]
  exact countP_set_add ht

theorem count_createThread (p : Point → Bool) :
    s.createThread.count p = s.count p + (p .threadStarting).toNat := by
  rw [count,createThread,countP_append]
  exact congrArg _ (by rw [countP_cons_toNat]; exact Nat.zero_add _)

theorem Counted.of_count_eq (h : s.Counted) (hs : s'.synch = s.synch)
    (hc : ∀ p : Point → Bool, p .threadStarting = false → s'.count p = s.count p) : s'.Counted := by
  refine ⟨?_,?_,?_,?_⟩ <;> rw [hs,hc _ rfl]
  · exact h.started
  · exact h.reported
  · exact h.ready_le
  · exact h.ready

theorem Counted.step {act : WorkerAct} (h : s.Counted) (hst : s.step act = some s') :
    s'.Counted := by
  rcases step_cases hst with rfl | ⟨hs,hth | ⟨i,t,ht,hth⟩⟩ | ⟨i,result,t,-,ht,point,hpo,hth⟩
  · refine h.of_count_eq rfl fun p hp => ?_
    rw [count_createThread,hp]
    rfl
  · exact h.of_count_eq hs fun p _ => by rw [count,count,hth]
  · exact h.of_count_eq hs fun p _ => Nat.add_right_cancel (count_set p ht hth)
  · have he := effect_step hpo
    have hstarted := count_set Point.started ht hth
    have hreported := count_set Point.reported ht hth
    have hready := count_set Point.ready ht hth
    refine ⟨?_,?_,?_,fun hc => ?_⟩
    · have := he.started
      have := h.started
      omega
    · have := he.reported
      have := h.reported
      omega
    · have := he.ready_le
      have := h.ready_le
      omega
    · obtain ⟨hb,hcount⟩ := he.ready hc
      have := h.ready hb
      omega

theorem Counted.reported_of_allClean (h : s.Counted) (hc : s.synch.AllClean)
    (ht : t ∈ s.threads) (hs : t.point.started = true) : t.point.reported = true := by
  by_contra hnot
  have hlt : s.count Point.reported < s.count Point.started :=
    countP_lt_of_mem (fun _ => Point.started_of_reported) ht hs (by simpa using hnot)
  have := h.started
  have := h.reported
  have := hc.2
  omega

theorem Passed.step {act : WorkerAct} (h : s.Passed) (hc : s.Counted)
    (ho : s.Orderly act) (hstep : s.step act = some s') : s'.Passed := by
  intro u hu hb
  rcases step_cases hstep with rfl | ⟨hsy,hth | ⟨i,t,ht,hth⟩⟩ | ⟨i,result,t,rfl,ht,point,hp,hth⟩
  · rcases mem_append.mp hu with hu | hu
    · exact h u hu hb
    · obtain rfl := mem_singleton.mp hu
      cases hb
  · rw [hsy]
    exact h u (hth ▸ hu) hb
  · rw [hsy]
    rw [hth] at hu
    rcases mem_or_eq_of_mem_set hu with hu | rfl
    · exact h u hu hb
    · exact h t (mem_of_getElem? ht) hb
  · have he := effect_step hp
    have hmem := mem_of_getElem? ht
    -- while a thread is between the barriers, no other one starts or reports
    have hk : ∀ v ∈ s.threads, v.point.between = true → s'.synch.AllClean := by
      intro v hv hvb
      have hcl := h v hv hvb
      refine he.keeps (fun hst => ?_) (fun clean hs => ?_) hcl
      · have := ho ⟨t,ht,hst⟩ v hv
        rw [this] at hvb
        cases hvb
      · have := hc.reported_of_allClean hcl hmem (by rw [hs]; rfl)
        rw [hs] at this
        cases this
    rw [hth] at hu
    rcases mem_or_eq_of_mem_set hu with hu | rfl
    · exact hk u hu hb
    · rcases he.enters hb with hbe | hcl
      · exact hk t hmem hbe
      · exact hcl

theorem counted_init : init.Counted := ⟨rfl,rfl,Nat.le_refl _,fun _ => rfl⟩

/-- The assertions of `ThreadStoppingCleanly` and `ThreadReadyForStop` hold in every run. -/
theorem assertions_hold {as : List WorkerAct} (h : Runs.run step init as = some s)
    (ht : t ∈ s.threads) : (∀ clean, t.point = .stopping clean →
      s.synch.threadCleanStops.length < s.synch.threadsStarted) ∧
    (t.point = .readyForStop → s.synch.threadsReadyToStop < s.synch.threadsStarted) := by
  have hc : s.Counted := Runs.run_invariant (fun _ _ _ => Counted.step) counted_init h
  refine ⟨fun clean hp => ?_,fun hp => ?_⟩
  · rw [hc.reported,hc.started]
    exact countP_lt_of_mem (fun _ => Point.started_of_reported) ht (by rw [hp]; rfl)
      (by rw [hp]; rfl)
  · rw [hc.started]
    have hlt : s.count Point.ready < s.count Point.started :=
      countP_lt_of_mem (fun _ hr => Point.started_of_reported (Point.reported_of_ready hr))
        ht (by rw [hp]; rfl) (by rw [hp]; rfl)
    exact Nat.lt_of_le_of_lt hc.ready_le hlt

theorem count_of_stuck {p : Point → Bool} (h : s.Stuck) (hstopped : p .stopped = true)
    (hstopping : p .allStopping = true) (hready : p .allReady = true) :
    s.count p = s.threads.length := by
  refine countP_eq_length.mpr fun t ht => ?_
  rcases h.2 t ht with hp | ⟨hp,-⟩ | ⟨hp,-⟩ <;> rw [hp] <;> assumption

/-- In a state that is stuck, no thread waits for the others to report. -/
theorem Counted.not_waiting_of_stuck (hc : s.Counted) (h : s.Stuck) :
    s.synch.allThreadsStoppingCleanly ≠ none := by
  have ha : s.synch.threadCleanStops.length = s.synch.threadsStarted := by
    rw [hc.reported,hc.started,count_of_stuck h rfl rfl rfl,count_of_stuck h rfl rfl rfl]
  rw [WorkerThreadSynch.allThreadsStoppingCleanly,if_pos ha]
  split <;> simp

/-- If no thread starts while another one is between the two barriers, no state is reached in which
a thread waits forever in one of them. -/
theorem barrier_never_stuck {as : List WorkerAct} (horderly : Runs.Along step Orderly init as)
    (h : Runs.run step init as = some s) : ¬ s.Stuck := by
  obtain ⟨hc,hp⟩ : s.Counted ∧ s.Passed :=
    Runs.run_invariant_along (I := fun s => s.Counted ∧ s.Passed)
      (fun _ _ _ hs horderly hstep => ⟨hs.1.step hstep,hs.2.step hs.1 horderly hstep⟩)
      ⟨counted_init,nofun⟩ horderly h
  intro hstu
  obtain ⟨t,ht,⟨-,hw⟩ | ⟨hpo,hw⟩⟩ := hstu.1
  · exact hc.not_waiting_of_stuck hstu hw
  · -- every thread that started reported a clean stop, so all are ready
    have hcl := hp t ht (by rw [hpo]; rfl)
    have hn : ∀ u ∈ s.threads, u.point ≠ .allStopping := by
      intro u hu hup
      rcases hstu.2 u hu with hst | ⟨-,hw⟩ | ⟨hr,-⟩
      · rw [hup] at hst
        cases hst
      · exact hc.not_waiting_of_stuck hstu hw
      · rw [hup] at hr
        cases hr
    have hr : s.count Point.ready = s.threads.length := by
      refine countP_eq_length.mpr fun u hu => ?_
      rcases hstu.2 u hu with hpo | ⟨hpo,-⟩ | ⟨hpo,-⟩
      · rw [hpo]; rfl
      · exact absurd hpo (hn u hu)
      · rw [hpo]; rfl
    have he : s.synch.threadsReadyToStop = s.synch.threadsStarted := by
      rw [hc.ready hcl.1,hr,hc.started,count_of_stuck hstu rfl rfl rfl]
    simp [WorkerThreadSynch.allThreadsReadyToStop,he] at hw

end Invariant

def startUp (i : ℕ) : List WorkerAct := List.replicate 4 (.run i .success)

/-- Two threads start, the signal is raised, and the first one waits for the second. -/
def twoThreads : List WorkerAct :=
  .create :: startUp 0 ++ .create :: startUp 1 ++
    .raiseSignal :: List.replicate 2 (.run 0 .success) ++
    List.replicate 3 (.run 1 .success) ++ List.replicate 3 (.run 0 .success)

theorem assertions_hold_two_threads : ∃ s, Runs.run step init (twoThreads.take 18) = some s ∧
    s.synch.threadsReadyToStop < s.synch.threadsStarted := by
  obtain ⟨s,hs,t,ht,hp⟩ : ∃ s, Runs.run step init (twoThreads.take 18) = some s ∧
    ∃ t ∈ s.threads, t.point = .readyForStop := ⟨_,rfl,by decide⟩
  exact ⟨s,hs,(assertions_hold hs ht).2 hp⟩

theorem barrier_never_stuck_two_threads :
    ∃ s, Runs.run step init twoThreads = some s ∧ (∃ t ∈ s.threads, s.Blocked t) ∧ ¬ s.Stuck := by
  obtain ⟨s,hs,hb⟩ : ∃ s, Runs.run step init twoThreads = some s ∧
      ∃ t ∈ s.threads, s.Blocked t := ⟨_,rfl,by decide⟩
  exact ⟨s,hs,hb,barrier_never_stuck (by decide) hs⟩

/-- The second thread has been created, and calls `ThreadStarting` after the first one has passed
the first barrier. -/
def lateStart : List WorkerAct :=
  .create :: startUp 0 ++ .create :: .raiseSignal :: List.replicate 3 (.run 0 .success) ++
    List.replicate 4 (.run 1 .success) ++ List.replicate 2 (.run 0 .success)

/-- The second thread has stopped, and the first one waits for it forever. -/
theorem late_start_stuck :
    ∃ s, Runs.run step init lateStart = some s ∧ s.Stuck ∧
      s.threads = [⟨.allReady, false⟩, ⟨.stopped, false⟩] :=
  ⟨_,rfl,by decide,rfl⟩

end WorkerState

end Psiphon.Client
