import Psiphon.Lib.Runs

/-!
# Worker threads and their stop barrier

`worker_thread.cpp`: threads that share one `WorkerThreadSynch`. A thread inside a blocking method
has no step until what it waits for is true.
-/

namespace Psiphon.Client

structure WorkerThreadSynch where
  threadsStarted : ℕ
  threadsReadyToStop : ℕ
  threadCleanStops : List Bool
  deriving DecidableEq, Repr

namespace WorkerThreadSynch

def reset : WorkerThreadSynch := ⟨0, 0, []⟩

def threadStarting (y : WorkerThreadSynch) : WorkerThreadSynch :=
  { y with threadsStarted := y.threadsStarted + 1 }

def threadStoppingCleanly (clean : Bool) (y : WorkerThreadSynch) : WorkerThreadSynch :=
  { y with threadCleanStops := y.threadCleanStops ++ [clean] }

def isThreadStopping (y : WorkerThreadSynch) : Bool := y.threadCleanStops.length > 0

/-- `BlockUntil_AllThreadsStoppingCleanly`: `none` while it waits. An unclean stop ends it at
once. -/
def allThreadsStoppingCleanly (y : WorkerThreadSynch) : Option Bool :=
  if false ∈ y.threadCleanStops then some false
  else if y.threadCleanStops.length = y.threadsStarted then some true
  else none

def threadReadyForStop (y : WorkerThreadSynch) : WorkerThreadSynch :=
  { y with threadsReadyToStop := y.threadsReadyToStop + 1 }

def allThreadsReadyToStop (y : WorkerThreadSynch) : Bool :=
  y.threadsReadyToStop = y.threadsStarted

end WorkerThreadSynch

/-- The program points of `IWorkerThread::Thread`, named after what comes next. -/
inductive Point where
  | threadStarting
  | startSignal
  | startStopping
  | doStart
  | loopSignal
  | loopStopping
  | periodicCheck
  | stopping (clean : Bool)
  | allStopping
  | stopImminent
  | readyForStop
  | allReady
  | doStop (cleanly : Bool)
  | stopped
  deriving DecidableEq, Repr

inductive CallResult where
  | success
  | failure
  | thrown
  deriving DecidableEq, Repr

structure WorkerThread where
  point : Point
  internalSignalStop : Bool
  deriving DecidableEq, Repr

/-- One step of `IWorkerThread::Thread`; `signal` is the result of `CheckSignal`. -/
def Point.step (y : WorkerThreadSynch) (signal : Bool) (result : CallResult) :
    Point → Option (WorkerThreadSynch × Point)
  | .threadStarting => some (y.threadStarting, .startSignal)
  -- the abort before `DoStart` is an unclean stop
  | .startSignal => some (y, if signal then .stopping false else .startStopping)
  | .startStopping => some (y, if y.isThreadStopping then .stopping false else .doStart)
  | .doStart => some (y, if result = .success then .loopSignal else .stopping false)
  | .loopSignal => some (y, if signal then .stopping true else .loopStopping)
  | .loopStopping => some (y, if y.isThreadStopping then .stopping true else .periodicCheck)
  | .periodicCheck => some (y, if result = .success then .loopSignal else .stopping false)
  | .stopping clean =>
    some (y.threadStoppingCleanly clean, if clean then .allStopping else .doStop false)
  | .allStopping =>
    y.allThreadsStoppingCleanly.map fun all => (y, if all then .stopImminent else .doStop true)
  | .stopImminent => some (y, .readyForStop)
  | .readyForStop => some (y.threadReadyForStop, .allReady)
  | .allReady => if y.allThreadsReadyToStop then some (y, .doStop true) else none
  | .doStop _ => some (y, .stopped)
  | .stopped => none

structure WorkerState where
  synch : WorkerThreadSynch
  signal : Bool
  threads : List WorkerThread
  deriving DecidableEq, Repr

def WorkerState.init : WorkerState := ⟨.reset, false, []⟩

inductive WorkerAct where
  /-- A thread is created. -/
  | create
  | raiseSignal
  /-- `IWorkerThread::Stop` of a thread. -/
  | stop (i : ℕ)
  /-- A step of a thread. -/
  | run (i : ℕ) (result : CallResult)
  deriving DecidableEq, Repr

namespace WorkerState

def createThread (s : WorkerState) : WorkerState :=
  { s with threads := s.threads ++ [⟨.threadStarting, false⟩] }

def step (s : WorkerState) : WorkerAct → Option WorkerState
  | .create => some s.createThread
  | .raiseSignal => some { s with signal := true }
  | .stop i => s.threads[i]?.map fun t =>
      { s with threads := s.threads.set i { t with internalSignalStop := true } }
  | .run i result => do
      let t ← s.threads[i]?
      let (synch, point) ← t.point.step s.synch (s.signal || t.internalSignalStop) result
      return { s with synch, threads := s.threads.set i { t with point } }

/-- The thread waits in one of the blocking methods, for something that is false. -/
def Blocked (s : WorkerState) (t : WorkerThread) : Prop :=
  (t.point = .allStopping ∧ s.synch.allThreadsStoppingCleanly = none) ∨
  (t.point = .allReady ∧ s.synch.allThreadsReadyToStop = false)

/-- A thread waits and every thread has finished or waits: unless another thread is created, it
waits forever. -/
def Stuck (s : WorkerState) : Prop :=
  (∃ t ∈ s.threads, s.Blocked t) ∧ ∀ t ∈ s.threads, t.point = .stopped ∨ s.Blocked t

instance (s : WorkerState) (t : WorkerThread) : Decidable (s.Blocked t) :=
  inferInstanceAs (Decidable (_ ∨ _))

instance (s : WorkerState) : Decidable s.Stuck :=
  inferInstanceAs (Decidable ((∃ t ∈ s.threads, s.Blocked t) ∧ _))

end WorkerState

end Psiphon.Client
