import Psiphon.Lib.Runs
import Mathlib.Data.Int.Notation
import Mathlib.Logic.Function.Iterate

/-!
# The tunnel service of the Android client

`TunnelManager.java` and `DataTransferStats.java`. The tunnel thread and the main thread take turns
at every statement.
-/

namespace Psiphon.Android

/-! ### Statistics -/

structure Bucket where
  bytesSent : Int64
  bytesReceived : Int64
  deriving DecidableEq, Repr

structure DataTransferStats where
  connectedTime : ℤ
  totalBytesSent : Int64
  totalBytesReceived : Int64
  slowBuckets : List Bucket
  slowBucketsLastStartTime : ℤ
  fastBuckets : List Bucket
  fastBucketsLastStartTime : ℤ
  deriving DecidableEq, Repr

namespace DataTransferStats

def slowBucketPeriodMilliseconds : ℤ := 5 * 60 * 1000

def fastBucketPeriodMilliseconds : ℤ := 1000

def maxBuckets : ℕ := 24 * 60 / 5

def bucketStartTime (now period : ℤ) : ℤ := period * now.tdiv period

def newBuckets : List Bucket := List.replicate maxBuckets ⟨0, 0⟩

def resetBytesTransferred (now : ℤ) (stats : DataTransferStats) : DataTransferStats :=
  { stats with
    slowBucketsLastStartTime := bucketStartTime now slowBucketPeriodMilliseconds
    slowBuckets := newBuckets
    fastBucketsLastStartTime := bucketStartTime now fastBucketPeriodMilliseconds
    fastBuckets := newBuckets }

def stop (now : ℤ) (stats : DataTransferStats) : DataTransferStats :=
  resetBytesTransferred now { stats with connectedTime := 0 }

def initial (now : ℤ) : DataTransferStats := stop now ⟨0, 0, 0, [], 0, [], 0⟩

def startConnected (now : ℤ) (stats : DataTransferStats) : DataTransferStats :=
  { stats with connectedTime := now }

def shiftBucket (buckets : List Bucket) : List Bucket :=
  let buckets := buckets ++ [⟨0, 0⟩]
  if maxBuckets ≤ buckets.length then buckets.tail else buckets

/-- The counter of the loop is an `int`, which can count the intervals of 68 years. -/
def shiftBuckets (diff period : ℤ) (buckets : List Bucket) : List Bucket :=
  shiftBucket^[(diff.tdiv period + 1).toNat] buckets

def manageSlowBuckets (now : ℤ) (stats : DataTransferStats) : DataTransferStats :=
  let diff := now - stats.slowBucketsLastStartTime
  if slowBucketPeriodMilliseconds ≤ diff then
    { stats with
      slowBuckets := shiftBuckets diff slowBucketPeriodMilliseconds stats.slowBuckets
      slowBucketsLastStartTime := bucketStartTime now slowBucketPeriodMilliseconds }
  else stats

def manageFastBuckets (now : ℤ) (stats : DataTransferStats) : DataTransferStats :=
  let diff := now - stats.fastBucketsLastStartTime
  if fastBucketPeriodMilliseconds ≤ diff then
    { stats with
      fastBuckets := shiftBuckets diff fastBucketPeriodMilliseconds stats.fastBuckets
      fastBucketsLastStartTime := bucketStartTime now fastBucketPeriodMilliseconds }
  else stats

def manageBuckets (now : ℤ) (stats : DataTransferStats) : DataTransferStats :=
  (stats.manageSlowBuckets now).manageFastBuckets now

def addToLast (f : Bucket → Bucket) (buckets : List Bucket) : List Bucket :=
  buckets.modify (buckets.length - 1) f

def addToBuckets (f : Bucket → Bucket) (stats : DataTransferStats) : DataTransferStats :=
  { stats with
    slowBuckets := addToLast f stats.slowBuckets
    fastBuckets := addToLast f stats.fastBuckets }

def addBytesSent (now : ℤ) (bytes : Int64) (stats : DataTransferStats) : DataTransferStats :=
  (manageBuckets now { stats with totalBytesSent := stats.totalBytesSent + bytes }).addToBuckets
    fun bucket => { bucket with bytesSent := bucket.bytesSent + bytes }

def addBytesReceived (now : ℤ) (bytes : Int64) (stats : DataTransferStats) : DataTransferStats :=
  (manageBuckets now
    { stats with totalBytesReceived := stats.totalBytesReceived + bytes }).addToBuckets
    fun bucket => { bucket with bytesReceived := bucket.bytesReceived + bytes }

end DataTransferStats

/-! ### What the service sends -/

structure TunnelState where
  availableEgressRegions : List String
  isConnected : Bool
  listeningLocalSocksProxyPort : ℕ
  listeningLocalHttpProxyPort : ℕ
  clientRegion : Option String
  homePages : List String
  deriving DecidableEq, Repr

inductive Message where
  | registerResponse (state : TunnelState)
  | knownServerRegions (availableEgressRegions : List String)
  | tunnelStarting
  | tunnelStopping
  | tunnelConnectionState (isConnected : Bool)
  | dataTransferStats (stats : DataTransferStats)
  deriving DecidableEq, Repr

structure HandshakeIntent where
  isReconnect : Bool
  state : TunnelState
  deriving DecidableEq, Repr

inductive NotificationText where
  | runningWholeDevice
  | runningBrowserOnly
  | connecting
  deriving DecidableEq, Repr

structure Notification where
  text : NotificationText
  alert : Bool
  deriving DecidableEq, Repr

/-! ### The two threads -/

inductive Callback where
  | onConnecting
  | onConnected
  | onBytesTransferred (sent received : Int64)
  | onAvailableEgressRegions (regions : List String)
  | onListeningSocksProxyPort (port : ℕ)
  | onListeningHttpProxyPort (port : ℕ)
  | onHomepage (url : String)
  | onClientRegion (region : String)
  /-- `onSocksProxyPortInUse` and `onHttpProxyPortInUse` -/
  | onProxyPortInUse
  deriving DecidableEq, Repr

inductive Event where
  | register (replyTo : ℕ)
  | unregister
  | stopService
  | onDestroy
  | onRevoke
  deriving DecidableEq, Repr

inductive Statement where
  | stopStats
  | startConnected
  | sendHandshakeIntent
  | setIsReconnect
  /-- The assignment of `setIsConnected`. -/
  | setIsConnected (isConnected : Bool)
  /-- The rest of `setIsConnected`. -/
  | notify (alert : Bool)
  | clearHomePages
  | sendConnectionState (isConnected : Bool)
  | addBytesSent (bytes : Int64)
  | addBytesReceived (bytes : Int64)
  | setAvailableEgressRegions (regions : List String)
  | sendKnownServerRegions
  | setListeningSocksProxyPort (port : ℕ)
  | setListeningHttpProxyPort (port : ℕ)
  | addHomePage (url : String)
  | setClientRegion (region : String)
  | setOutgoingMessenger (replyTo : Option ℕ)
  /-- The state for the answer to `MSG_REGISTER` is read before the answer is sent. -/
  | getTunnelStateBundle
  | sendRegisterResponse (state : TunnelState)
  | sendDataTransferStats
  | postDataTransferStats
  | setServiceDestroyed
  | signalStopService
  /-- `m_tunnelThread.join()` -/
  | join
  deriving DecidableEq, Repr

def Callback.run : Callback → List Statement
  | .onConnecting =>
    [.stopStats, .setIsConnected false, .clearHomePages, .sendConnectionState false]
  | .onConnected =>
    [.startConnected, .sendHandshakeIntent, .setIsReconnect, .setIsConnected true,
      .sendConnectionState true]
  | .onBytesTransferred sent received => [.addBytesSent sent, .addBytesReceived received]
  | .onAvailableEgressRegions regions =>
    [.setAvailableEgressRegions regions, .sendKnownServerRegions]
  | .onListeningSocksProxyPort port => [.setListeningSocksProxyPort port]
  | .onListeningHttpProxyPort port => [.setListeningHttpProxyPort port]
  | .onHomepage url => [.addHomePage url]
  | .onClientRegion region => [.setClientRegion region]
  | .onProxyPortInUse => [.signalStopService]

def Event.handle : Event → List Statement
  | .register replyTo => [.setOutgoingMessenger (some replyTo), .getTunnelStateBundle]
  | .unregister => [.setOutgoingMessenger none]
  | .stopService => [.signalStopService]
  | .onDestroy => [.setServiceDestroyed, .signalStopService, .join]
  | .onRevoke => [.signalStopService, .join]

/-- Where the tunnel thread is: before the `finally` block of `runTunnel`, or at a statement of
it. -/
inductive Stage where
  | tunneling
  | sendStopping
  | setDisconnected
  | notify (alert : Bool)
  /-- In `m_tunnel.stop()`. -/
  | stopTunnel
  | removeCallbacks
  | stopStats
  | finished
  deriving DecidableEq, Repr

/-! ### The service -/

structure Service where
  wholeDevice : Bool
  tunnelState : TunnelState
  stats : DataTransferStats
  isReconnect : Bool
  isStopping : Bool
  serviceDestroyed : Bool
  stopSignalled : Bool
  /-- The client that is registered. -/
  outgoingMessenger : Option ℕ
  stage : Stage
  /-- The runnables of callbacks that wait for the main thread. -/
  posted : List Callback
  /-- What is left of the runnable or the message that the main thread has started. -/
  running : List Statement
  /-- `sendDataTransferStats` is posted. -/
  statsPosted : Bool
  /-- What was sent so far. -/
  messages : List (ℕ × Message)
  intents : List HandshakeIntent
  notifications : List Notification
  deriving DecidableEq, Repr

namespace Service

def start (wholeDevice : Bool) (now : ℤ) : Service where
  wholeDevice := wholeDevice
  tunnelState := ⟨[], false, 0, 0, none, []⟩
  stats := .initial now
  isReconnect := false
  isStopping := false
  serviceDestroyed := false
  stopSignalled := false
  outgoingMessenger := none
  stage := .tunneling
  posted := []
  running := []
  statsPosted := true
  messages := []
  intents := []
  notifications := []

def sendClientMessage (message : Message) (s : Service) : Service :=
  match s.outgoingMessenger with
  | some client => { s with messages := s.messages ++ [(client, message)] }
  | none => s

/-- The intent is sent when the status activity is in the foreground and at the first connection. -/
def sendHandshakeIntent (foreground : Bool) (s : Service) : Service :=
  if foreground || !s.isReconnect then
    { s with intents := s.intents ++ [⟨s.isReconnect, s.tunnelState⟩] }
  else s

def createNotification (alert : Bool) (s : Service) : Notification where
  text :=
    if s.tunnelState.isConnected then
      if s.wholeDevice then .runningWholeDevice else .runningBrowserOnly
    else .connecting
  alert := alert

/-- The rest of `setIsConnected`: no notification when a stop was commanded. -/
def notify (alert : Bool) (s : Service) : Service :=
  if s.serviceDestroyed || s.isStopping then s
  else { s with notifications := s.notifications ++ [s.createNotification alert] }

def setTunnelState (f : TunnelState → TunnelState) (s : Service) : Service :=
  { s with tunnelState := f s.tunnelState }

def assignIsConnected (isConnected : Bool) (s : Service) : Service :=
  s.setTunnelState fun state => { state with isConnected := isConnected }

def addHomePage (url : String) (state : TunnelState) : TunnelState :=
  if url ∈ state.homePages then state else { state with homePages := state.homePages ++ [url] }

def setStats (f : DataTransferStats → DataTransferStats) (s : Service) : Service :=
  { s with stats := f s.stats }

def exec (now : ℤ) (foreground : Bool) (s : Service) : Statement → Service
  | .stopStats => s.setStats (.stop now)
  | .startConnected => s.setStats (.startConnected now)
  | .sendHandshakeIntent => s.sendHandshakeIntent foreground
  | .setIsReconnect => { s with isReconnect := true }
  | .setIsConnected isConnected =>
    { s.assignIsConnected isConnected with
      running := .notify (isConnected != s.tunnelState.isConnected) :: s.running }
  | .notify alert => s.notify alert
  | .clearHomePages => s.setTunnelState fun state => { state with homePages := [] }
  | .sendConnectionState isConnected => s.sendClientMessage (.tunnelConnectionState isConnected)
  | .addBytesSent bytes => s.setStats (.addBytesSent now bytes)
  | .addBytesReceived bytes => s.setStats (.addBytesReceived now bytes)
  | .setAvailableEgressRegions regions =>
    s.setTunnelState fun state => { state with availableEgressRegions := regions }
  | .sendKnownServerRegions =>
    s.sendClientMessage (.knownServerRegions s.tunnelState.availableEgressRegions)
  | .setListeningSocksProxyPort port =>
    s.setTunnelState fun state => { state with listeningLocalSocksProxyPort := port }
  | .setListeningHttpProxyPort port =>
    s.setTunnelState fun state => { state with listeningLocalHttpProxyPort := port }
  | .addHomePage url => s.setTunnelState (addHomePage url)
  | .setClientRegion region =>
    s.setTunnelState fun state => { state with clientRegion := some region }
  | .setOutgoingMessenger replyTo => { s with outgoingMessenger := replyTo }
  | .getTunnelStateBundle => { s with running := .sendRegisterResponse s.tunnelState :: s.running }
  | .sendRegisterResponse state => s.sendClientMessage (.registerResponse state)
  | .sendDataTransferStats => s.sendClientMessage (.dataTransferStats s.stats)
  | .postDataTransferStats => { s with statsPosted := true }
  | .setServiceDestroyed => { s with serviceDestroyed := true }
  | .signalStopService => { s with stopSignalled := true }
  | .join => s

/-- The next step of the tunnel thread. It leaves the `try` block when the stop is signalled, or
when the tunnel core fails to start. -/
def tunnelStep (now : ℤ) (failed : Bool) (s : Service) : Option Service :=
  match s.stage with
  | .tunneling =>
    if failed then some { s with stage := .sendStopping }
    else if s.stopSignalled then some { s with isStopping := true, stage := .sendStopping }
    else none
  | .sendStopping => some { s.sendClientMessage .tunnelStopping with stage := .setDisconnected }
  | .setDisconnected =>
    some { s.assignIsConnected false with stage := .notify s.tunnelState.isConnected }
  | .notify alert => some { s.notify alert with stage := .stopTunnel }
  | .stopTunnel => some { s with stage := .removeCallbacks }
  | .removeCallbacks => some { s with statsPosted := false, stage := .stopStats }
  | .stopStats => some { s.setStats (.stop now) with stage := .finished }
  | .finished => none

end Service

/-- `m_tunnel.stop()` has returned. -/
def Stage.stopped : Stage → Bool
  | .removeCallbacks => true
  | .stopStats => true
  | .finished => true
  | _ => false

inductive TunnelAction where
  /-- A callback of the tunnel core. -/
  | post (callback : Callback)
  /-- The main thread takes the next runnable. -/
  | take
  | handle (event : Event)
  /-- The main thread takes the periodic statistics message. -/
  | sendStats
  /-- The main thread executes a statement. -/
  | main (now : ℤ) (foreground : Bool)
  /-- The tunnel thread executes a statement. -/
  | tunnel (now : ℤ) (failed : Bool)
  deriving DecidableEq, Repr

namespace Service

def step (s : Service) : TunnelAction → Option Service
  | .post callback =>
    if s.stage.stopped then none else some { s with posted := s.posted ++ [callback] }
  | .take =>
    match s.running, s.posted with
    | [], callback :: rest => some { s with posted := rest, running := callback.run }
    | _, _ => none
  | .handle event => if s.running = [] then some { s with running := event.handle } else none
  | .sendStats =>
    if s.running = [] ∧ s.statsPosted = true then
      some { s with
        statsPosted := false
        running := [.sendDataTransferStats, .postDataTransferStats] }
    else none
  | .main now foreground =>
    match s.running with
    | [] => none
    | statement :: rest =>
      if statement = .join ∧ s.stage ≠ .finished then none
      else some (exec now foreground { s with running := rest } statement)
  | .tunnel now failed => s.tunnelStep now failed

end Service

end Psiphon.Android
