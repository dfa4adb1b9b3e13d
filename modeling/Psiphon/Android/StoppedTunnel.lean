import Psiphon.Android.TunnelManager

/-!
# What the tunnel service says once it stops

A runnable of `onConnected` that runs after the `finally` block of `runTunnel` says that the tunnel
is connected, and so does an answer to `MSG_REGISTER` that was begun before.
-/

namespace Psiphon.Android

open List Option
open Runs (run Along run_invariant_along)

def Message.isConnected : Message → Bool
  | .registerResponse state => state.isConnected
  | .tunnelConnectionState isConnected => isConnected
  | _ => false

/-- `setIsConnected(false)` of the `finally` block has run. -/
def Stage.disconnected : Stage → Bool
  | .tunneling => false
  | .sendStopping => false
  | .setDisconnected => false
  | _ => true

/-- The statements by which a runnable of `onConnected` or an answer to `MSG_REGISTER` says that the
tunnel is connected. -/
def Statement.connects : Statement → Bool
  | .startConnected => true
  | .sendHandshakeIntent => true
  | .setIsConnected isConnected => isConnected
  | .sendConnectionState isConnected => isConnected
  | .sendRegisterResponse state => state.isConnected
  | _ => false

theorem Callback.not_connects {callback : Callback} (h : callback ≠ .onConnected) :
    ∀ statement ∈ callback.run, statement.connects = false := by
  cases callback with
  | onConnected => exact absurd rfl h
  | _ => simp [run,Statement.connects]

theorem Event.not_connects (event : Event) :
    ∀ statement ∈ event.handle, statement.connects = false := by
  cases event <;> simp [handle,Statement.connects]

namespace DataTransferStats

variable {stats : DataTransferStats}

theorem connectedTime_manageBuckets (now : ℤ) :
    (stats.manageBuckets now).connectedTime = stats.connectedTime := by
  have hs : (stats.manageSlowBuckets now).connectedTime = stats.connectedTime := by
    rw [manageSlowBuckets]
    split <;> rfl
  rw [manageBuckets,manageFastBuckets]
  split <;> exact hs

@[simp] theorem connectedTime_addBytesSent (now : ℤ) (bytes : Int64) :
    (stats.addBytesSent now bytes).connectedTime = stats.connectedTime :=
  connectedTime_manageBuckets now

@[simp] theorem connectedTime_addBytesReceived (now : ℤ) (bytes : Int64) :
    (stats.addBytesReceived now bytes).connectedTime = stats.connectedTime :=
  connectedTime_manageBuckets now

end DataTransferStats

namespace Service

variable {s t : Service}

structure Silent (s t : Service) : Prop where
  messages : ∃ sent : List (ℕ × Message), t.messages = s.messages ++ sent ∧
    ∀ message ∈ sent, message.2.isConnected = false
  intents : t.intents = s.intents

theorem Silent.refl (s : Service) : Silent s s := ⟨⟨[],by simp⟩,rfl⟩

theorem Silent.of_eq (hm : t.messages = s.messages) (hi : t.intents = s.intents) : Silent s t :=
  ⟨⟨[],by simp [hm]⟩,hi⟩

theorem Silent.trans {u : Service} (hst : Silent s t) (htu : Silent t u) : Silent s u := by
  obtain ⟨⟨first,hf,hs⟩,hi⟩ := hst
  obtain ⟨⟨second,hse,hs'⟩,hi'⟩ := htu
  refine ⟨⟨first ++ second,?_,fun m hm => ?_⟩,hi'.trans hi⟩
  · rw [hse,hf,append_assoc]
  · obtain h | h := mem_append.mp hm
    · exact hs m h
    · exact hs' m h

theorem silent_sendClientMessage {message : Message} (h : message.isConnected = false) :
    Silent s (s.sendClientMessage message) := by
  rw [sendClientMessage]
  split
  · rename_i c hclient
    refine ⟨⟨[(c, message)],rfl,fun m hm => ?_⟩,rfl⟩
    rw [mem_singleton.mp hm]
    exact h
  · exact .refl s

/-! ### What the helpers leave alone -/

@[simp] theorem sendClientMessage_frame (m : Message) :
    (s.sendClientMessage m).tunnelState = s.tunnelState ∧ (s.sendClientMessage m).stats = s.stats ∧
      (s.sendClientMessage m).stage = s.stage ∧ (s.sendClientMessage m).posted = s.posted ∧
      (s.sendClientMessage m).running = s.running := by
  rw [sendClientMessage]
  split <;> exact ⟨rfl,rfl,rfl,rfl,rfl⟩

@[simp] theorem sendHandshakeIntent_frame (f : Bool) :
    (s.sendHandshakeIntent f).stage = s.stage ∧ (s.sendHandshakeIntent f).posted = s.posted ∧
      (s.sendHandshakeIntent f).running = s.running := by
  rw [sendHandshakeIntent]
  split <;> exact ⟨rfl,rfl,rfl⟩

@[simp] theorem notify_frame (a : Bool) :
    (s.notify a).tunnelState = s.tunnelState ∧ (s.notify a).stats = s.stats ∧
      (s.notify a).stage = s.stage ∧ (s.notify a).posted = s.posted ∧
      (s.notify a).running = s.running ∧ (s.notify a).messages = s.messages ∧
      (s.notify a).intents = s.intents := by
  rw [notify]
  split <;> exact ⟨rfl,rfl,rfl,rfl,rfl,rfl,rfl⟩

theorem exec_frame (now : ℤ) (f : Bool) (statement : Statement) :
    (exec now f s statement).stage = s.stage ∧ (exec now f s statement).posted = s.posted := by
  cases statement <;> simp [exec,setStats,setTunnelState,assignIsConnected]

/-- A statement that does not say so, in a service that is not connected. -/
theorem exec_silent (now : ℤ) (f : Bool) {statement : Statement}
    (hs : statement.connects = false) (ho : s.tunnelState.isConnected = false) :
    Silent s (exec now f s statement) ∧ (exec now f s statement).tunnelState.isConnected = false ∧
      (∀ st ∈ (exec now f s statement).running, st ∈ s.running ∨ st.connects = false) ∧
      (s.stats.connectedTime = 0 → (exec now f s statement).stats.connectedTime = 0) := by
  cases statement with
  | startConnected => cases hs
  | sendHandshakeIntent => cases hs
  | setIsConnected isConnected =>
    obtain rfl : isConnected = false := hs
    refine ⟨.of_eq rfl rfl,rfl,fun st hst => ?_,id⟩
    obtain rfl | hst := mem_cons.mp hst
    · exact .inr rfl
    · exact .inl hst
  | getTunnelStateBundle =>
    -- the response that is sent later carries the state that is read here
    refine ⟨.of_eq rfl rfl,ho,fun st hst => ?_,id⟩
    obtain rfl | hst := mem_cons.mp hst
    · exact .inr ho
    · exact .inl hst
  | sendConnectionState isConnected =>
    refine ⟨silent_sendClientMessage hs,?_,?_,?_⟩ <;>
      simp +contextual [exec,ho]
  | sendKnownServerRegions =>
    refine ⟨silent_sendClientMessage rfl,?_,?_,?_⟩ <;> simp +contextual [exec,ho]
  | sendRegisterResponse state =>
    refine ⟨silent_sendClientMessage hs,?_,?_,?_⟩ <;> simp +contextual [exec,ho]
  | sendDataTransferStats =>
    refine ⟨silent_sendClientMessage rfl,?_,?_,?_⟩ <;> simp +contextual [exec,ho]
  | notify alert =>
    refine ⟨.of_eq ?_ ?_,?_,?_,?_⟩ <;> simp +contextual [exec,ho]
  | addHomePage url =>
    refine ⟨.of_eq rfl rfl,?_,fun st hst => .inl hst,id⟩
    show (addHomePage url s.tunnelState).isConnected = false
    rw [addHomePage]
    split <;> exact ho
  | stopStats => exact ⟨.of_eq rfl rfl,ho,fun st hst => .inl hst,fun _ => rfl⟩
  | addBytesSent bytes =>
    refine ⟨.of_eq rfl rfl,ho,fun st hst => .inl hst,fun h => ?_⟩
    exact (DataTransferStats.connectedTime_addBytesSent now bytes).trans h
  | addBytesReceived bytes =>
    refine ⟨.of_eq rfl rfl,ho,fun st hst => .inl hst,fun h => ?_⟩
    exact (DataTransferStats.connectedTime_addBytesReceived now bytes).trans h
  | _ => exact ⟨.of_eq rfl rfl,ho,fun st hst => .inl hst,id⟩

/-- The steps of the tunnel thread, with what they do to the state that clients see. -/
theorem tunnelStep_cases {now : ℤ} {failed : Bool} (h : s.tunnelStep now failed = some t) :
    t.posted = s.posted ∧ t.running = s.running ∧ t.intents = s.intents ∧
      (s.stage.disconnected = true ∧ t.stage.disconnected = true ∧
          t.tunnelState = s.tunnelState ∧ t.messages = s.messages ∧
          (t.stage = .finished → t.stats.connectedTime = 0) ∨
        s.stage = .setDisconnected ∧ t.stage.disconnected = true ∧ t.stage ≠ .finished ∧
          t.tunnelState.isConnected = false ∨
        s.stage.disconnected = false ∧ t.stage.disconnected = false) := by
  rw [tunnelStep] at h
  split at h
  · rename_i hs
    split at h
    · cases h
      exact ⟨rfl,rfl,rfl,.inr (.inr ⟨hs ▸ rfl,rfl⟩)⟩
    · split at h
      · cases h
        exact ⟨rfl,rfl,rfl,.inr (.inr ⟨hs ▸ rfl,rfl⟩)⟩
      · cases h
  · rename_i hs
    cases h
    have hf := sendClientMessage_frame (s := s) .tunnelStopping
    have hi : (s.sendClientMessage .tunnelStopping).intents = s.intents :=
      (silent_sendClientMessage rfl).intents
    exact ⟨hf.2.2.2.1,hf.2.2.2.2,hi, .inr (.inr ⟨hs ▸ rfl,rfl⟩)⟩
  · rename_i hs
    cases h
    exact ⟨rfl,rfl,rfl,.inr (.inl ⟨hs,rfl,Stage.noConfusion,rfl⟩)⟩
  · rename_i a hs
    cases h
    obtain ⟨hst,-,-,hp,hr,hm,hi⟩ := notify_frame (s := s) a
    exact ⟨hp,hr,hi, .inl ⟨hs ▸ rfl,rfl,hst,hm,Stage.noConfusion⟩⟩
  · rename_i hs
    cases h
    exact ⟨rfl,rfl,rfl,.inl ⟨hs ▸ rfl,rfl,rfl,rfl,Stage.noConfusion⟩⟩
  · rename_i hs
    cases h
    exact ⟨rfl,rfl,rfl,.inl ⟨hs ▸ rfl,rfl,rfl,rfl,Stage.noConfusion⟩⟩
  · rename_i hs
    cases h
    exact ⟨rfl,rfl,rfl,.inl ⟨hs ▸ rfl,rfl,rfl,rfl,fun _ => rfl⟩⟩
  · cases h

/-! ### Runs -/

def NoneConnects (s : Service) : Prop :=
  .onConnected ∉ s.posted ∧ ∀ statement ∈ s.running, statement.connects = false

/-- When `setIsConnected(false)` of the `finally` block runs, no runnable of `onConnected` is left
and no answer to `MSG_REGISTER` begun that says the tunnel is connected. None is posted after it. -/
def Drained (s : Service) : TunnelAction → Prop
  | .post callback => s.stage.disconnected = true → callback ≠ .onConnected
  | .tunnel _ _ => s.stage = .setDisconnected → s.NoneConnects
  | _ => True

instance (s : Service) : Decidable s.NoneConnects := inferInstanceAs (Decidable (_ ∧ _))

instance Drained.decidable (s : Service) : ∀ a, Decidable (s.Drained a)
  | .post _ => inferInstanceAs (Decidable (_ → _))
  | .tunnel _ _ => inferInstanceAs (Decidable (_ → _))
  | .take => isTrue trivial
  | .handle _ => isTrue trivial
  | .sendStats => isTrue trivial
  | .main _ _ => isTrue trivial

/-- From `setIsConnected(false)` on the service is not connected and nothing is left that would say
so; from `stop()` on there is no time of connection. -/
structure Disconnected (s : Service) : Prop where
  off : s.stage.disconnected = true → s.tunnelState.isConnected = false ∧ s.NoneConnects
  stopped : s.stage = .finished → s.stats.connectedTime = 0

theorem Disconnected.start (wd : Bool) (now : ℤ) : (start wd now).Disconnected :=
  ⟨fun h => (by cases h),fun h => (by cases h)⟩

theorem NoneConnects.take {callback : Callback} {rest : List Callback}
    (h : s.NoneConnects) (hp : s.posted = callback :: rest) :
    .onConnected ∉ rest ∧ ∀ statement ∈ callback.run, statement.connects = false := by
  obtain ⟨hn,-⟩ := h
  rw [hp,mem_cons,not_or] at hn
  exact ⟨hn.2,Callback.not_connects (Ne.symm hn.1)⟩

theorem main_of_off {now : ℤ} {f : Bool} {statement : Statement} {rest : List Statement}
    (hr : s.running = statement :: rest) (hoff : s.tunnelState.isConnected = false)
    (hn : s.NoneConnects) {t : Service} (ht : exec now f { s with running := rest } statement = t) :
    Silent s t ∧ t.tunnelState.isConnected = false ∧ t.NoneConnects ∧
      (s.stats.connectedTime = 0 → t.stats.connectedTime = 0) := by
  obtain ⟨hp,hs⟩ := hn
  have hsta := hs statement (hr ▸ (.head _))
  have hf := exec_frame (s := { s with running := rest }) now f statement
  have hsi := exec_silent (s := { s with running := rest }) now f hsta hoff
  rw [ht] at hf hsi
  obtain ⟨⟨hm,hi⟩,hoff',hl,hti⟩ := hsi
  refine ⟨⟨hm,hi⟩,hoff',⟨?_,fun st hst => ?_⟩,hti⟩
  · rw [hf.2]
    exact hp
  · obtain hst | hst := hl st hst
    · exact hs st (hr ▸ mem_cons_of_mem statement hst)
    · exact hst

/-- What a step can do: change what waits for the main thread, execute a statement of the main
thread, or one of the tunnel thread. -/
inductive Effect (s : Service) (a : TunnelAction) (t : Service) : Prop where
  | queue (hstage : t.stage = s.stage) (hstate : t.tunnelState = s.tunnelState)
    (hstats : t.stats = s.stats) (hmessages : t.messages = s.messages)
    (hintents : t.intents = s.intents)
    (hnone : s.stage.disconnected = true → s.Drained a → s.NoneConnects → t.NoneConnects)
  | main (now : ℤ) (foreground : Bool) (statement : Statement) (rest : List Statement)
    (hrunning : s.running = statement :: rest)
    (ht : exec now foreground { s with running := rest } statement = t)
  | tunnel (now : ℤ) (failed : Bool) (ha : a = .tunnel now failed)
    (ht : s.tunnelStep now failed = some t)

theorem step_effect {a : TunnelAction} (hs : s.step a = some t) : Effect s a t := by
  cases a with
  | post callback =>
    simp only [step] at hs
    split at hs
    · cases hs
    · cases hs
      refine .queue rfl rfl rfl rfl rfl fun hdis hd hn => ⟨fun hm => ?_,hn.2⟩
      obtain hm | hm := mem_append.mp hm
      · exact hn.1 hm
      · exact hd hdis (mem_singleton.mp hm).symm
  | take =>
    simp only [step] at hs
    split at hs
    · rename_i callback rest hr hp
      cases hs
      exact .queue rfl rfl rfl rfl rfl fun _ _ hn => hn.take hp
    · cases hs
  | handle event =>
    simp only [step] at hs
    split at hs
    · cases hs
      exact .queue rfl rfl rfl rfl rfl fun _ _ hn => ⟨hn.1,event.not_connects⟩
    · cases hs
  | sendStats =>
    simp only [step] at hs
    split at hs
    · cases hs
      refine .queue rfl rfl rfl rfl rfl fun _ _ hn => ⟨hn.1,?_⟩
      simp [Statement.connects]
    · cases hs
  | main now f =>
    simp only [step] at hs
    split at hs
    · cases hs
    · rename_i statement rest hr
      split at hs
      · cases hs
      · exact .main now f statement rest hr (Option.some.inj hs)
  | tunnel now failed => exact .tunnel now failed rfl hs

theorem Disconnected.step (s : Service) (a : TunnelAction) (t : Service) (h : s.Disconnected)
    (hd : s.Drained a) (hstep : s.step a = some t) : t.Disconnected := by
  cases step_effect hstep with
  | queue hst hsta hstats _ _ hn =>
    refine ⟨fun hdis => ?_,fun hf => ?_⟩
    · rw [hst] at hdis
      obtain ⟨ho,hs⟩ := h.off hdis
      exact ⟨hsta ▸ ho,hn hdis hd hs⟩
    · rw [hstats]
      exact h.stopped (hst ▸ hf)
  | main now f statement rest hr ht =>
    have hfr := exec_frame (s := { s with running := rest }) now f statement
    rw [ht] at hfr
    refine ⟨fun hdis => ?_,fun hf => ?_⟩
    · obtain ⟨ho,hn⟩ := h.off (hfr.1 ▸ hdis)
      obtain ⟨-,ho',hn',-⟩ := main_of_off hr ho hn ht
      exact ⟨ho',hn'⟩
    · have hf' : s.stage = .finished := hfr.1 ▸ hf
      obtain ⟨ho,hn⟩ := h.off (hf' ▸ rfl)
      exact (main_of_off hr ho hn ht).2.2.2 (h.stopped hf')
  | tunnel now failed ha ht =>
    subst ha
    obtain ⟨hp,hr,-,hc⟩ := tunnelStep_cases ht
    have hn : s.NoneConnects → t.NoneConnects := fun hs => by
      rw [NoneConnects,hp,hr]
      exact hs
    obtain ⟨hdis,-,hsta,-,hti⟩ | ⟨hst,-,hu,ho⟩ | ⟨-,hb⟩ := hc
    · refine ⟨fun _ => ?_,hti⟩
      obtain ⟨ho,hs⟩ := h.off hdis
      exact ⟨hsta ▸ ho,hn hs⟩
    · exact ⟨fun _ => ⟨ho,hn (hd hst)⟩,fun hf => absurd hf hu⟩
    · refine ⟨fun hdis => ?_,fun hf => ?_⟩
      · exact absurd (hb.symm.trans hdis) Bool.false_ne_true
      · rw [hf] at hb
        cases hb

theorem Disconnected.silent {a : TunnelAction} (h : s.Disconnected)
    (hd : s.stage.disconnected = true) (hst : s.step a = some t) :
    Silent s t ∧ t.stage.disconnected = true := by
  cases step_effect hst with
  | queue hs _ _ hm hi _ => exact ⟨.of_eq hm hi,hs ▸ hd⟩
  | main now f statement rest hr ht =>
    obtain ⟨ho,hn⟩ := h.off hd
    have hf := exec_frame (s := { s with running := rest }) now f statement
    rw [ht] at hf
    exact ⟨(main_of_off hr ho hn ht).1,hf.1 ▸ hd⟩
  | tunnel now failed _ ht =>
    obtain ⟨-,-,hi,hc⟩ := tunnelStep_cases ht
    obtain ⟨-,hd',-,hm,-⟩ | ⟨hs,-⟩ | ⟨hb,-⟩ := hc
    · exact ⟨.of_eq hm hi,hd'⟩
    · rw [hs] at hd
      cases hd
    · exact absurd (hb.symm.trans hd) Bool.false_ne_true

/-- Nobody is told that the tunnel is connected between the two states, and at the end of the tunnel
thread there is no time of connection. -/
def NotTold (s t : Service) : Prop :=
  Silent s t ∧ (t.stage = .finished → t.stats.connectedTime = 0)

/-- In every run in which nothing is left at `setIsConnected(false)` that says so, nobody is told
after it that the tunnel is connected. -/
theorem notTold_of_drained {wholeDevice : Bool} {now : ℤ} {before after : List TunnelAction}
    (hdrained : Along step Drained (start wholeDevice now) (before ++ after))
    (hbefore : run step (start wholeDevice now) before = some s)
    (hdis : s.stage.disconnected = true) (hafter : run step s after = some t) : NotTold s t := by
  have hs := run_invariant_along Disconnected.step (.start wholeDevice now) hdrained.left hbefore
  have hi : t.Disconnected ∧ Silent s t ∧ t.stage.disconnected = true := by
    refine run_invariant_along (I := fun u => u.Disconnected ∧ Silent s u ∧
      u.stage.disconnected = true) ?_ ⟨hs,.refl s,hdis⟩ (hdrained.of_append hbefore) hafter
    rintro u a v ⟨hu,hsu,hdis⟩ hdrained hst
    obtain ⟨huv,hdis'⟩ := hu.silent hdis hst
    exact ⟨.step u a v hu hdrained hst,hsu.trans huv,hdis'⟩
  exact ⟨hi.2.1,hi.1.stopped⟩

/-- A client registers, the tunnel is connected and the user stops the service. The runnable of
`onConnected` runs before the stop or is left. -/
def connectAndStop (runs : Bool) : List TunnelAction :=
  [.handle (.register 1), .main 1 true, .main 1 true, .main 1 true, .post .onConnected] ++
    (if runs then .take :: List.replicate 6 (.main 2 true) else []) ++
    [.handle .stopService, .main 3 true, .tunnel 3 false, .tunnel 3 false, .tunnel 3 false]

def finishAndRegister (left : List TunnelAction) : List TunnelAction :=
  List.replicate 4 (.tunnel 4 false) ++ left ++
    [.handle (.register 2), .main 6 true, .main 6 true, .main 6 true]

theorem notTold_connectAndStop : ∃ s t : Service,
    run step (start false 0) (connectAndStop true) = some s ∧ s.stage.disconnected = true ∧
      run step s (finishAndRegister []) = some t ∧ t.stage = .finished ∧ NotTold s t := by
  have hd : Along step Drained (start false 0)
      (connectAndStop true ++ finishAndRegister []) := by decide +kernel
  refine ⟨_,_,(some_get (by decide +kernel)).symm,by decide +kernel,
    (some_get (by decide +kernel)).symm,by decide +kernel,?_⟩
  exact notTold_of_drained hd (some_get _).symm (by decide +kernel) (some_get _).symm

/-- The runnable of `onConnected` runs after the tunnel thread has ended: it tells the client that
it is connected, and whoever registers next is told as well. -/
theorem told_after_stop : ∃ s t : Service,
    run step (start false 0) (connectAndStop false) = some s ∧ s.stage.disconnected = true ∧
      run step s (finishAndRegister (.take :: List.replicate 6 (.main 5 true))) = some t ∧
      t.stage = .finished ∧ s.intents.length = 0 ∧ t.intents.length = 1 ∧
      (1, .tunnelConnectionState true) ∈ t.messages ∧
      (2, .registerResponse ⟨[], true, 0, 0, none, []⟩) ∈ t.messages ∧
      t.stats.connectedTime = 5 ∧ ¬ NotTold s t := by
  refine ⟨_,_,(some_get (by decide +kernel)).symm,by decide +kernel,
    (some_get (by decide +kernel)).symm,by decide +kernel,by decide +kernel,by decide +kernel,
    by decide +kernel,by decide +kernel,by decide +kernel,fun h => ?_⟩
  exact absurd (h.2 (by decide +kernel)) (by decide +kernel)

end Service

end Psiphon.Android
