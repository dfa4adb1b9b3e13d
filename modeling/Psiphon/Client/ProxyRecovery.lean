import Psiphon.Client.SystemProxy
import Psiphon.Lib.Runs

/-!
# Recovery of the proxy settings after a crash

`PSIPHON_PROXY_INFO` is written before the first connection is changed and cleared after the last
one is restored.
-/

namespace Psiphon.Client

open List

/-! ### What is written -/

def Process.sets (s : Process) (done : List ConnectionProxy) : Process :=
  done.foldl (fun s setting => s.write (.setConnection setting)) s

def SetResults.continues (r : SetResults) (setting : ConnectionProxy) : Bool :=
  r.set && r.changed && r.refresh && (r.verify || setting.name ≠ defaultConnectionName)

def setCount (results : ℕ → SetResults) : ℕ → List ConnectionProxy → ℕ
  | _, [] => 0
  | i, setting :: rest =>
    if (results i).continues setting then setCount results (i + 1) rest + 1
    else if (results i).set then 1 else 0

def setsSucceed (results : ℕ → SetResults) : ℕ → List ConnectionProxy → Bool
  | _, [] => true
  | i, setting :: rest => (results i).continues setting && setsSucceed results (i + 1) rest

theorem query_setConnection (setting : ConnectionProxy) (w : World) :
    (w.setConnection setting).query setting.name = setting := by
  cases setting
  simp [World.query,World.setConnection]

/-- One round of the loop. A setting reads back as it was written. -/
theorem run_setConnections_cons (r : ℕ → SetResults) (i : ℕ) (setting : ConnectionProxy)
    (rest : List ConnectionProxy) (s : Process) :
    (setCurrentSystemConnectionsProxy r i (setting :: rest)).run s = if (r i).continues setting then
        (setCurrentSystemConnectionsProxy r (i + 1) rest).run
          (s.write (.setConnection setting))
      else (false, if (r i).set then s.write (.setConnection setting) else s) := by
  have hr : (s.write (.setConnection setting)).world.query setting.name = setting :=
    query_setConnection setting s.world
  rw [setCurrentSystemConnectionsProxy]
  obtain ⟨set,c,refresh,v⟩ := r i
  cases set with
  | false => rfl
  | true =>
    cases c <;> cases refresh <;> try rfl
    cases v with
    | true => simp [setCurrentSystemConnectionProxy,write,SetResults.continues,hr]
    | false =>
      by_cases hd : setting.name = defaultConnectionName
      · simp [setCurrentSystemConnectionProxy,write,SetResults.continues,hd]
        rfl
      · simp [setCurrentSystemConnectionProxy,write,SetResults.continues,hd]

theorem run_setConnections (r : ℕ → SetResults) (i : ℕ) (l : List ConnectionProxy) (s : Process) :
    (setCurrentSystemConnectionsProxy r i l).run s =
      (setsSucceed r i l, s.sets (l.take (setCount r i l))) := by
  induction l generalizing i s with
  | nil => rfl
  | cons setting rest ih =>
    rw [run_setConnections_cons,setsSucceed,setCount]
    cases (r i).continues setting with
    | true => rw [if_pos rfl,ih]; rfl
    | false => cases (r i).set <;> rfl

variable {l : List ConnectionProxy}

theorem take_setCount_of_succeed {r : ℕ → SetResults} {i : ℕ}
    (h : setsSucceed r i l = true) : l.take (setCount r i l) = l := by
  induction l generalizing i with
  | nil => rfl
  | cons setting rest ih =>
    rw [setsSucceed,Bool.and_eq_true] at h
    rw [setCount,if_pos h.1,take_succ_cons,ih h.2]

theorem run_restoreNative (r : ℕ → SetResults) (s : Process) : (restoreNative r).run s =
      if s.world.psiphon = [] then (true, s) else if setsSucceed r 0 s.world.native then
        (true, (s.sets s.world.native).write fun w => { w with psiphon := [] })
      else (false, s.sets (s.world.native.take (setCount r 0 s.world.native))) := by
  by_cases hp : s.world.psiphon = []
  · simp [restoreNative,hp]
    rfl
  · have hs := run_setConnections r 0 s.world.native s
    cases hok : setsSucceed r 0 s.world.native with
    | true =>
      rw [hok,take_setCount_of_succeed hok] at hs
      simp [restoreNative,hp,hs,writePsiphon,write]
      rfl
    | false =>
      rw [hok] at hs
      simp [restoreNative,hp,hs]
      rfl

def infoOf (ras : List String) (f : String → ProxySetting) : List ConnectionProxy :=
  (connections ras).map fun name => ⟨f name, name⟩

theorem queryAll_eq_infoOf (ras : List String) (w : World) :
    w.queryAll ras = infoOf ras w.settings := rfl

theorem infoOf_ne_nil (ras : List String) (f : String → ProxySetting) : infoOf ras f ≠ [] := by
  simp [infoOf,connections]

theorem setPsiphonProxyForConnections_eq (ras : List String) (f : String → ProxySetting)
    (a : String) : setPsiphonProxyForConnections a (infoOf ras f) =
      infoOf ras fun _ => psiphonSetting a := by
  simp [setPsiphonProxyForConnections,infoOf]

theorem getDefaultProxyInfo_infoOf (ras : List String) (f : String → ProxySetting) :
    getDefaultProxyInfo (infoOf ras f) = f defaultConnectionName := by
  have hf : ∀ names : List String, defaultConnectionName ∈ names →
      (names.map fun name => (⟨f name,name⟩ : ConnectionProxy)).find?
        (fun entry => entry.name = defaultConnectionName) =
      some ⟨f defaultConnectionName,defaultConnectionName⟩ := by
    intro names hmem
    induction names with
    | nil => cases hmem
    | cons name names ih =>
      by_cases hn : name = defaultConnectionName
      · simp [hn]
      · have hmem' : defaultConnectionName ∈ names :=
          (mem_cons.mp hmem).resolve_left (Ne.symm hn)
        rw [map_cons,List.find?_cons_of_neg (by simpa using hn)]
        exact ih hmem'
  rw [getDefaultProxyInfo,infoOf,hf _ (by simp [connections])]

variable {s : Process}

theorem run_recordNative {ras : List String} {r : StartupResults}
    (hold : leftByOlderVersion (s.world.settings defaultConnectionName) = false) :
    (recordNative ras r).run s =
      ((), s.write fun w =>
        { w with
          native := if queriesOk ras r.query then infoOf ras s.world.settings else [] }) := by
  cases hq : queriesOk ras r.query with
  | true =>
    have hd := getDefaultProxyInfo_infoOf ras s.world.settings
    simp [recordNative,getCurrentSystemConnectionsProxyInfo,hq,queryAll_eq_infoOf,writeNative,
      write,Process.write,hd,hold]
    rfl
  | false =>
    have hn : leftByOlderVersion (getDefaultProxyInfo []) = false := rfl
    simp [recordNative,getCurrentSystemConnectionsProxyInfo,hq,writeNative,write,Process.write,hn]
    rfl

theorem run_doStartupSystemProxyWork {ras : List String} {r : StartupResults} {s s' : Process}
    {restored : Bool} (h : (restoreNative r.restore).run s = (restored, s')) :
    (doStartupSystemProxyWork ras r).run s =
      if restored then (recordNative ras r).run s' else ((), s') := by
  simp [doStartupSystemProxyWork,h]
  cases restored <;> rfl

def psiphonInfo (ras : List String) (ports : Ports) : List ConnectionProxy :=
  infoOf ras fun _ => psiphonSetting (makeProxySettingString ports)

def Process.record (ras : List String) (ports : Ports) (s : Process) : Process :=
  s.write fun w => { w with psiphon := psiphonInfo ras ports }

theorem run_apply (ras : List String) (r : ApplyResults) (p : Ports) (skip : Bool) (s : Process) :
    (apply ras r p skip).run s =
      if makeProxySettingString p = "" || !queriesOk ras r.query then (false, s)
      else if skip then (true, s.record ras p) else if setsSucceed r.sets 0 (psiphonInfo ras p) then
        (true, { (s.record ras p).sets (psiphonInfo ras p) with settingsApplied := true })
      else (false, (s.record ras p).sets
        ((psiphonInfo ras p).take (setCount r.sets 0 (psiphonInfo ras p)))) := by
  by_cases ha : makeProxySettingString p = ""
  · simp [apply,ha]
    rfl
  cases hq : queriesOk ras r.query with
  | false =>
    simp [apply,ha,getCurrentSystemConnectionsProxyInfo,hq]
    rfl
  | true =>
    have hi : setPsiphonProxyForConnections (makeProxySettingString p)
        (infoOf ras s.world.settings) = psiphonInfo ras p :=
      setPsiphonProxyForConnections_eq ras s.world.settings (makeProxySettingString p)
    cases skip with
    | true =>
      simp [apply,ha,getCurrentSystemConnectionsProxyInfo,hq,queryAll_eq_infoOf,hi,
        writePsiphon,write]
      rfl
    | false =>
      have hs := run_setConnections r.sets 0 (psiphonInfo ras p)
        (s.write fun w => { w with psiphon := psiphonInfo ras p })
      cases hok : setsSucceed r.sets 0 (psiphonInfo ras p) with
      | true =>
        rw [hok,take_setCount_of_succeed hok] at hs
        simp [apply,ha,getCurrentSystemConnectionsProxyInfo,hq,queryAll_eq_infoOf,hi,
          writePsiphon,write,hs]
        rfl
      | false =>
        rw [hok] at hs
        simp [apply,ha,getCurrentSystemConnectionsProxyInfo,hq,queryAll_eq_infoOf,hi,
          writePsiphon,write,hs]
        rfl

theorem run_revert (r : ℕ → SetResults) (s : Process) : (revert r).run s = if s.settingsApplied then
        if setsSucceed r 0 s.world.native then
          (true, { s.sets s.world.native with settingsApplied := false }.write
            fun w => { w with psiphon := [] })
        else (false, s.sets (s.world.native.take (setCount r 0 s.world.native)))
      else (true, s.write fun w => { w with psiphon := [] }) := by
  cases ha : s.settingsApplied with
  | false =>
    simp [revert,ha,writePsiphon,write]
    rfl
  | true =>
    have hs := run_setConnections r 0 s.world.native s
    cases hok : setsSucceed r 0 s.world.native with
    | true =>
      rw [hok,take_setCount_of_succeed hok] at hs
      simp [revert,ha,hs,writePsiphon,write]
      rfl
    | false =>
      rw [hok] at hs
      simp [revert,ha,hs]
      rfl

/-! ### Settings and traces -/

section Traces

def assign (l : List ConnectionProxy) (settings : String → ProxySetting) : String → ProxySetting :=
  l.foldl (fun f setting => Function.update f setting.name setting.toProxySetting) settings

theorem assign_infoOf (f settings : String → ProxySetting) (names : List String) (c : String) :
    assign (names.map fun name => ⟨f name,name⟩) settings c =
      if c ∈ names then f c else settings c := by
  induction names generalizing settings with
  | nil => rfl
  | cons name names ih =>
    refine (ih _).trans ?_
    by_cases hc : c = name
    · subst hc
      simp
    · simp [hc]

theorem take_infoOf (ras : List String) (f : String → ProxySetting) (k : ℕ) :
    (infoOf ras f).take k = ((connections ras).take k).map fun name => ⟨f name,name⟩ := by
  rw [infoOf,map_take]

theorem world_sets (s : Process) (l : List ConnectionProxy) :
    (s.sets l).world = { s.world with settings := assign l s.world.settings } := by
  induction l generalizing s with
  | nil => rfl
  | cons setting rest ih => exact ih (s.write (.setConnection setting))

@[simp] theorem settingsApplied_sets (s : Process) (l : List ConnectionProxy) :
    (s.sets l).settingsApplied = s.settingsApplied := by
  induction l generalizing s with
  | nil => rfl
  | cons setting rest ih => exact ih (s.write (.setConnection setting))

theorem mem_trace_sets {w : World} (h : w ∈ (s.sets l).trace) :
    w ∈ s.trace ∨ ∃ k, w = { s.world with settings := assign (l.take k) s.world.settings } := by
  induction l generalizing s with
  | nil => exact .inl h
  | cons setting rest ih =>
    rcases ih h with hm | ⟨k,hk⟩
    · rcases mem_cons.mp hm with rfl | hm
      · exact .inr ⟨1,rfl⟩
      · exact .inl hm
    · exact .inr ⟨k + 1,hk⟩

def Process.Always (I : World → Prop) (s : Process) : Prop := ∀ w ∈ s.trace, I w

theorem Process.Always.write {I : World → Prop} (h : s.Always I) {f : World → World}
    (hf : I (f s.world)) : (s.write f).Always I :=
  forall_mem_cons.mpr ⟨hf,h⟩

theorem Process.Always.sets {I : World → Prop} (h : s.Always I)
    (hl : ∀ k, I { s.world with settings := assign (l.take k) s.world.settings }) :
    (s.sets l).Always I := by
  intro w hw
  rcases mem_trace_sets hw with hm | ⟨k,rfl⟩
  · exact h w hm
  · exact hl k

end Traces

/-! ### The invariant -/

section Recovery

variable (ras : List String) (U : String → ProxySetting) (native₀ : List ConnectionProxy)

structure Recoverable (w : World) : Prop where
  native : w.native = native₀ ∨ w.native = infoOf ras U
  recorded : w.psiphon ≠ [] → w.native = infoOf ras U
  outside : ∀ c ∉ connections ras, w.settings c = U c
  restored : w.psiphon = [] → w.settings = U

structure Live (s : Process) : Prop where
  native : s.world.native = infoOf ras U
  outside : ∀ c ∉ connections ras, s.world.settings c = U c
  restored : s.world.psiphon = [] → s.world.settings = U
  idle : s.settingsApplied = false → s.world.settings = U
  applied : s.settingsApplied = true → s.world.psiphon ≠ []
  always : s.Always (Recoverable ras U native₀)

def SetResults.ok : SetResults := ⟨true, true, true, true⟩

theorem setsSucceed_ok (i : ℕ) (l : List ConnectionProxy) :
    setsSucceed (fun _ => .ok) i l = true := by
  induction l generalizing i with
  | nil => rfl
  | cons setting rest ih =>
    have hc : SetResults.ok.continues setting = true := by
      simp [SetResults.continues,SetResults.ok]
    rw [setsSucceed,hc,ih]
    rfl

theorem queriesOk_ok : queriesOk ras (fun _ => true) = true := by
  simp [queriesOk]

variable {ras U native₀}

/-- Settings that differ from the user's only on connections are the user's again once every
connection is set back. -/
theorem assign_user {settings : String → ProxySetting}
    (h : ∀ c ∉ connections ras, settings c = U c) : assign (infoOf ras U) settings = U := by
  funext c
  rw [infoOf,assign_infoOf]
  split
  · rfl
  · exact h c ‹_›

theorem assign_outside {settings f : String → ProxySetting}
    (h : ∀ c ∉ connections ras, settings c = U c) (k : ℕ) :
    ∀ c ∉ connections ras, assign ((infoOf ras f).take k) settings c = U c := by
  intro c hc
  rw [take_infoOf,assign_infoOf,if_neg fun hm => hc (mem_of_mem_take hm)]
  exact h c hc

theorem recoverable_sets {w : World} (hp : w.psiphon ≠ []) (hn : w.native = infoOf ras U)
    (ho : ∀ c ∉ connections ras, w.settings c = U c) (f : String → ProxySetting) (k : ℕ) :
    Recoverable ras U native₀ { w with settings := assign ((infoOf ras f).take k) w.settings } :=
  ⟨.inr hn,fun _ => hn,assign_outside ho k,fun h => absurd h hp⟩

def StartupResults.ok (connectable : Bool) : StartupResults :=
  ⟨fun _ => .ok, fun _ => true, fun _ => true, connectable⟩

def restoredWorld (ras : List String) (U : String → ProxySetting) : World := ⟨U, infoOf ras U, []⟩

theorem recoverable_restoredWorld : Recoverable ras U native₀ (restoredWorld ras U) :=
  ⟨.inr rfl,fun _ => rfl,fun _ _ => rfl,fun _ => rfl⟩

/-- The connections are set back to the user's settings and Psiphon's are cleared. -/
theorem world_setBack (hn : s.world.native = infoOf ras U)
    (ho : ∀ c ∉ connections ras, s.world.settings c = U c) :
    { (s.sets (infoOf ras U)).world with psiphon := [] } = restoredWorld ras U := by
  rw [world_sets]
  simp only [assign_user ho,hn,restoredWorld]

theorem record_spec (ho : leftByOlderVersion (U defaultConnectionName) = false)
    (hs : s.world.settings = U) (hp : s.world.psiphon = [])
    (ha : s.settingsApplied = false) (hal : s.Always (Recoverable ras U native₀)) (c : Bool) :
    let s' := ((recordNative ras (.ok c)).run s).2
    s'.world = restoredWorld ras U ∧ s'.settingsApplied = false ∧
      s'.Always (Recoverable ras U native₀) := by
  have hq : queriesOk ras (StartupResults.ok c).query = true := queriesOk_ok ras
  rw [run_recordNative (by rw [hs]; exact ho),hq,if_pos rfl]
  have hw : { s.world with native := infoOf ras s.world.settings } = restoredWorld ras U := by
    rw [restoredWorld,← hs,← hp]
  refine ⟨hw,ha,hal.write ?_⟩
  rw [hw]
  exact recoverable_restoredWorld

/-- A completed startup leaves the user's settings in place and on record. -/
theorem startup_spec (ho : leftByOlderVersion (U defaultConnectionName) = false)
    (hw : Recoverable ras U native₀ s.world) (hal : s.Always (Recoverable ras U native₀))
    (ha : s.settingsApplied = false) (c : Bool) :
    let s' := ((doStartupSystemProxyWork ras (.ok c)).run s).2
    s'.world = restoredWorld ras U ∧ s'.settingsApplied = false ∧
      s'.Always (Recoverable ras U native₀) := by
  have hr := run_restoreNative (fun _ => .ok) s
  by_cases hp : s.world.psiphon = []
  · rw [if_pos hp] at hr
    rw [run_doStartupSystemProxyWork hr,if_pos rfl]
    exact record_spec ho (hw.restored hp) hp ha hal c
  · have hn := hw.recorded hp
    rw [if_neg hp,if_pos (setsSucceed_ok 0 _),hn] at hr
    rw [run_doStartupSystemProxyWork hr,if_pos rfl]
    have hb := world_setBack hn hw.outside
    refine record_spec ho ?_ ?_ ?_ ?_ c
    · exact congrArg World.settings hb
    · exact congrArg World.psiphon hb
    · exact (settingsApplied_sets s _).trans ha
    · refine (hal.sets fun k => recoverable_sets hp hn hw.outside U k).write ?_
      rw [hb]
      exact recoverable_restoredWorld

theorem live_of_restored (hw : s.world = restoredWorld ras U)
    (ha : s.settingsApplied = false) (hal : s.Always (Recoverable ras U native₀)) :
    Live ras U native₀ s := by
  refine ⟨?_,?_,?_,?_,?_,hal⟩ <;> simp [hw,restoredWorld,ha]

def ApplyResults.ok : ApplyResults := ⟨fun _ => true, fun _ => .ok⟩

theorem live_apply (h : Live ras U native₀ s) (p : Ports) (skip : Bool) :
    Live ras U native₀ ((apply ras .ok p skip).run s).2 := by
  have hq : queriesOk ras ApplyResults.ok.query = true := queriesOk_ok ras
  have hok : ∀ l, setsSucceed ApplyResults.ok.sets 0 l = true := setsSucceed_ok 0
  rw [run_apply]
  simp only [hq,hok,Bool.not_true,Bool.or_false,decide_eq_true_eq,if_true]
  -- Psiphon's settings are on record before a connection is changed
  have hi : psiphonInfo ras p ≠ [] := infoOf_ne_nil ras _
  have hr : (s.record ras p).Always (Recoverable ras U native₀) :=
    h.always.write ⟨.inr h.native,fun _ => h.native,h.outside,fun hnil => absurd hnil hi⟩
  split
  · exact h
  · split
    · exact ⟨h.native,h.outside,fun hnil => absurd hnil hi,h.idle,fun _ => hi,hr⟩
    · refine ⟨?_,?_,?_,fun hf => absurd hf (by simp),fun _ => ?_,?_⟩
      · rw [world_sets]
        exact h.native
      · rw [world_sets]
        have := assign_outside (f := fun _ => psiphonSetting (makeProxySettingString p))
          h.outside (connections ras).length
        rwa [take_of_length_le (by simp [infoOf])] at this
      · rw [world_sets]
        exact fun hnil => absurd hnil hi
      · rw [world_sets]
        exact hi
      · exact hr.sets fun k =>
          @recoverable_sets ras U native₀ { s.world with psiphon := _ } hi h.native h.outside _ k

theorem live_revert (h : Live ras U native₀ s) :
    Live ras U native₀ ((revert fun _ => .ok).run s).2 := by
  rw [run_revert]
  simp only [setsSucceed_ok,if_true]
  split
  case isFalse hi =>
    have hi : s.settingsApplied = false := by simpa using hi
    have hw : { s.world with psiphon := [] } = restoredWorld ras U := by
      simp [restoredWorld,h.idle hi,h.native]
    refine live_of_restored hw hi (h.always.write ?_)
    rw [hw]
    exact recoverable_restoredWorld
  case isTrue ha =>
    have hb := world_setBack h.native h.outside
    have hs : (s.sets (infoOf ras U)).Always (Recoverable ras U native₀) :=
      h.always.sets fun k => recoverable_sets (h.applied ha) h.native h.outside U k
    rw [h.native]
    refine live_of_restored hb rfl
      (Process.Always.write (s := { s.sets (infoOf ras U) with settingsApplied := false }) hs ?_)
    rw [hb]
    exact recoverable_restoredWorld

/-! ### Processes -/

inductive Call where
  | apply (ports : Ports) (skip : Bool)
  | revert

def runCall (ras : List String) : Call → ProcessM Bool
  | .apply ports skip => apply ras .ok ports skip
  | .revert => revert fun _ => .ok

def runCalls (ras : List String) : List Call → ProcessM Unit
  | [] => return ()
  | call :: calls => do
    let _ ← runCall ras call
    runCalls ras calls

/-- A process: its calls, whether something responds on the port of the user's https proxy, and
the number of writes after which it crashes or ends. -/
structure ProcessRun where
  calls : List Call
  connectable : Bool
  writes : ℕ

def runProcess (ras : List String) (run : ProcessRun) : ProcessM Unit := do
  doStartupSystemProxyWork ras (.ok run.connectable)
  runCalls ras run.calls

def points (ras : List String) (run : ProcessRun) (w : World) : List World :=
  w :: ((runProcess ras run).run (.start w)).2.trace.reverse

/-- A process is left at one of its points; the next one starts from there. -/
def crashStep (ras : List String) (w : World) (run : ProcessRun) : Option World :=
  (points ras run w)[run.writes]?

theorem live_runCalls {c : List Call} (h : Live ras U native₀ s) :
    Live ras U native₀ ((runCalls ras c).run s).2 := by
  induction c generalizing s with
  | nil => exact h
  | cons call c ih =>
    have hc : Live ras U native₀ ((runCall ras call).run s).2 := by
      cases call with
      | apply p skip => exact live_apply h p skip
      | revert => exact live_revert h
    exact ih hc

/-- Every point of a process that starts from a recoverable world is recoverable. -/
theorem recoverable_crashStep {w w' : World} {run : ProcessRun}
    (hold : leftByOlderVersion (U defaultConnectionName) = false)
    (h : Recoverable ras U native₀ w) (hst : crashStep ras w run = some w') :
    Recoverable ras U native₀ w' := by
  have hs := startup_spec (s := .start w) hold h (by intro w hw; cases hw) rfl run.connectable
  have hl : Live ras U native₀ ((runProcess ras run).run (.start w)).2 :=
    live_runCalls (live_of_restored hs.1 hs.2.1 hs.2.2)
  rcases mem_cons.mp (mem_of_getElem? hst) with rfl | hmem
  · exact h
  · exact hl.always w' (mem_reverse.mp hmem)

def IsPsiphonAddress (address : String) : Prop :=
  address ≠ "" ∧ ∃ ports, makeProxySettingString ports = address

/-- After any number of processes that crash or end at any point, `NATIVE_PROXY_INFO` never holds an
address of Psiphon's, and the startup of the next process, once completed, has the user's settings
in place and on record. -/
theorem startup_recovers {w₀ w : World} {runs : List ProcessRun} (hsettings : w₀.settings = U)
    (hpsiphon : w₀.psiphon = []) (hold : leftByOlderVersion (U defaultConnectionName) = false)
    (h : Runs.run (crashStep ras) w₀ runs = some w) :
    (w.native = w₀.native ∨ w.native = infoOf ras U) ∧
    ((∀ e ∈ w₀.native ++ infoOf ras U, ¬ IsPsiphonAddress e.proxy) →
      ∀ e ∈ w.native, ¬ IsPsiphonAddress e.proxy) ∧
    ∀ connectable,
      let s := ((doStartupSystemProxyWork ras (.ok connectable)).run (.start w)).2
      s.world.settings = U ∧ s.world.native = infoOf ras U := by
  have hs : Recoverable ras U w₀.native w₀ :=
    ⟨.inl rfl,fun hne => absurd hpsiphon hne,fun c _ => by rw [hsettings],fun _ => hsettings⟩
  have hw : Recoverable ras U w₀.native w :=
    Runs.run_invariant (fun w run w' => recoverable_crashStep hold) hs h
  refine ⟨hw.native,fun hn e he => ?_,fun connectable => ?_⟩
  · rcases hw.native with heq | heq
    · exact hn e (mem_append_left _ (heq ▸ he))
    · exact hn e (mem_append_right _ (heq ▸ he))
  · have := (startup_spec (s := .start w) hold hw (by intro w hw; cases hw) rfl connectable).1
    exact ⟨congrArg World.settings this,congrArg World.native this⟩

end Recovery

def directSettings : String → ProxySetting := fun _ => ⟨1, "", ""⟩

/-- A process crashes after it has changed the first of two connections. -/
theorem startup_recovers_interrupted_apply :
    ∃ w, Runs.run (crashStep ["dial-up"]) ⟨directSettings, [], []⟩
        [⟨[.apply ⟨8081, 8081, 1081⟩ false], true, 3⟩] = some w ∧
      w.settings "dial-up" ≠ directSettings "dial-up" ∧
      ((doStartupSystemProxyWork ["dial-up"] (.ok true)).run (.start w)).2.world.settings =
        directSettings := by
  refine ⟨_,(Option.some_get rfl).symm,by decide,?_⟩
  exact ((startup_recovers rfl rfl rfl (Option.some_get _).symm).2.2 true).1

end Psiphon.Client
