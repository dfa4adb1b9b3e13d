import Psiphon.Client.ProxyRecovery

/-!
# Proxy settings when calls fail

An `Apply` that fails part-way does not set its flag, and `Revert` without it touches no connection.
-/

namespace Psiphon.Client

open List

structure SessionResults where
  startup : StartupResults
  apply : ApplyResults
  revert : ℕ → SetResults

def cleanup (r : SessionResults) : ProcessM Unit := do
  let _ ← revert r.revert

def connect (ras : List String) (r : SessionResults) (ports : Ports) (skip : Bool) :
    ProcessM Bool := do
  if ← apply ras r.apply ports skip then return true
  else
    cleanup r
    return false

/-- A session: the startup, a connection and, when it was made, its end. -/
def session (ras : List String) (r : SessionResults) (ports : Ports) (skip : Bool) :
    ProcessM Unit := do
  doStartupSystemProxyWork ras r.startup
  if ← connect ras r ports skip then cleanup r

/-- Psiphon's settings are in place only where they are on record, and the user's settings are
on record. -/
structure Safe (ras : List String) (U : String → ProxySetting) (address : String) (w : World) :
    Prop where
  recorded : w.psiphon = [] → ∀ c ∈ connections ras,
    w.settings c = psiphonSetting address → U c = psiphonSetting address
  native : w.native = infoOf ras U

/-- The queries of the startup succeed, and an `Apply` that fails has not changed a connection. -/
structure NoPartialApply (ras : List String) (U : String → ProxySetting) (r : SessionResults)
    (ports : Ports) (skip : Bool) : Prop where
  startup : queriesOk ras r.startup.query = true
  apply : makeProxySettingString ports ≠ "" → queriesOk ras r.apply.query = true → skip = false →
    setsSucceed r.apply.sets 0 (psiphonInfo ras ports) = true ∨
    ∀ c ∈ (connections ras).take (setCount r.apply.sets 0 (psiphonInfo ras ports)),
      U c = psiphonSetting (makeProxySettingString ports)

/-! ### The session, step by step -/

section Session

variable {ras : List String} {U : String → ProxySetting} {r : SessionResults} {ports : Ports}
  {skip : Bool} {w₀ : World}

theorem run_startup (hp : w₀.psiphon = [])
    (ho : leftByOlderVersion (w₀.settings defaultConnectionName) = false) :
    (doStartupSystemProxyWork ras r.startup).run (.start w₀) =
      ((), (Process.start w₀).write fun w =>
        { w with
          native := if queriesOk ras r.startup.query then infoOf ras w₀.settings else [] }) := by
  have hr : (restoreNative r.startup.restore).run (.start w₀) = (true, .start w₀) := by
    rw [run_restoreNative]
    exact if_pos hp
  rw [run_doStartupSystemProxyWork hr,if_pos rfl]
  exact run_recordNative ho

theorem run_session {s : Process}
    (hst : (doStartupSystemProxyWork ras r.startup).run (.start w₀) = ((), s)) :
    ((session ras r ports skip).run (.start w₀)).2 =
      ((revert r.revert).run ((apply ras r.apply ports skip).run s).2).2 := by
  have hs : ((session ras r ports skip).run (.start w₀)).2 =
      ((do if ← connect ras r ports skip then cleanup r : ProcessM Unit).run s).2 := by
    rw [session,StateT.run_bind,hst]
    rfl
  rw [hs]
  obtain ⟨a,s',ha⟩ : ∃ a s', (apply ras r.apply ports skip).run s = (a, s') := ⟨_,_,rfl⟩
  cases a <;> simp [connect,cleanup,ha] <;> rfl

theorem subset_trace_sets (s : Process) (l : List ConnectionProxy) :
    s.trace ⊆ (s.sets l).trace := by
  induction l generalizing s with
  | nil => exact fun _ h => h
  | cons setting rest ih => exact fun w h => ih _ (.tail _ h)

theorem subset_trace_apply (s : Process) :
    s.trace ⊆ ((apply ras r.apply ports skip).run s).2.trace := by
  intro w h
  have hr : ∀ f, w ∈ (s.write f).trace := fun f => mem_cons_of_mem _ h
  rw [run_apply]
  split
  · exact h
  · split
    · exact hr _
    · split
      · exact subset_trace_sets _ _ (hr _)
      · exact subset_trace_sets _ _ (hr _)

theorem subset_trace_revert (results : ℕ → SetResults) (s : Process) :
    s.trace ⊆ ((revert results).run s).2.trace := by
  intro w h
  rw [run_revert]
  split
  · split
    · exact mem_cons_of_mem _ (subset_trace_sets _ _ h)
    · exact subset_trace_sets _ _ h
  · exact mem_cons_of_mem _ h

variable {address : String}

theorem safe_of_psiphon_ne_nil {w : World} (hp : w.psiphon ≠ [])
    (hn : w.native = infoOf ras U) : Safe ras U address w :=
  ⟨fun h => absurd h hp,hn⟩

theorem safe_of_settings {w : World} (hs : w.settings = U)
    (hn : w.native = infoOf ras U) : Safe ras U address w :=
  ⟨fun _ _ _ h => hs ▸ h,hn⟩

theorem always_revert_idle {s : Process} (h : s.Always (Safe ras U address))
    (ha : s.settingsApplied = false) (hs : Safe ras U address { s.world with psiphon := [] })
    (results : ℕ → SetResults) :
    ((revert results).run s).2.Always (Safe ras U address) := by
  rw [run_revert,ha]
  exact h.write hs

/-- `Revert` of a process that completed an `Apply`: Psiphon's settings are on record until every
connection is set back. -/
theorem always_revert_applied {s : Process} (h : s.Always (Safe ras U address))
    (ha : s.settingsApplied = true) (hp : s.world.psiphon ≠ []) (hn : s.world.native = infoOf ras U)
    (ho : ∀ c ∉ connections ras, s.world.settings c = U c) (results : ℕ → SetResults) :
    ((revert results).run s).2.Always (Safe ras U address) := by
  have hs : ∀ l, (s.sets l).Always (Safe ras U address) :=
    fun l => h.sets fun k => safe_of_psiphon_ne_nil hp hn
  rw [run_revert,ha,if_pos rfl]
  split
  · have hb := world_setBack hn ho
    rw [hn]
    refine Process.Always.write (s := { s.sets (infoOf ras U) with settingsApplied := false })
      (hs _) ?_
    rw [hb]
    exact safe_of_settings rfl rfl
  · exact hs _

def afterPartialApply (ras : List String) (r : SessionResults) (ports : Ports) (s : Process) :
    Process :=
  (s.record ras ports).sets
    ((psiphonInfo ras ports).take (setCount r.apply.sets 0 (psiphonInfo ras ports)))

/-- The connections that were set have Psiphon's settings, the others those they had. -/
theorem settings_afterPartialApply (ras : List String) (r : SessionResults) (ports : Ports)
    (s : Process) (c : String) : (afterPartialApply ras r ports s).world.settings c =
      if c ∈ (connections ras).take (setCount r.apply.sets 0 (psiphonInfo ras ports)) then
        psiphonSetting (makeProxySettingString ports) else s.world.settings c := by
  rw [afterPartialApply,world_sets,psiphonInfo,take_infoOf]
  exact assign_infoOf _ _ _ c

/-- The `Revert` after it clears the record. -/
theorem run_revert_afterPartialApply {s : Process} (ha : s.settingsApplied = false) :
    ((revert r.revert).run (afterPartialApply ras r ports s)).2 =
      (afterPartialApply ras r ports s).write fun w => { w with psiphon := [] } := by
  have hi : (afterPartialApply ras r ports s).settingsApplied = false :=
    (settingsApplied_sets _ _).trans ha
  rw [run_revert,hi]
  rfl

def started (ras : List String) (U : String → ProxySetting) (r : SessionResults) (w₀ : World) :
    Process :=
  (Process.start w₀).write fun w => { w with
    native := if queriesOk ras r.startup.query then infoOf ras U else [] }

theorem always_safe {w₀ : World} (hs : w₀.settings = U) (h : NoPartialApply ras U r ports skip) :
    ((revert r.revert).run ((apply ras r.apply ports skip).run (started ras U r w₀)).2).2.Always
        (Safe ras U (makeProxySettingString ports)) := by
  have hn : (started ras U r w₀).world.native = infoOf ras U := if_pos h.startup
  have hst : (started ras U r w₀).Always (Safe ras U (makeProxySettingString ports)) := by
    intro w hw
    obtain rfl : w = (started ras U r w₀).world := mem_singleton.mp hw
    exact safe_of_settings hs hn
  have hi : psiphonInfo ras ports ≠ [] := infoOf_ne_nil ras _
  have hr : ((started ras U r w₀).record ras ports).Always
      (Safe ras U (makeProxySettingString ports)) :=
    hst.write (safe_of_psiphon_ne_nil hi hn)
  have hse : ∀ l, (((started ras U r w₀).record ras ports).sets l).Always
      (Safe ras U (makeProxySettingString ports)) :=
    fun l => hr.sets fun k => safe_of_psiphon_ne_nil hi hn
  rw [run_apply]
  split
  case isTrue => exact always_revert_idle hst rfl (safe_of_settings hs hn) _
  case isFalse hgo =>
    simp only [Bool.or_eq_true,decide_eq_true_eq,Bool.not_eq_true',not_or,Bool.not_eq_false] at hgo
    cases skip with
    | true => exact always_revert_idle hr rfl (safe_of_settings hs hn) _
    | false =>
      cases hok : setsSucceed r.apply.sets 0 (psiphonInfo ras ports) with
      | true =>
        have hwo := world_sets ((started ras U r w₀).record ras ports) (psiphonInfo ras ports)
        refine always_revert_applied (s := { ((started ras U r w₀).record ras ports).sets
          (psiphonInfo ras ports) with settingsApplied := true }) (hse _) rfl ?_ ?_ ?_ _
        · exact fun hnil => hi ((congrArg World.psiphon hwo).symm.trans hnil)
        · exact (congrArg World.native hwo).trans hn
        · intro c hc
          have hset : assign (psiphonInfo ras ports) w₀.settings c = w₀.settings c :=
            (assign_infoOf _ _ _ c).trans (if_neg hc)
          refine (congrFun (congrArg World.settings hwo) c).trans ?_
          exact hset.trans (congrFun hs c)
      | false =>
        -- the connections that were set had Psiphon's settings before
        have hp := (h.apply hgo.1 hgo.2 rfl).resolve_left (by simp [hok])
        refine always_revert_idle (s := afterPartialApply ras r ports (started ras U r w₀))
          (hse _) (settingsApplied_sets _ _) ⟨fun _ c _ hc => ?_,?_⟩ _
        · have hset := settings_afterPartialApply ras r ports (started ras U r w₀) c
          split at hset
          case isTrue hmem => exact hp c hmem
          case isFalse hmem => exact (congrFun hs c).symm.trans (hset.symm.trans hc)
        · exact (congrArg World.native (world_sets _ _)).trans hn

/-- The condition is needed: the first world after the startup has `NATIVE_PROXY_INFO` empty when a
query fails, and the last one has no record of what a partial `Apply` set. -/
theorem noPartialApply_of_safe {w₀ : World} (h : ((revert r.revert).run
      ((apply ras r.apply ports skip).run (started ras U r w₀)).2).2.Always
        (Safe ras U (makeProxySettingString ports))) : NoPartialApply ras U r ports skip := by
  refine ⟨?_,fun ha hq hs => ?_⟩
  · have hm : (started ras U r w₀).world ∈ (started ras U r w₀).trace := (.head _)
    have hn := (h _ (subset_trace_revert _ _ (subset_trace_apply _ hm))).native
    by_contra hqu
    have hnil : (started ras U r w₀).world.native = [] := if_neg hqu
    exact infoOf_ne_nil ras U (hn.symm.trans hnil)
  · cases hok : setsSucceed r.apply.sets 0 (psiphonInfo ras ports) with
    | true => exact .inl rfl
    | false =>
      have hap : ((apply ras r.apply ports skip).run (started ras U r w₀)).2 =
          afterPartialApply ras r ports (started ras U r w₀) := by
        rw [run_apply]
        simp [ha,hq,hs,hok,afterPartialApply]
      rw [hap,run_revert_afterPartialApply rfl] at h
      refine .inr fun c hc => ?_
      have hset := settings_afterPartialApply ras r ports (started ras U r w₀) c
      rw [if_pos hc] at hset
      exact (h _ (.head _)).recorded rfl c (mem_of_mem_take hc) hset

/-- In a session from the user's settings, whatever calls fail, Psiphon's settings are only where
they are on record, with the user's, exactly when the queries of the startup succeed and no `Apply`
fails after it has changed a connection. -/
theorem session_safe_iff (hsettings : w₀.settings = U) (hpsiphon : w₀.psiphon = [])
    (hold : leftByOlderVersion (U defaultConnectionName) = false) :
    ((session ras r ports skip).run (.start w₀)).2.Always
        (Safe ras U (makeProxySettingString ports)) ↔
      NoPartialApply ras U r ports skip := by
  subst hsettings
  rw [run_session (run_startup hpsiphon hold)]
  exact ⟨noPartialApply_of_safe,always_safe rfl⟩

end Session

def SessionResults.ok : SessionResults := ⟨.ok true, .ok, fun _ => .ok⟩

def failsAt (i j : ℕ) : SetResults := if j = i then ⟨false, false, false, false⟩ else .ok

/-- An `Apply` whose first connection cannot be set changes nothing. -/
theorem session_safe_first_fails :
    ((session ["dial-up"] { SessionResults.ok with apply := ⟨fun _ => true, failsAt 0⟩ }
      ⟨8081, 8081, 1081⟩ false).run (.start ⟨directSettings, [], []⟩)).2.Always
        (Safe ["dial-up"] directSettings (makeProxySettingString ⟨8081, 8081, 1081⟩)) :=
  (session_safe_iff rfl rfl rfl).mpr ⟨rfl,fun _ _ _ => .inr fun _ h => nomatch h⟩

/-- An `Apply` whose second connection cannot be set leaves the first at Psiphon's proxy, not on
record; and a startup whose query fails records no settings of the user. -/
theorem session_unsafe_second_fails :
    (let w := ((session ["dial-up"] { SessionResults.ok with apply := ⟨fun _ => true, failsAt 1⟩ }
      ⟨8081, 8081, 1081⟩ false).run (.start ⟨directSettings, [], []⟩)).2.world
    w.psiphon = [] ∧ w.settings "dial-up" = psiphonSetting
      (makeProxySettingString ⟨8081, 8081, 1081⟩) ∧
    w.settings "dial-up" ≠ directSettings "dial-up") ∧
    ((session ["dial-up"] { SessionResults.ok with
        startup := { StartupResults.ok true with query := fun i => i ≠ 1 } }
      ⟨8081, 8081, 1081⟩ false).run
        (.start ⟨directSettings, infoOf ["dial-up"] directSettings, []⟩)).2.world.native = [] :=
  ⟨⟨rfl,rfl,by decide⟩,rfl⟩

end Psiphon.Client
