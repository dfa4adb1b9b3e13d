import Psiphon.Lib.Runs
import Psiphon.Ops.Mutators
import Psiphon.Ops.Synced

/-!
# The flag for data that has to be deployed

`__deploy_data_required_for_all` is meant to be set whenever the data of some host differs from what
the host was last sent. Some operations change data without it.
-/

namespace Psiphon.Ops

open Hoare

/-! ### The operations -/

inductive Operation where
  | importSponsor (id name : String)
  | setSponsorHomePage (sponsorName region url : String) (now : Date)
  | setSponsorMobileHomePage (sponsorName region url : String) (now : Date)
  | removeSponsorHomePage (sponsorName region url : String) (now : Date)
  | setSponsorPageViewRegex (sponsorName regex replace : String) (now : Date)
  | removeSponsorPageViewRegex (sponsorName regex : String)
  | setSponsorHttpsRequestRegex (sponsorName regex replace : String) (now : Date)
  | removeSponsorHttpsRequestRegex (sponsorName regex : String)
  | setSponsorOverrideDataSponsorId (sponsorName useDataFromSponsorName : String)
  | setServersPropagationChannelAndDiscoveryDateRange (serverNames : List Id)
      (channelName : String) (range : Option (Date × Date)) (replaceOthers : Bool) (now : Date)
  | addClientVersion (platform : Platform) (description : String)
  | addSpeedTestUrl (url : SpeedTestURL)
  | importHost (id : Id) (isTCS : Bool) (provider providerId : String)
  | importServer (server : Server)
  | setupFrontingForServer (serverId domain frontingHost : String) (keys : MeekKeys)
  | setupUnfrontedMeekForServer (serverId : Id) (keys : MeekKeys)
  | removeHost (hostId : Id)
  | deploy

def Operation.perform (env : Outside) : Operation → Script Unit
  | .importSponsor id name => updateNet (Ops.importSponsor id name)
  | .setSponsorHomePage sponsorName region url now =>
    updateNet (Ops.setSponsorHomePage sponsorName region url now)
  | .setSponsorMobileHomePage sponsorName region url now =>
    updateNet (Ops.setSponsorMobileHomePage sponsorName region url now)
  | .removeSponsorHomePage sponsorName region url now =>
    updateNet (Ops.removeSponsorHomePage sponsorName region url now)
  | .setSponsorPageViewRegex sponsorName regex replace now =>
    updateNet (Ops.setSponsorPageViewRegex sponsorName regex replace now)
  | .removeSponsorPageViewRegex sponsorName regex =>
    Ops.removeSponsorPageViewRegex sponsorName regex
  | .setSponsorHttpsRequestRegex sponsorName regex replace now =>
    updateNet (Ops.setSponsorHttpsRequestRegex sponsorName regex replace now)
  | .removeSponsorHttpsRequestRegex sponsorName regex =>
    Ops.removeSponsorHttpsRequestRegex sponsorName regex
  | .setSponsorOverrideDataSponsorId sponsorName useDataFromSponsorName =>
    updateNet (Ops.setSponsorOverrideDataSponsorId sponsorName useDataFromSponsorName)
  | .setServersPropagationChannelAndDiscoveryDateRange serverNames channelName range
      replaceOthers now =>
    Ops.setServersPropagationChannelAndDiscoveryDateRange serverNames channelName range
      replaceOthers now
  | .addClientVersion platform description =>
    updateNet (Ops.addClientVersion platform description)
  | .addSpeedTestUrl url => updateNet (Ops.addSpeedTestUrl url)
  | .importHost id isTCS provider providerId =>
    updateNet (Ops.importHost id isTCS provider providerId)
  | .importServer server => updateNet (Ops.importServer server)
  | .setupFrontingForServer serverId domain frontingHost keys =>
    Ops.setupFrontingForServer env serverId domain frontingHost keys
  | .setupUnfrontedMeekForServer serverId keys =>
    Ops.setupUnfrontedMeekForServer env serverId keys
  | .removeHost hostId => Ops.removeHost hostId
  | .deploy => Ops.deploy env

/-- The state after an operation, whether it returned or raised. -/
def operationStep (env : Outside) (w : World) (op : Operation) : Option World :=
  match op.perform env w with
  | .ok _ w' => some w'
  | .error _ w' => some w'

/-! ### Operations that announce their changes -/

/-- The host and the server are there, and meek has not been set up. -/
def meekCanBeSetUp (net : Network) (serverId : Id) : Bool :=
  match net.servers.get? serverId with
  | none => false
  | some server =>
    match net.hosts.get? server.hostId with
    | none => false
    | some host => host.meekServerPort.isNone && server.capabilities.isSome

def hasRegex (field : SponsorField (List SponsorRegex)) (net : Network)
    (sponsorName regex : String) : Bool :=
  match net.getSponsorByName sponsorName with
  | none => false
  | some sponsor => (field.get sponsor).any fun rx => rx.regex == regex

/-- The operation, in this database, sets the flag or changes nothing: it is one that always
announces its changes, it is refused, or it cannot raise part-way. -/
def Operation.announced (net : Network) : Operation → Bool
  | .importSponsor id name =>
    !net.isLocked || net.sponsors.contains id ||
      net.sponsors.records.any fun sponsor => sponsor.name == name
  | .importHost id _ _ _ => !net.isLocked || net.hosts.contains id
  | .importServer server => !net.isLocked || net.servers.contains server.id
  | .setupFrontingForServer serverId _ _ _ => !meekCanBeSetUp net serverId
  | .setupUnfrontedMeekForServer serverId _ => !meekCanBeSetUp net serverId
  | .removeHost hostId => !net.isLocked || !net.hosts.contains hostId
  | .removeSponsorPageViewRegex sponsorName regex =>
    !net.isLocked || !hasRegex pageViewRegexesField net sponsorName regex
  | .removeSponsorHttpsRequestRegex sponsorName regex =>
    !net.isLocked || !hasRegex httpsRequestRegexesField net sponsorName regex
  | .setServersPropagationChannelAndDiscoveryDateRange serverNames channelName range _ _ =>
    !net.isLocked || (net.getPropagationChannelByName channelName).isNone ||
      serverNames.all fun name => range.isSome && net.servers.contains name
  | _ => true

/-- A change made by one assignment is announced by the same assignment. -/
def Announces (f : Network → Py Network) : Prop :=
  ∀ net net', f net = .ok net' → net' = net ∨ net'.deployDataRequiredForAll = true

theorem addHomePage_announces (field : SponsorField HomePages) (sn r url : String)
    (now : Date) : Announces (addHomePage field sn r url now) := by
  intro net net' h
  obtain ⟨_,-,h⟩ := bind_eq_ok_iff.mp h
  obtain ⟨sponsor,-,h⟩ := bind_eq_ok_iff.mp h
  dsimp only at h
  split at h
  · cases h
    exact .inl rfl
  · cases h
    exact .inr rfl

theorem removeSponsorHomePage_announces (sn r url : String) (now : Date) :
    Announces (removeSponsorHomePage sn r url now) := by
  intro net net' h
  obtain ⟨_,-,h⟩ := bind_eq_ok_iff.mp h
  obtain ⟨sponsor,-,h⟩ := bind_eq_ok_iff.mp h
  dsimp only at h
  split at h
  · cases h
    exact .inr rfl
  · cases h
    exact .inl rfl

theorem addRegex_announces (field : SponsorField (List SponsorRegex))
    (sn r replace : String) (now : Date) : Announces (addRegex field sn r replace now) := by
  intro net net' h
  obtain ⟨_,-,h⟩ := bind_eq_ok_iff.mp h
  obtain ⟨sponsor,-,h⟩ := bind_eq_ok_iff.mp h
  split at h
  · cases h
    exact .inl rfl
  · cases h
    exact .inr rfl

theorem setSponsorOverrideDataSponsorId_announces (sn udf : String) :
    Announces (setSponsorOverrideDataSponsorId sn udf) := by
  intro net net' h
  obtain ⟨_,-,h⟩ := bind_eq_ok_iff.mp h
  obtain ⟨override,-,h⟩ := bind_eq_ok_iff.mp h
  obtain ⟨sponsor,-,h⟩ := bind_eq_ok_iff.mp h
  cases h
  exact .inr rfl

theorem addClientVersion_announces (p : Platform) (d : String) :
    Announces (addClientVersion p d) := by
  intro net net' h
  obtain ⟨_,-,h⟩ := bind_eq_ok_iff.mp h
  obtain ⟨_,-,h⟩ := bind_eq_ok_iff.mp h
  obtain ⟨next,-,h⟩ := bind_eq_ok_iff.mp h
  cases h
  exact .inr rfl

theorem addSpeedTestUrl_announces (url : SpeedTestURL) : Announces (addSpeedTestUrl url) := by
  intro net net' h
  obtain ⟨_,-,h⟩ := bind_eq_ok_iff.mp h
  split at h
  · cases h
    exact .inl rfl
  · cases h
    exact .inr rfl

variable {net net' : Network}

theorem importSponsor_eq_ok {id name : String} (h : importSponsor id name net = .ok net') :
    (Operation.importSponsor id name).announced net = false ∧
      net'.deployDataRequiredForAll = net.deployDataRequiredForAll := by
  obtain ⟨_,hl,h⟩ := bind_eq_ok_iff.mp h
  obtain ⟨_,hid,h⟩ := bind_eq_ok_iff.mp h
  obtain ⟨_,hn,h⟩ := bind_eq_ok_iff.mp h
  cases h
  rw [pyAssert_eq_ok_iff,Bool.not_eq_true'] at hid hn
  rw [pyAssert_eq_ok_iff] at hl
  refine ⟨?_,rfl⟩
  rw [Operation.announced,hl,hid,hn]
  rfl

theorem importHost_eq_ok {id : Id} {itc : Bool} {p pi : String}
    (h : importHost id itc p pi net = .ok net') :
    (Operation.importHost id itc p pi).announced net = false ∧
      net'.deployDataRequiredForAll = net.deployDataRequiredForAll := by
  obtain ⟨_,hl,h⟩ := bind_eq_ok_iff.mp h
  obtain ⟨_,hid,h⟩ := bind_eq_ok_iff.mp h
  cases h
  rw [pyAssert_eq_ok_iff,Bool.not_eq_true'] at hid
  rw [pyAssert_eq_ok_iff] at hl
  refine ⟨?_,rfl⟩
  rw [Operation.announced,hl,hid]
  rfl

theorem importServer_eq_ok {s : Server} (h : importServer s net = .ok net') :
    (Operation.importServer s).announced net = false ∧
      net'.deployDataRequiredForAll = net.deployDataRequiredForAll := by
  obtain ⟨_,hl,h⟩ := bind_eq_ok_iff.mp h
  obtain ⟨_,hid,h⟩ := bind_eq_ok_iff.mp h
  cases h
  rw [pyAssert_eq_ok_iff,Bool.not_eq_true'] at hid
  rw [pyAssert_eq_ok_iff] at hl
  refine ⟨?_,rfl⟩
  rw [Operation.announced,hl,hid]
  rfl

section Operations

variable {env : Outside} {I : World → Prop}

variable {f : Network → Py Network}

theorem updateNet_keeps (h : ∀ w net, I w → f w.net = .ok net → I { w with net := net }) :
    Keeps I (updateNet f) := by
  apply Triple.get
  intro w₀ h₀
  apply raisePy_bind
  · intro net hn
    apply assign_triple
    rintro _ rfl
    exact h _ net h₀ hn
  · rintro e _ rfl
    exact h₀

def FlagSet (w : World) : Prop := w.net.deployDataRequiredForAll = true

theorem Announces.synced (hf : Announces f) : Keeps (Synced env) (updateNet f) := by
  apply updateNet_keeps
  intro w net h hn
  rcases hf w.net net hn with rfl | hfl
  · exact h
  · exact synced_of_flag hfl

theorem Announces.keeps_flag (hf : Announces f) : Keeps FlagSet (updateNet f) := by
  apply updateNet_keeps
  intro w net h hn
  rcases hf w.net net hn with rfl | hfl
  · exact h
  · exact hfl

theorem assign_keeps_flag {f : Network → Network}
    (hf : ∀ net, (f net).deployDataRequiredForAll = net.deployDataRequiredForAll) :
    Keeps FlagSet (assign f) :=
  assign_triple fun w h => (hf w.net).trans h

theorem call_keeps_flag {work : Work} : Keeps FlagSet (call env work) :=
  call_triple (fun _ h => h) fun _ h => h

theorem removeRegex_keeps_flag {field : SponsorField (List SponsorRegex)}
    {sn r : String} : Keeps FlagSet (removeRegex field sn r) := by
  refine .get fun w => raisePy_bind_keeps fun _ _ => raisePy_bind_keeps fun sponsor _ => ?_
  apply Triple.when
  refine Triple.seq (assign_keeps_flag fun _ => rfl) ?_
  exact raisePy_bind_keeps fun _ h => by cases h

variable {range : Option (Date × Date)}

theorem setServer_keeps_flag {c : Option PropagationChannel} {name : Id} :
    Keeps FlagSet (setServer c range name) := by
  refine .get fun w => raisePy_bind_keeps fun _ _ => raisePy_bind_keeps fun c _ => ?_
  refine .seq (assign_keeps_flag fun _ => rfl) ?_
  cases range with
  | none => exact .throw fun _ h => h
  | some range => exact assign_keeps_flag fun _ => rfl

variable {names : List Id} {replaceOthers : Bool}

theorem setServers_keeps_flag {cn : String} {now : Date} :
    Keeps FlagSet (setServersPropagationChannelAndDiscoveryDateRange names cn range
      replaceOthers now) := by
  refine .get fun w => raisePy_bind_keeps fun _ _ => ?_
  apply Triple.seq (Q := FlagSet)
  · apply Triple.when
    exact raisePy_bind_keeps fun _ _ => assign_keeps_flag fun _ => rfl
  apply Triple.seq (Triple.forM (I := fun _ => FlagSet) (fun _ _ => setServer_keeps_flag) _)
  exact assign_triple fun _ _ => rfl

variable {keys : MeekKeys}

theorem setupMeekParametersForHost_keeps_flag {host : Host} {port : ℕ} :
    Keeps FlagSet (setupMeekParametersForHost env host port keys) := by
  refine raisePy_bind_keeps fun _ _ => .seq (assign_keeps_flag fun _ => rfl) ?_
  apply Triple.seq (Q := FlagSet)
  · apply Triple.unless
    exact assign_keeps_flag fun _ => rfl
  apply Triple.unless
  exact .bind call_keeps_flag fun _ => assign_keeps_flag fun _ => rfl

theorem installMeekForHost_keeps_flag {host : Host} :
    Keeps FlagSet (installMeekForHost env host) := by
  apply Triple.seq call_keeps_flag
  apply Triple.seq call_keeps_flag
  apply Triple.seq call_keeps_flag
  refine Keeps.get fun w => raisePy_bind_keeps fun data _ => ?_
  intro w' h
  by_cases hc : env.succeeds w'.calls
  · simp only [sendHostData,hc,if_true]
    exact h
  · simp only [sendHostData,hc]
    exact h

theorem setupFrontingForServer_keeps_flag {serverId d fh : String} :
    Keeps FlagSet (setupFrontingForServer env serverId d fh keys) := by
  refine .get fun w => raisePy_bind_keeps fun host _ => ?_
  refine .seq (assign_keeps_flag fun _ => rfl) ?_
  refine .seq (assign_keeps_flag fun _ => rfl) ?_
  exact .bind setupMeekParametersForHost_keeps_flag fun _ => installMeekForHost_keeps_flag

variable {serverId : Id}

theorem setupUnfrontedMeekForServer_keeps_flag :
    Keeps FlagSet (setupUnfrontedMeekForServer env serverId keys) := by
  refine .get fun w => raisePy_bind_keeps fun host _ => ?_
  refine .seq (assign_keeps_flag fun _ => rfl) ?_
  exact .bind setupMeekParametersForHost_keeps_flag fun _ => installMeekForHost_keeps_flag

theorem removeHost_keeps_flag {hostId : Id} : Keeps FlagSet (removeHost hostId) := by
  refine .get fun w => raisePy_bind_keeps fun _ _ => raisePy_bind_keeps fun host _ => ?_
  refine .seq (assign_keeps_flag fun _ => rfl) ?_
  apply Triple.bind (Triple.forM (I := fun _ => FlagSet) (fun serverId _ => ?_) _)
  · intro _
    exact assign_keeps_flag fun _ => rfl
  · refine Keeps.get fun w => raisePy_bind_keeps fun _ _ => raisePy_bind_keeps fun _ _ => ?_
    exact assign_keeps_flag fun _ => rfl

/-- Only a deployment clears the flag. -/
theorem perform_keeps_flag {op : Operation} (hop : op ≠ .deploy) :
    Keeps FlagSet (op.perform env) := by
  cases op with
  | importSponsor id name =>
    exact updateNet_keeps fun _ _ h hn => (importSponsor_eq_ok hn).2.trans h
  | importHost id isTCS provider providerId =>
    exact updateNet_keeps fun _ _ h hn => (importHost_eq_ok hn).2.trans h
  | importServer server =>
    exact updateNet_keeps fun _ _ h hn => (importServer_eq_ok hn).2.trans h
  | setSponsorHomePage => exact (addHomePage_announces _ _ _ _ _).keeps_flag
  | setSponsorMobileHomePage => exact (addHomePage_announces _ _ _ _ _).keeps_flag
  | removeSponsorHomePage => exact (removeSponsorHomePage_announces _ _ _ _).keeps_flag
  | setSponsorPageViewRegex => exact (addRegex_announces _ _ _ _ _).keeps_flag
  | setSponsorHttpsRequestRegex => exact (addRegex_announces _ _ _ _ _).keeps_flag
  | removeSponsorPageViewRegex => exact removeRegex_keeps_flag
  | removeSponsorHttpsRequestRegex => exact removeRegex_keeps_flag
  | setSponsorOverrideDataSponsorId =>
    exact (setSponsorOverrideDataSponsorId_announces _ _).keeps_flag
  | setServersPropagationChannelAndDiscoveryDateRange => exact setServers_keeps_flag
  | addClientVersion => exact (addClientVersion_announces _ _).keeps_flag
  | addSpeedTestUrl => exact (addSpeedTestUrl_announces _).keeps_flag
  | setupFrontingForServer => exact setupFrontingForServer_keeps_flag
  | setupUnfrontedMeekForServer => exact setupUnfrontedMeekForServer_keeps_flag
  | removeHost => exact removeHost_keeps_flag
  | deploy => exact absurd rfl hop

/-! ### What an announced operation leaves -/

theorem refused {P : World → Prop} {α : Type} {r : Py α} {f : α → Script Unit}
    (hP : ∀ w, P w → I w) (h : ∀ a, r ≠ .ok a) :
    Triple P (raisePy r >>= f) (fun _ => I) (fun _ => I) :=
  raisePy_bind (fun a ha => absurd ha (h a)) fun _ => hP

variable (env) in
/-- The program keeps the flag right in the databases in which it is announced. -/
abbrev SyncsIf (announced : Network → Bool) (x : Script Unit) : Prop :=
  Triple (fun w => Synced env w ∧ announced w.net = true) x (fun _ => Synced env)
    fun _ => Synced env

theorem refused_synced {announced : Network → Bool} {α : Type} {r : World → Py α}
    {f : World → α → Script Unit} (h : ∀ w a, r w = .ok a → announced w.net = false) :
    SyncsIf env announced (get >>= fun w => raisePy (r w) >>= f w) := by
  apply Triple.get
  rintro w₀ ⟨h₀,ha⟩
  refine refused (fun w hw => hw ▸ h₀) fun a hr => ?_
  rw [h _ _ hr] at ha
  cases ha

theorem popMatches_eq_nil {r : String} {l : List SponsorRegex}
    (h : (l.any fun rx => rx.regex == r) = false) : (popMatches r l).1 = [] := by
  induction l using popMatches.induct r with
  | case1 => rfl
  | case2 rx hrx => simp [hrx] at h
  | case3 rx hrx => simp [popMatches,hrx]
  | case4 rx next rest hrx _ => simp [hrx] at h
  | case5 rx next rest hrx ih =>
    have hr := (Bool.or_eq_false_iff.mp h).2
    simpa [popMatches,hrx] using ih hr

theorem removeRegex_synced {field : SponsorField (List SponsorRegex)} {sn r : String} :
    SyncsIf env (fun net => !net.isLocked || !hasRegex field net sn r)
      (removeRegex field sn r) := by
  apply Triple.get
  rintro w₀ ⟨h₀,ha⟩
  have hk : ∀ w, w = w₀ → Synced env w := fun _ hw => hw ▸ h₀
  apply raisePy_bind
  · intro _ hl
    apply raisePy_bind
    · intro s hsp
      rw [pyAssert_eq_ok_iff] at hl
      have hn : (popMatches r (field.get s)).1 = [] := by
        apply popMatches_eq_nil
        cases hs : w₀.net.getSponsorByName sn with
        | none =>
          rw [hs] at hsp
          cases hsp
        | some s' =>
          rw [hs] at hsp
          cases hsp
          simpa [hl,hasRegex,hs] using ha
      apply Triple.ite
      · exact fun h => absurd hn h
      · exact fun _ => .pure fun w hw => hk w hw
    · exact fun _ w hw => hk w hw
  · exact fun _ w hw => hk w hw

theorem contains_modifyServer (net : Network) (serverId : Id) (f : Server → Server)
    (hf : ∀ s, Server.id (f s) = Server.id s) (name : Id) :
    (net.modifyServer serverId f hf).servers.contains name = net.servers.contains name := by
  simp only [Table.contains,Network.modifyServer,Table.get?_modify]
  by_cases h : name = serverId
  · simp [h]
  · simp [h]

def HasServers (names : List Id) (w : World) : Prop :=
  ∀ name ∈ names, w.net.servers.contains name = true

variable {E : Failure → World → Prop}

theorem modifyServer_hasServers {f : Server → Server} {hf : ∀ s, Server.id (f s) = Server.id s} :
    Triple (HasServers names) (assign (Network.modifyServer serverId f hf))
      (fun _ => HasServers names) E := by
  apply assign_triple
  intro w h name hn
  exact (contains_modifyServer w.net serverId f hf name).trans (h name hn)

theorem setServer_hasServers (c : PropagationChannel) (range : Date × Date) (name : Id)
    (names : List Id) : Triple (HasServers (name :: names)) (setServer (some c) (some range) name)
      (fun _ => HasServers names) E := by
  apply Triple.get
  intro w₀ h₀
  obtain ⟨s,hs⟩ := Option.isSome_iff_exists.mp (h₀ name (.head _))
  apply raisePy_bind_ok (a := s)
  · rw [lookup,hs]
  apply raisePy_bind_ok (a := c) rfl
  apply Triple.seq (Q := HasServers names)
  · refine modifyServer_hasServers.weaken_pre ?_
    rintro _ rfl n hn
    exact h₀ n (List.mem_cons_of_mem name hn)
  · exact modifyServer_hasServers

theorem replaceOtherServers_hasServers {c : PropagationChannel} {now : Date} :
    Triple (HasServers names) (replaceOtherServers replaceOthers (some c) now)
      (fun _ => HasServers names) E := by
  apply Triple.ite
  · intro _
    apply raisePy_bind_ok (a := c) rfl
    apply assign_triple
    intro w h name hn
    have hm := h name hn
    simp only [Table.contains,replacePropagationChannelDiscoveryServers,Table.get?_map,
      Option.isSome_map] at hm ⊢
    exact hm
  · exact fun _ => .skip

theorem setServer_none {w₀ : World} {name : Id} : Keeps (· = w₀) (setServer none range name) :=
  .get fun _ => raisePy_bind_keeps fun _ _ => refused (fun _ h => h) nofun

theorem setServers_synced {cn : String} {now : Date} : SyncsIf env
      (fun net => (Operation.setServersPropagationChannelAndDiscoveryDateRange names cn range
        replaceOthers now).announced net)
      (setServersPropagationChannelAndDiscoveryDateRange names cn range replaceOthers now) := by
  apply Triple.get
  rintro w₀ ⟨h₀,ha⟩
  have hk : ∀ w, w = w₀ → Synced env w := fun _ hw => hw ▸ h₀
  refine raisePy_bind (fun _ hl => ?_) fun _ => hk
  rw [pyAssert_eq_ok_iff] at hl
  cases hc : w₀.net.getPropagationChannelByName cn with
  | none =>
    have hs : Keeps (· = w₀) (replaceOtherServers replaceOthers none now) := by
      apply Triple.ite
      · exact fun _ => refused (fun _ h => h) nofun
      · exact fun _ => keeps_pure
    have hlo : Keeps (· = w₀) (names.forM (setServer none range)) :=
      .forM (I := fun _ => (· = w₀)) (fun _ _ => setServer_none) names
    refine .seq (hs.conseq (fun _ h => h) (fun _ _ h => h) fun _ => hk) ?_
    refine .seq (hlo.conseq (fun _ h => h) (fun _ _ h => h) fun _ => hk) ?_
    exact assign_triple fun _ _ => synced_of_flag rfl
  | some c =>
    have hall : ∀ name ∈ names, range.isSome = true ∧ w₀.net.servers.contains name = true := by
      simpa [Operation.announced,hl,hc] using ha
    apply Triple.seq (Q := HasServers names)
    · refine replaceOtherServers_hasServers.weaken_pre ?_
      rintro _ rfl
      exact fun name hn => (hall name hn).2
    apply Triple.seq (Q := HasServers [])
    · cases range with
      | some range =>
        exact .forM (I := HasServers) (setServer_hasServers c range) names
      | none =>
        -- without dates the call is announced only if there are no servers
        have hnil : names = [] := List.eq_nil_iff_forall_not_mem.mpr fun name hn => by
          cases (hall name hn).1
        rw [hnil]
        exact .skip
    · exact assign_triple fun _ _ => synced_of_flag rfl

theorem meekCanBeSetUp_of_meekHost {net : Network} {host : Host}
    (h : meekHost net serverId = .ok host) : meekCanBeSetUp net serverId = true := by
  obtain ⟨s,hs,h⟩ := bind_eq_ok_iff.mp h
  obtain ⟨host',hh,h⟩ := bind_eq_ok_iff.mp h
  obtain ⟨_,hp,h⟩ := bind_eq_ok_iff.mp h
  rw [lookup_eq_ok_iff,← Table.get?_eq_some_iff] at hs hh
  rw [pyAssert_eq_ok_iff] at hp
  cases hc : s.capabilities with
  | none =>
    rw [hc] at h
    cases h
  | some capabilities => simp [meekCanBeSetUp,hs,hh,hp,hc]

theorem removeHost_synced {hostId : Id} :
    SyncsIf env (fun net => !net.isLocked || !net.hosts.contains hostId) (removeHost hostId) := by
  apply Triple.get
  rintro w₀ ⟨h₀,ha⟩
  refine raisePy_bind (fun _ hl => ?_) fun _ w hw => hw ▸ h₀
  rw [pyAssert_eq_ok_iff] at hl
  refine refused (fun w hw => hw ▸ h₀) fun host hh => ?_
  rw [lookup_eq_ok_iff,← Table.get?_eq_some_iff] at hh
  simp [hl,Table.contains,hh] at ha

/-- An announced operation keeps the flag right. -/
theorem perform_synced (op : Operation) : SyncsIf env (op.announced ·) (op.perform env) := by
  have hwe : ∀ {x : Script Unit}, Keeps (Synced env) x → SyncsIf env (op.announced ·) x :=
    fun h => h.weaken_pre fun _ hw => hw.1
  have hm : ∀ {net : Network} {serverId : Id} {host : Host},
      meekHost net serverId = .ok host → (!meekCanBeSetUp net serverId) = false := fun h => by
    rw [meekCanBeSetUp_of_meekHost h]
    rfl
  cases op with
  | importSponsor => exact refused_synced fun _ _ h => (importSponsor_eq_ok h).1
  | importHost => exact refused_synced fun _ _ h => (importHost_eq_ok h).1
  | importServer => exact refused_synced fun _ _ h => (importServer_eq_ok h).1
  | setSponsorHomePage => exact hwe (addHomePage_announces _ _ _ _ _).synced
  | setSponsorMobileHomePage => exact hwe (addHomePage_announces _ _ _ _ _).synced
  | removeSponsorHomePage => exact hwe (removeSponsorHomePage_announces _ _ _ _).synced
  | setSponsorPageViewRegex => exact hwe (addRegex_announces _ _ _ _ _).synced
  | setSponsorHttpsRequestRegex => exact hwe (addRegex_announces _ _ _ _ _).synced
  | removeSponsorPageViewRegex => exact removeRegex_synced
  | removeSponsorHttpsRequestRegex => exact removeRegex_synced
  | setSponsorOverrideDataSponsorId =>
    exact hwe (setSponsorOverrideDataSponsorId_announces _ _).synced
  | setServersPropagationChannelAndDiscoveryDateRange => exact setServers_synced
  | addClientVersion => exact hwe (addClientVersion_announces _ _).synced
  | addSpeedTestUrl => exact hwe (addSpeedTestUrl_announces _).synced
  | setupFrontingForServer => exact refused_synced fun _ _ => hm
  | setupUnfrontedMeekForServer => exact refused_synced fun _ _ => hm
  | removeHost => exact removeHost_synced
  | deploy => exact hwe deploy_synced

end Operations

/-! ### Runs -/

def AnnouncedIn (w : World) (op : Operation) : Prop :=
  w.net.deployDataRequiredForAll = true ∨ op.announced w.net = true

theorem Synced.operationStep {env : Outside} {w w' : World} {op : Operation}
    (h : Synced env w) (hf : AnnouncedIn w op) (hs : operationStep env w op = some w') :
    Synced env w' := by
  have ht : Triple (· = w) (op.perform env) (fun _ => Synced env) (fun _ => Synced env) := by
    rcases hf with hfl | ha
    · by_cases hop : op = .deploy
      · subst hop
        exact deploy_synced.weaken_pre fun _ hw => hw ▸ h
      · refine (perform_keeps_flag hop).conseq ?_ ?_ ?_
        · exact fun _ hw => hw ▸ hfl
        · exact fun _ _ => synced_of_flag
        · exact fun _ _ => synced_of_flag
    · exact (perform_synced op).weaken_pre fun _ hw => hw ▸ ⟨h,ha⟩
  unfold Ops.operationStep at hs
  cases hx : op.perform env w with
  | ok _ w₁ =>
    rw [hx] at hs
    cases hs
    exact ht.of_ok rfl hx
  | error _ w₁ =>
    rw [hx] at hs
    cases hs
    exact ht.of_error rfl hx

/-- In every run whose operations are announced or find the flag set, the flag is right in
every state. -/
theorem data_flag_complete (env : Outside) {w w' : World} {ops : List Operation}
    (h : Synced env w) (hops : Runs.Along (operationStep env) AnnouncedIn w ops)
    (hrun : Runs.run (operationStep env) w ops = some w') : Synced env w' :=
  Runs.run_invariant_along (fun _ _ _ hs hf hst => hs.operationStep hf hst) h hops hrun

/-! ### One host and one regex -/

def regexNetwork : Network :=
  { Network.init with
    isLocked := true
    hosts := (Table.empty _).add (plainHost "H" false)
    sponsors := (Table.empty _).add
      { newSponsor "S" "sponsor" with pageViewRegexes := [⟨"a", "b", []⟩] } }

def regexWorld : World where
  net := regexNetwork
  saved := regexNetwork
  sent := fun _ => (dataToDeploy regexNetwork 0 (plainHost "H" false)).toOption
  done := []
  calls := 0

theorem regexWorld_synced : Synced noCallRaises regexWorld := by
  intro _ host hh
  have hh' : host ∈ [plainHost "H" false] := hh
  rw [List.mem_singleton.mp hh']
  exact ⟨_,rfl,rfl⟩

theorem data_flag_complete_after_set_regex :
    ∃ w', Runs.run (operationStep noCallRaises) regexWorld
        [.setSponsorPageViewRegex "sponsor" "c" "d" 0, .deploy] = some w' ∧
      w'.net.deployDataRequiredForAll = false ∧ Synced noCallRaises w' := by
  refine ⟨_,(Option.some_get rfl).symm,rfl,?_⟩
  refine data_flag_complete noCallRaises regexWorld_synced ?_ (Option.some_get _).symm
  exact ⟨.inr rfl,fun _ _ => ⟨.inr rfl,fun _ _ => trivial⟩⟩

def HostData.pageViewRegexes : HostData → List (List SponsorRegex)
  | .legacy copy => copy.sponsors.records.map Sponsor.pageViewRegexes
  | .tcs data => data.sponsors.records.map Sponsor.pageViewRegexes

/-- The regex is gone from the database when the operation raises, and the host still has it. -/
theorem removed_regex_not_flagged :
    Synced noCallRaises regexWorld ∧ regexWorld.net.deployDataRequiredForAll = false ∧
    ∃ w', Runs.run (operationStep noCallRaises) regexWorld
        [.removeSponsorPageViewRegex "sponsor" "a"] = some w' ∧
      w'.net.deployDataRequiredForAll = false ∧ ¬ Synced noCallRaises w' := by
  refine ⟨regexWorld_synced,rfl,_,rfl,rfl,fun hs => ?_⟩
  obtain ⟨data,hd,hl⟩ := hs rfl (plainHost "H" false) (.head _)
  cases Except.ok.inj hd
  exact absurd (congrArg (Option.map HostData.pageViewRegexes) hl) (by decide)

end Psiphon.Ops
