import Mathlib.Order.Interval.Set.Defs
import Psiphon.Ops.Mutators
import Psiphon.Ops.Synced

/-!
# Adding servers

`add_servers` of `psi_ops.py` sets up the servers that were launched, saves the database after each
of them, and deploys at the end.
-/

namespace Psiphon.Ops

open Hoare

/-! ### New servers -/

/-- How meek is set up on a new server: up to 0.33, up to 0.66, and above. -/
inductive MeekMode where
  | http
  | https
  | sessionTicket
  deriving DecidableEq, Repr

/-- The ports from 1 to 1022, without those of some services. -/
def obfuscatedPorts : List ℕ :=
  (List.range' 1 1022).filter fun port => port ∉ [15, 25, 80, 135, 136, 137, 138, 139, 515, 593]

/-- The random choices for a new server, and what is generated when its host is installed. -/
structure Draws where
  osshPort : ℕ
  osshPort_mem : osshPort ∈ [53, 443]
  /-- A discovery server that offers unfronted meek, and no obfuscated SSH. -/
  discoveryMeek : Bool
  obfuscatedPort : ℕ
  obfuscatedPort_mem : obfuscatedPort ∈ obfuscatedPorts
  meekMode : MeekMode
  meekKeys : MeekKeys
  webServerPort : ℕ
  webServerPort_mem : webServerPort ∈ Set.Ico 8000 9000
  serverId : Id
  webServerSecret : String
  webServerCertificate : String
  webServerPrivateKey : String
  sshUsername : String
  sshPassword : String
  sshHostKey : String
  sshObfuscatedKey : String

structure Launched where
  host : Host
  ipAddress : String
  draws : Draws

def obfuscatedCapabilities : Capabilities
  | .handshake | .vpn | .ssh => false
  | capability => serverCapabilities capability

/-- The capabilities of a new server and its port for obfuscated SSH, before meek is set up. Every
other propagation server is obfuscated. -/
def newCapabilities (given : Option Capabilities) (isDiscovery : Bool) (newServerNumber : ℕ)
    (draws : Draws) : Capabilities × ℕ :=
  match given with
  | some capabilities => (capabilities, draws.osshPort)
  | none =>
    if isDiscovery then
      if draws.discoveryMeek then
        (Function.update (Function.update obfuscatedCapabilities .ossh false) .unfrontedMeek true,
          draws.osshPort)
      else (obfuscatedCapabilities, draws.osshPort)
    else if newServerNumber % 2 = 1 then (obfuscatedCapabilities, draws.obfuscatedPort)
    else (Function.update serverCapabilities .unfrontedMeek true, draws.osshPort)

structure Prepared where
  host : Host
  capabilities : Capabilities
  osshPort : ℕ

/-- All and only TCS servers support SSH API requests, and none of them VPN. -/
def hostCapabilities (isTCS : Bool) (capabilities : Capabilities) : Capabilities
  | .sshApiRequests => isTCS
  | .handshake => capabilities .handshake && !isTCS
  | .vpn => capabilities .vpn && !isTCS
  | capability => capabilities capability

def newServer (launched : Launched) (channel : PropagationChannel) (range : Option (Date × Date))
    (prepared : Prepared) : Server where
  id := launched.draws.serverId
  hostId := prepared.host.id
  ipAddress := launched.ipAddress
  egressIpAddress := launched.ipAddress
  internalIpAddress := launched.ipAddress
  propagationChannelId := channel.id
  isEmbedded := range.isNone
  isPermanent := false
  discoveryDateRange := range.map copyDateRange
  capabilities := some (hostCapabilities prepared.host.isTCS prepared.capabilities)
  webServerPort := toString launched.draws.webServerPort
  webServerSecret := some launched.draws.webServerSecret
  webServerCertificate := some launched.draws.webServerCertificate
  webServerPrivateKey := some launched.draws.webServerPrivateKey
  sshPort := some (.str "22")
  sshUsername := some launched.draws.sshUsername
  sshPassword := some launched.draws.sshPassword
  sshHostKey := some launched.draws.sshHostKey
  sshObfuscatedPort := some (.int prepared.osshPort)
  sshObfuscatedKey := some launched.draws.sshObfuscatedKey
  alternateSshObfuscatedPorts := []

def withSshApiRequests (isTCS : Bool) (server : Server) : Server :=
  if isTCS then server.setCapabilities fun capabilities =>
    Function.update capabilities .sshApiRequests true
  else server

/-! ### The servers that are replaced -/

/-- The server is unembedded when new propagation servers are added. -/
def isReplaced (channelId : Id) (server : Server) : Bool :=
  server.propagationChannelId == channelId && server.isEmbedded && !server.isPermanent

def unembeddedServer (channelId : Id) (server : Server) : Server :=
  if isReplaced channelId server then { server with isEmbedded := false } else server

theorem id_unembeddedServer (channelId : Id) (s : Server) :
    Server.id (unembeddedServer channelId s) = Server.id s := by
  unfold unembeddedServer
  split <;> rfl

def Network.unembed (channelId : Id) (net : Network) : Network :=
  { net with servers := net.servers.map _ (id_unembeddedServer channelId) }

/-- The loop over the old servers. It reads the channel for each of them, so a missing channel
raises only if there are servers. -/
def unembedServers (channel : Option PropagationChannel) : Script Unit := do
  let w ← get
  if w.net.servers.records.isEmpty then pure ()
  else do
    let channel ← raisePy (attributeOf channel)
    assign (.unembed channel.id)

def replaceEarlierServers (channel : Option PropagationChannel)
    (isEmbeddedServer replaceOthers : Bool) (now : Date) : Script Unit :=
  if replaceOthers then
    if isEmbeddedServer then unembedServers channel else replaceOtherServers true channel now
  else pure ()

/-! ### Adding servers -/

/-- The targets of a sponsor's campaigns for a channel are added to a set of targets. -/
def addChannelTargets (channelId : Id) (targets : List Target) (sponsor : Sponsor) : List Target :=
  sponsor.campaigns.foldl (fun targets campaign =>
    if campaign.propagationChannelId = channelId then
      targets.insert (campaign.propagationChannelId, sponsor.id)
    else targets) targets

/-- The builds of the channel's campaigns are flagged. The channel is read for each campaign. -/
def markCampaigns (channel : Option PropagationChannel) (isEmbeddedServer : Bool) : Script Unit :=
  if isEmbeddedServer then do
    let w ← get
    if w.net.sponsors.records.all fun sponsor => sponsor.campaigns.isEmpty then pure ()
    else do
      let channel ← raisePy (attributeOf channel)
      assign fun net =>
        { net with
          deployBuildsRequiredForCampaigns := fun platform =>
            if platform ∈ clientPlatforms then
              net.sponsors.records.foldl (addChannelTargets channel.id)
                (net.deployBuildsRequiredForCampaigns platform)
            else net.deployBuildsRequiredForCampaigns platform }
  else pure ()

section

variable (env : Outside)

/-- `setup_meek_parameters_for_host`, for a host that is not in the database yet. -/
def setupMeekParametersForNewHost (host : Host) (port : ℕ) (keys : MeekKeys) : Script Host := do
  raisePy (pyAssert host.meekServerPort.isNone)
  let obfuscatedKey :=
    if textTruthy host.meekServerObfuscatedKey then host.meekServerObfuscatedKey
    else some keys.obfuscatedKey
  let host := { host.setMeekPort port with meekServerObfuscatedKey := obfuscatedKey }
  if textTruthy host.meekCookieEncryptionPublicKey ∧
      textTruthy host.meekCookieEncryptionPrivateKey then pure host
  else do
    call env .generateKeypair
    pure (host.setCookieKeys keys.cookiePublicKey keys.cookiePrivateKey)

/-- A server that offers unfronted meek has its host set up for it. -/
def prepareMeek (draws : Draws) (prepared : Prepared) : Script Prepared :=
  if prepared.capabilities .unfrontedMeek then
    match draws.meekMode with
    | .http => do
      let host ← setupMeekParametersForNewHost env prepared.host 80 draws.meekKeys
      pure { prepared with host := host }
    | .https => do
      let host ← setupMeekParametersForNewHost env prepared.host 443 draws.meekKeys
      pure { prepared with host := host, osshPort := 53 }
    | .sessionTicket => do
      raisePy (pyAssert prepared.host.isTCS)
      let host ← setupMeekParametersForNewHost env prepared.host 443 draws.meekKeys
      pure
        { host := host
          capabilities := Function.update
            (Function.update prepared.capabilities .unfrontedMeek false)
            .unfrontedMeekSessionTicket true
          osshPort := 53 }
  else pure prepared

/-- `setup_server`, for the one server of a new host. -/
def setupServer (host : Host) (server : Server) : Script Unit := do
  call env (.installHost host.id)
  call env (.changeCrontab host.id)
  let w ← get
  raisePy (pyAssert (!w.net.hosts.contains host.id))
  assign fun net => { net with hosts := net.hosts.add host }
  let w ← get
  raisePy (pyAssert (!w.net.servers.contains server.id))
  assign fun net => { net with servers := net.servers.add (withSshApiRequests host.isTCS server) }
  call env (.hostImplementation host.id)
  call env (.geoipAutoupdates host.id)
  let w ← get
  let data ← raisePy (hostDataGenerator env w.net host.id host.isTCS)
  sendHostData env host.id data
  call env (.routes host.id)
  call env (.testServer server.id)

/-- One round of the loop over the launched servers; one that could not be launched is passed over.
-/
def addServer (channel : Option PropagationChannel) (range : Option (Date × Date))
    (given : Option Capabilities) : Option Launched × ℕ → Script Unit
  | (none, _) => pure ()
  | (some launched, newServerNumber) => do
    let capabilities := newCapabilities given range.isSome newServerNumber launched.draws
    let prepared ← prepareMeek env launched.draws ⟨launched.host, capabilities.1, capabilities.2⟩
    let channel ← raisePy (attributeOf channel)
    setupServer env prepared.host (newServer launched channel range prepared)
    call env (.shutdown prepared.host.id)
    save

def addServers (serverInfos : List (Option Launched)) (channelName : String)
    (range : Option (Date × Date)) (replaceOthers : Bool) (given : Option Capabilities)
    (now : Date) : Script Unit := do
  let w ← get
  raisePy (pyAssert w.net.isLocked)
  let channel := w.net.getPropagationChannelByName channelName
  replaceEarlierServers channel range.isNone replaceOthers now
  assign fun net =>
    { net with deployDataRequiredForAll := true, deployStatsConfigRequired := true }
  markCampaigns channel range.isNone
  serverInfos.zipIdx.forM (addServer env channel range given)
  deploy env

end

/-! ### What adding a server can change -/

section Adding

variable {env : Outside}

section Frame

variable {R : Network → Network → Prop} {E : Failure → World → Prop}

theorem call_frame (hE : ∀ e w, R w.net w.saved → E e w) {work : Work} :
    Triple (fun w => R w.net w.saved) (call env work) (fun _ w => R w.net w.saved) E :=
  call_triple (fun _ h => h) fun w h => hE _ { w with calls := w.calls + 1 } h

theorem sendHostData_frame (hE : ∀ e w, R w.net w.saved → E e w) {hostId : Id} {data : HostData} :
    Triple (fun w => R w.net w.saved) (sendHostData env hostId data)
      (fun _ w => R w.net w.saved) E := by
  intro w h
  by_cases hc : env.succeeds w.calls
  · simpa only [sendHostData,hc,if_true] using h
  · simpa [sendHostData,hc] using hE _ { w with calls := w.calls + 1 } h

theorem setupMeekParametersForNewHost_frame (hE : ∀ e w, R w.net w.saved → E e w) {host : Host}
    {port : ℕ} {keys : MeekKeys} :
    Triple (fun w => R w.net w.saved) (setupMeekParametersForNewHost env host port keys)
      (fun _ w => R w.net w.saved) E := by
  refine raisePy_bind (fun _ _ => ?_) fun _ w h => hE _ w h
  apply Triple.unless
  exact .bind (call_frame hE) fun _ => .skip

theorem prepareMeek_frame (hE : ∀ e w, R w.net w.saved → E e w) {d : Draws} {p : Prepared} :
    Triple (fun w => R w.net w.saved) (prepareMeek env d p) (fun _ w => R w.net w.saved) E := by
  have hs {port : ℕ} {keys : MeekKeys} {f : Host → Prepared} : Triple (fun w => R w.net w.saved) (do
          let host ← setupMeekParametersForNewHost env p.host port keys
          pure (f host))
        (fun _ w => R w.net w.saved) E :=
    .bind (setupMeekParametersForNewHost_frame hE) fun _ => .skip
  apply Triple.when
  cases d.meekMode with
  | http => exact hs
  | https => exact hs
  | sessionTicket => exact raisePy_bind (fun _ _ => hs) fun _ w h => hE _ w h

end Frame

/-- The property depends on the propagation channels and the servers only. -/
def OfServers (P : Network → Prop) : Prop :=
  ∀ ⦃net net' : Network⦄, P net → net'.propagationChannels = net.propagationChannels →
    net'.servers = net.servers → P net'

/-- A server that is new to the database. -/
structure IsNew (channelId : Id) (isEmbedded : Bool) (net : Network) (server : Server) : Prop where
  channel : server.propagationChannelId = channelId
  embedded : server.isEmbedded = isEmbedded
  notContained : net.servers.contains server.id = false

/-- The property comes to hold when a server is added. -/
def HoldsAfterAdding (channelId : Id) (isEmbedded : Bool) (P P' : Network → Prop) : Prop :=
  ∀ ⦃net server⦄, P net → IsNew channelId isEmbedded net server →
    P' { net with servers := net.servers.add server }

section Server

variable {P P' Q : Network → Prop} {channelId : Id} {isEmbedded : Bool}

/-- What is in the database, and what was saved, when a server could not be added. -/
def Unfinished (P P' Q : Network → Prop) (w : World) : Prop := (P w.net ∨ P' w.net) ∧ Q w.saved

theorem isNew_withSshApiRequests {net : Network} {s : Server} (itc : Bool)
    (h : IsNew channelId isEmbedded net s) :
    IsNew channelId isEmbedded net (withSshApiRequests itc s) := by
  cases itc with
  | false => exact h
  | true => exact ⟨h.channel,h.embedded,h.notContained⟩

theorem setupServer_triple (hP : OfServers P)
    (hadd : HoldsAfterAdding channelId isEmbedded P P') {host : Host} {server : Server}
    (hc : server.propagationChannelId = channelId) (he : server.isEmbedded = isEmbedded) :
    Triple (fun w => P w.net ∧ Q w.saved) (setupServer env host server)
      (fun _ w => P' w.net ∧ Q w.saved) (fun _ => Unfinished P P' Q) := by
  have hb : ∀ (e : Failure) (w : World), P w.net ∧ Q w.saved → Unfinished P P' Q w :=
    fun _ _ h => ⟨.inl h.1,h.2⟩
  have ha : ∀ (e : Failure) (w : World), P' w.net ∧ Q w.saved → Unfinished P P' Q w :=
    fun _ _ h => ⟨.inr h.1,h.2⟩
  apply Triple.seq (call_frame (R := fun net s => P net ∧ Q s) hb)
  apply Triple.seq (call_frame (R := fun net s => P net ∧ Q s) hb)
  apply Triple.get
  intro w₀ h₀
  apply raisePy_bind
  · intro _ _
    apply Triple.seq (Q := fun w => P w.net ∧ Q w.saved)
    · apply assign_triple
      rintro _ rfl
      exact ⟨hP h₀.1 rfl rfl,h₀.2⟩
    apply Triple.get
    intro w₁ h₁
    apply raisePy_bind
    · intro _ hn
      apply Triple.seq (Q := fun w => P' w.net ∧ Q w.saved)
      · apply assign_triple
        rintro _ rfl
        have hn := pyAssert_eq_ok_iff.mp hn
        exact ⟨hadd h₁.1 (isNew_withSshApiRequests host.isTCS ⟨hc,he,by simpa using hn⟩),h₁.2⟩
      apply Triple.seq (call_frame (R := fun net s => P' net ∧ Q s) ha)
      apply Triple.seq (call_frame (R := fun net s => P' net ∧ Q s) ha)
      apply Triple.get
      intro w₂ h₂
      apply raisePy_bind
      · intro data _
        refine Triple.weaken_pre (P := fun w => P' w.net ∧ Q w.saved) ?_ (by rintro _ rfl; exact h₂)
        apply Triple.seq (sendHostData_frame (R := fun net s => P' net ∧ Q s) ha)
        apply Triple.seq (call_frame (R := fun net s => P' net ∧ Q s) ha)
        exact call_frame (R := fun net s => P' net ∧ Q s) ha
      · rintro e _ rfl
        exact ha (.raised e) _ h₂
    · rintro e _ rfl
      exact hb (.raised e) _ h₁
  · rintro e _ rfl
    exact hb (.raised e) _ h₀

theorem addServer_triple (hP : OfServers P)
    {channel : PropagationChannel} {range : Option (Date × Date)}
    (ha : HoldsAfterAdding channel.id range.isNone P P') (hs : ∀ net, P' net → Q net)
    {given : Option Capabilities} {l : Launched} {nsn : ℕ} : Triple (fun w => P w.net ∧ Q w.saved)
      (addServer env (some channel) range given (some l, nsn))
      (fun _ w => P' w.net ∧ Q w.saved) (fun _ => Unfinished P P' Q) := by
  apply Triple.bind (prepareMeek_frame (R := fun net s => P net ∧ Q s) fun _ _ h => ⟨.inl h.1,h.2⟩)
  intro prepared
  apply raisePy_bind_ok (a := channel) rfl
  apply Triple.seq (setupServer_triple hP ha rfl rfl)
  apply Triple.seq (call_frame (R := fun net s => P' net ∧ Q s) fun _ _ h => ⟨.inr h.1,h.2⟩)
  exact save_triple fun _ h => ⟨h.1,hs _ h.1⟩

end Server

/-! ### Deploying -/

section Deploying

variable {P Q : Network → Prop}

theorem OfServers.of_sameData (hP : OfServers P) {net net' : Network} (h : SameData net net') :
    P net → P net' := fun hn => hP hn h.propagationChannels h.servers

theorem OfServers.framed (hP : OfServers P) (hPQ : ∀ net, P net → Q net) :
    Framed fun w : World => P w.net ∧ Q w.saved where
  called _ _ h := h
  saved h := ⟨h.1,hPQ _ h.1⟩
  assigned hd _ h := ⟨hP.of_sameData hd h.1,h.2⟩

theorem deployData_saves (hP : OfServers P) :
    Triple (fun w => w.net.deployDataRequiredForAll = true ∧ P w.net ∧ Q w.saved) (deployData env)
      (fun _ w => P w.net ∧ P w.saved) (fun _ w => P w.net ∧ Q w.saved) := by
  apply Triple.get
  rintro w₀ ⟨hf,h₀⟩
  apply Triple.ite
  · intro _
    apply raisePy_bind
    · intro tcsData _
      apply Triple.bind (Q := fun _ w => P w.net ∧ Q w.saved)
      · refine (Triple.foldlM (I := fun _ _ (w : World) => P w.net ∧ Q w.saved)
          (fun _ _ _ => deployDataToHost_frame fun _ _ _ h => h) _ _).weaken_pre ?_
        rintro _ rfl
        exact h₀
      intro ok
      apply Triple.seq (Q := fun w => P w.net ∧ Q w.saved)
      · apply Triple.branch
        · exact .modify fun _ h => h
        · exact .throw fun _ h => h
      apply Triple.seq (Q := fun w => P w.net)
      · exact assign_triple fun _ h => hP h.1 rfl rfl
      · exact save_triple fun _ h => ⟨h,h⟩
    · rintro e _ rfl
      exact h₀
  · exact fun ho => absurd hf ho

theorem deploy_keeps (hP : OfServers P) (hPQ : ∀ net, P net → Q net) :
    Keeps (fun w => P w.net ∧ Q w.saved) (deploy env) := by
  refine (hP.framed hPQ).deploy fun w h => ?_
  by_cases hf : w.net.deployDataRequiredForAll = true
  · exact (deployData_saves hP).conseq (fun _ hw => hw) (fun _ _ hw => ⟨hw.1,hPQ _ hw.2⟩)
      (fun _ _ hw => hw) w ⟨hf,h⟩
  · rw [deployData,get_bind,if_neg hf]
    exact h

/-- A deployment that comes to its end has saved the database, if the flag for the data was set. -/
theorem deploy_saves (hP : OfServers P) :
    Triple (fun w => w.net.deployDataRequiredForAll = true ∧ P w.net) (deploy env)
      (fun _ w => P w.saved) (fun _ _ => True) := by
  have hf : Framed fun w => w.net.deployDataRequiredForAll = true ∧ P w.net :=
    ⟨fun _ _ h => h,fun h => h, fun hd hfl h => ⟨hfl.trans h.1,hP.of_sameData hd h.2⟩⟩
  have hs : Framed fun w => P w.net ∧ P w.saved := hP.framed fun _ h => h
  apply Triple.get
  intro w₀ h₀
  refine raisePy_bind (fun _ _ => ?_) fun _ _ _ => trivial
  refine .weaken_pre ?_ (P := fun w => w.net.deployDataRequiredForAll = true ∧ P w.net)
    (by rintro _ rfl; exact h₀)
  apply Triple.seq (hf.deployImplementation.weaken_error fun _ _ _ => trivial)
  apply Triple.seq (hf.deployBuilds.weaken_error fun _ _ _ => trivial)
  apply Triple.seq (((deployData_saves (Q := fun _ => True) hP).weaken_pre
    fun _ h => ⟨h.1,h.2,trivial⟩).weaken_error fun _ _ _ => trivial)
  exact hs.deployRest.conseq (fun _ h => h) (fun _ _ h => h.2) fun _ _ _ => trivial

end Deploying

/-! ### Adding servers -/

section AddServers

variable {P₀ P₁ Q : Network → Prop} {Post : Unit → World → Prop} {E : Failure → World → Prop}
  {serverInfos : List (Option Launched)} {channelName : String} {channel : PropagationChannel}
  {range : Option (Date × Date)} {replaceOthers : Bool} {given : Option Capabilities} {now : Date}

theorem markCampaigns_triple {ies : Bool} {I : World → Prop}
    (hI : ∀ w b, I w → I { w with net := { w.net with deployBuildsRequiredForCampaigns := b } }) :
    Triple I (markCampaigns (some channel) ies) (fun _ => I) E := by
  apply Triple.when
  apply Triple.get
  intro w₀ h₀
  apply Triple.branch
  · apply Triple.pure
    rintro _ rfl
    exact h₀
  · apply raisePy_bind_ok (a := channel) rfl
    apply assign_triple
    rintro _ rfl
    exact hI _ _ h₀

/-- The flags are set when the loop over the new servers begins. -/
theorem addServers_triple
    (hc : ∀ net, P₀ net → net.getPropagationChannelByName channelName = some channel)
    (hE : ∀ e w, P₀ w.net ∧ Q w.saved → E e w) (hP₁ : OfServers P₁)
    (hr : Triple (fun w => P₀ w.net ∧ Q w.saved)
      (replaceEarlierServers (some channel) range.isNone replaceOthers now)
      (fun _ w => P₁ w.net ∧ Q w.saved) E)
    (hrest : Triple
      (fun w => w.net.deployDataRequiredForAll = true ∧ P₁ w.net ∧ Q w.saved)
      (do
        serverInfos.zipIdx.forM (addServer env (some channel) range given)
        deploy env) Post E) :
    Triple (fun w => P₀ w.net ∧ Q w.saved)
      (addServers env serverInfos channelName range replaceOthers given now) Post E := by
  apply Triple.get
  intro w₀ h₀
  refine raisePy_bind (fun _ _ => ?_) (by rintro e _ rfl; exact hE _ _ h₀)
  simp only [hc _ h₀.1]
  apply Triple.seq (hr.weaken_pre (by rintro _ rfl; exact h₀))
  apply Triple.seq (Q := fun w => w.net.deployDataRequiredForAll = true ∧ P₁ w.net ∧ Q w.saved)
  · exact assign_triple fun _ h => ⟨rfl,hP₁ h.1 rfl rfl,h.2⟩
  exact .bind (markCampaigns_triple fun _ _ h => ⟨h.1,hP₁ h.2.1 rfl rfl,h.2.2⟩) fun _ => hrest

end AddServers

end Adding

end Psiphon.Ops
