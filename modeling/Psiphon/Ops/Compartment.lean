import Mathlib.Data.List.Sort
import Psiphon.Ops.Network

/-!
# Compartmentalized data

What `deploy_data_to_hosts` sends to a host. The discovery date is a default argument, so it is the
time at which the module was imported (`importedAt`).
-/

namespace Psiphon.Ops

structure TcsData where
  clientVersions : Platform → List ClientVersion
  hosts : Table Host.id
  servers : List Server
  sponsors : Table Sponsor.id
  defaultSponsorId : Option Id

inductive HostData where
  | legacy (copy : Network)
  | tcs (data : TcsData)

def HostData.servers : HostData → List Server
  | legacy copy => copy.servers.records
  | tcs data => data.servers

/-! ### The copies of the records -/

def copyPropagationChannel (channel : PropagationChannel) : PropagationChannel := ⟨channel.id, ""⟩

def copyHost (host : Host) : Host where
  id := host.id
  isTCS := host.isTCS
  provider := ""
  providerId := ""
  region := host.region
  meekServerPort := host.meekServerPort
  meekServerObfuscatedKey := host.meekServerObfuscatedKey
  meekServerFrontingDomain := host.meekServerFrontingDomain
  meekServerFrontingHost := host.meekServerFrontingHost
  alternateMeekServerFrontingHosts := []
  meekCookieEncryptionPublicKey := host.meekCookieEncryptionPublicKey
  meekCookieEncryptionPrivateKey := some ""

def copyHomePages (pages : HomePages) : HomePages :=
  ⟨pages.entries.map fun e => ⟨e.1, e.2.map fun page => ⟨page.region, page.url, []⟩⟩, by
    have hkeys : (pages.entries.map fun e =>
        (⟨e.1, e.2.map fun page => ⟨page.region, page.url, []⟩⟩ :
          Sigma fun _ : String => List SponsorHomePage)).keys = pages.entries.keys := by
      simp [List.keys]
    have hnodup := pages.nodupKeys
    unfold List.NodupKeys at hnodup ⊢
    rwa [hkeys]⟩

def copyRegexes (regexes : List SponsorRegex) : List SponsorRegex :=
  regexes.map fun r => ⟨r.regex, r.replace, []⟩

def overrideMissing (net : Network) (sponsor : Sponsor) : Bool :=
  textTruthy sponsor.useDataFromSponsorId &&
    !net.sponsors.contains (textOrEmpty sponsor.useDataFromSponsorId)

def sponsorData (net : Network) (sponsor : Sponsor) : Sponsor :=
  if textTruthy sponsor.useDataFromSponsorId then
    (net.sponsors.get? (textOrEmpty sponsor.useDataFromSponsorId)).getD sponsor
  else sponsor

def copySponsor (net : Network) (sponsor : Sponsor) : Sponsor where
  id := sponsor.id
  name := ""
  homePages := copyHomePages (sponsorData net sponsor).homePages
  mobileHomePages := copyHomePages (sponsorData net sponsor).mobileHomePages
  campaigns := []
  pageViewRegexes := copyRegexes (sponsorData net sponsor).pageViewRegexes
  httpsRequestRegexes := copyRegexes (sponsorData net sponsor).httpsRequestRegexes
  useDataFromSponsorId := none

/-- The sponsors of a copy; a missing override raises. -/
def copySponsors (net : Network) : Py (Table Sponsor.id) :=
  if net.sponsors.records.any (overrideMissing net) then .error .keyError
  else .ok (net.sponsors.map (copySponsor net) fun _ => rfl)

def copyClientVersions (net : Network) (platform : Platform) : List ClientVersion :=
  (net.clientVersions platform).map fun clientVersion => ⟨clientVersion.version, ""⟩

/-- The server for TCS hosts: some ports are stored as numbers and some as text. -/
def tcsServer (server : Server) : Py Server := do
  let sshObfuscatedPort ← match server.sshObfuscatedPort with
    | none => .error .typeError
    | some port => port.toInt
  return { server with
    sshPort := some (.str (match server.sshPort with
      | none => "None"
      | some port => port.toStr))
    sshObfuscatedPort := some (.int sshObfuscatedPort) }

/-! ### The data for a host -/

def Server.unexpired (date : Date) (server : Server) : Bool :=
  match server.discoveryDateRange with
  | none => false
  | some (_, last) => decide (last > date)

/-- The server's record is part of the data for the legacy host `hostId`. -/
def legacyKeeps (hostId : Id) (discoveryDate : Date) (server : Server) : Bool :=
  server.hostId == hostId || server.unexpired discoveryDate

def compartmentalizeDataForTcs (net : Network) (discoveryDate : Date) : Py HostData := do
  let servers ← (net.servers.records.filter (Server.unexpired discoveryDate)).mapM tcsServer
  let sponsors ← copySponsors net
  return .tcs {
    clientVersions := copyClientVersions net
    hosts := net.hosts.map copyHost fun _ => rfl
    servers := servers.insertionSort fun a b => a.hostId ≤ b.hostId
    sponsors := sponsors
    defaultSponsorId := net.defaultSponsorId }

/-- `__compartmentalize_data_for_host`; `none` is the default discovery date. -/
def compartmentalizeDataForHost (net : Network) (importedAt : Date) (hostId : Id) (isTCS : Bool)
    (discoveryDate : Option Date) : Py HostData :=
  let date := discoveryDate.getD importedAt
  if isTCS then compartmentalizeDataForTcs net date
  else do
    let sponsors ← copySponsors net
    return .legacy { Network.init with
      propagationChannels := net.propagationChannels.map copyPropagationChannel fun _ => rfl
      hosts := net.hosts.map copyHost fun _ => rfl
      servers := net.servers.filter (legacyKeeps hostId date)
      sponsors := sponsors
      clientVersions := copyClientVersions net
      speedTestUrls := net.speedTestUrls
      defaultSponsorId := net.defaultSponsorId }

/-- The data generated for a host, from its id and kind alone. -/
def dataToDeploy (net : Network) (importedAt : Date) (host : Host) : Py HostData :=
  compartmentalizeDataForHost net importedAt host.id host.isTCS none

/-- The data for one host, given the TCS data if there is any. -/
def hostDataToDeploy (dataGenerator : Id → Bool → Py HostData) (tcsData : Option HostData)
    (host : Host) : Py (Host × HostData) :=
  match host.isTCS, tcsData with
  | true, some data => .ok (host, data)
  | _, _ => (dataGenerator host.id host.isTCS).map (host, ·)

/-- The data for TCS hosts, if there is one. -/
def generateTcsData (hosts : List Host) (dataGenerator : Id → Bool → Py HostData) :
    Py (Option HostData) :=
  match hosts.find? Host.isTCS with
  | none => .ok none
  | some host => (dataGenerator host.id true).map some

/-- `deploy_data_to_hosts`: what each host is sent. TCS data is generated once. -/
def deployDataToHosts (hosts : List Host) (dataGenerator : Id → Bool → Py HostData) :
    Py (List (Host × HostData)) := do
  hosts.mapM (hostDataToDeploy dataGenerator (← generateTcsData hosts dataGenerator))

theorem hostDataToDeploy_eq_ok {net : Network} {ia : Date} {td : Option HostData}
    (ht : ∀ d ∈ td, compartmentalizeDataForTcs net ia = .ok d) {host : Host}
    {pair : Host × HostData} (h : hostDataToDeploy (fun hostId itc =>
      compartmentalizeDataForHost net ia hostId itc none) td host = .ok pair) :
    pair.1 = host ∧ dataToDeploy net ia host = .ok pair.2 := by
  have hg : ∀ {r}, Except.map (host, ·) (dataToDeploy net ia host) = .ok r →
      r.1 = host ∧ dataToDeploy net ia host = .ok r.2 := by
    intro r hr
    cases hd : dataToDeploy net ia host with
    | error e => rw [hd] at hr; cases hr
    | ok d => rw [hd] at hr; cases hr; exact ⟨rfl,rfl⟩
  unfold hostDataToDeploy at h
  cases hk : host.isTCS with
  | false =>
    rw [hk] at h
    apply hg
    rw [dataToDeploy,hk]
    exact h
  | true =>
    cases td with
    | none =>
      rw [hk] at h
      apply hg
      rw [dataToDeploy,hk]
      exact h
    | some d =>
      rw [hk] at h
      cases h
      refine ⟨rfl,?_⟩
      rw [dataToDeploy,hk]
      exact ht d rfl

theorem generateTcsData_eq_ok {net : Network} {ia : Date} {hosts : List Host} {td : Option HostData}
    (h : generateTcsData hosts (fun hostId itc =>
      compartmentalizeDataForHost net ia hostId itc none) = .ok td) :
    ∀ data ∈ td, compartmentalizeDataForTcs net ia = .ok data := by
  unfold generateTcsData at h
  cases hf : hosts.find? Host.isTCS with
  | none =>
    rw [hf] at h
    cases h
    exact nofun
  | some host =>
    rw [hf] at h
    change (compartmentalizeDataForTcs net ia).map some = .ok td at h
    cases hd : compartmentalizeDataForTcs net ia with
    | error e =>
      rw [hd] at h
      cases h
    | ok data =>
      rw [hd] at h
      cases h
      intro d hm
      exact congrArg Except.ok (Option.some.inj hm)

/-- Generating the TCS data once makes no difference. -/
theorem dataToDeploy_of_mem {net : Network} {ia : Date} {hosts : List Host}
    {sent : List (Host × HostData)} (h : deployDataToHosts hosts
      (fun hostId itc => compartmentalizeDataForHost net ia hostId itc none) = .ok sent)
    {host : Host} {data : HostData} (hm : (host, data) ∈ sent) :
    dataToDeploy net ia host = .ok data := by
  unfold deployDataToHosts at h
  obtain ⟨tcsData,ht,hmap⟩ := bind_eq_ok_iff.mp h
  obtain ⟨host',_,ho⟩ := exists_of_mem_mapM hmap hm
  obtain ⟨rfl,hd⟩ := hostDataToDeploy_eq_ok (generateTcsData_eq_ok ht) ho
  exact hd

end Psiphon.Ops
