import Psiphon.Lib.Hoare
import Psiphon.Ops.Compartment

/-!
# Deploying what is flagged

`deploy` of `psi_ops.py`, one definition a phase. Whatever a phase assigned before it raised stays
assigned.
-/

namespace Psiphon.Ops

/-- A call to the outside world, with what it is made for. A campaign is given by its sponsor
and its place in the sponsor's list. -/
inductive Work where
  /-- `deploy_implementation_to_hosts`. -/
  | implementation (hosts : List Id)
  /-- `update_static_site_content` for a bucket that the build phase has just named. -/
  | newSite (sponsor : Id) (campaign : ℕ) (bucket : String)
  | build (platform : Platform) (sponsor : Id) (campaign : ℕ)
  /-- `update_s3_download_in_buckets`. -/
  | upload (platform : Platform) (sponsor : Id) (campaign : ℕ)
  | tweet (sponsor : Id) (campaign : ℕ)
  /-- `deploy_data_to_hosts`. -/
  | data
  /-- `push_stats_config`. -/
  | stats
  /-- `push_email_config`. -/
  | email
  | removeFromProvider (host : Id)
  /-- `website_generator.generate`. -/
  | generateWebsite
  /-- `update_static_site_content` in the website phase. -/
  | site (sponsor : Id) (campaign : ℕ) (bucket : String)
  /-- `pave_OSLs`. -/
  | paveOsls (propagationChannels : List Id)
  /-- The key generator that a new meek host needs. -/
  | generateKeypair
  | installFirewallRules (host : Id)
  | installPsiLimitLoad (host : Id)
  /-- `deploy_implementation`, for one host. -/
  | hostImplementation (host : Id)
  /-- `deploy_data`, for one host. -/
  | hostData (host : Id)
  /-- `install_host`, for a new host. -/
  | installHost (host : Id)
  /-- `change_weekly_crontab_runday`. -/
  | changeCrontab (host : Id)
  /-- `deploy_geoip_database_autoupdates`. -/
  | geoipAutoupdates (host : Id)
  /-- `deploy_routes`. -/
  | routes (host : Id)
  | testServer (server : Id)
  /-- The restart of a new host. -/
  | shutdown (host : Id)
  deriving DecidableEq, Repr

/-- How a script stops early: an exception of its own, or a call that raised. -/
inductive Failure where
  | raised (error : PyError)
  | call (work : Work)
  deriving DecidableEq, Repr

structure World where
  net : Network
  saved : Network
  sent : Id → Option HostData
  done : List Work
  calls : ℕ

/-- The world outside: which call succeeds, the random part of the bucket name made after so
many calls, and the time at which the scripts were imported. -/
structure Outside where
  succeeds : ℕ → Bool
  websiteId : ℕ → String
  importedAt : Date

def noCallRaises : Outside where
  succeeds := fun _ => true
  websiteId := fun _ => "site"
  importedAt := 0

abbrev Script := EStateM Failure World

/-! ### Statements -/

/-- An exception of a pure computation is raised by the script. -/
def raisePy {α : Type} : Py α → Script α
  | .ok a => pure a
  | .error e => throw (.raised e)

def assign (f : Network → Network) : Script Unit := modify fun w => { w with net := f w.net }

def save : Script Unit := modify fun w => { w with saved := w.net }

/-- `dictionary[key]`. -/
def lookup {α : Type} {key : α → Id} (t : Table key) (k : Id) : Py α :=
  match t.get? k with
  | some r => .ok r
  | none => .error .keyError

def Network.campaign? (net : Network) (sponsorId : Id) (i : ℕ) : Option SponsorCampaign :=
  (net.sponsors.get? sponsorId).bind fun sponsor => sponsor.campaigns[i]?

def Network.getCampaign (net : Network) (sponsorId : Id) (i : ℕ) : Py SponsorCampaign :=
  match net.campaign? sponsorId i with
  | some campaign => .ok campaign
  | none => .error .indexError

/-- `campaign.s3_bucket_name = bucket`, for the campaign at a place in the sponsor's list. -/
def Sponsor.setBucket (i : ℕ) (bucket : String) (sponsor : Sponsor) : Sponsor :=
  { sponsor with
    campaigns := sponsor.campaigns.modify i fun campaign =>
      { campaign with s3BucketName := some bucket } }

theorem Sponsor.id_setBucket (i : ℕ) (bucket : String) (s : Sponsor) :
    Sponsor.id (s.setBucket i bucket) = Sponsor.id s := rfl

def Network.setBucket (sponsorId : Id) (i : ℕ) (bucket : String) (net : Network) : Network :=
  { net with
    sponsors := net.sponsors.modify sponsorId (.setBucket i bucket)
      (Sponsor.id_setBucket i bucket) }

def createS3WebsiteBucketName (websiteId : String) : String :=
  "psiphon" ++ "/" ++ "web" ++ "/" ++ websiteId

def SponsorCampaign.onPlatform (platform : Platform) (campaign : SponsorCampaign) : Bool :=
  match campaign.platforms with
  | none => true
  | some platforms => platforms.contains platform

/-- The keys of `__deploy_builds_required_for_campaigns`. -/
def clientPlatforms : List Platform := [.windows, .android]

/-- `self.__deploy_builds_required_for_campaigns[platform].remove(target)`. -/
def Network.removeTarget (platform : Platform) (target : Target) (net : Network) : Network :=
  { net with
    deployBuildsRequiredForCampaigns :=
      Function.update net.deployBuildsRequiredForCampaigns platform
        ((net.deployBuildsRequiredForCampaigns platform).filter (· ≠ target)) }

section

variable (env : Outside)

def call (work : Work) : Script Unit := fun w =>
  if env.succeeds w.calls then .ok () { w with done := work :: w.done, calls := w.calls + 1 }
  else .error (.call work) { w with calls := w.calls + 1 }

/-! ### Host implementation -/

def deployImplementation : Script Unit := do
  let w ← get
  let flagged := w.net.deployImplementationRequiredForHosts
  let hosts ← raisePy (flagged.mapM (lookup w.net.hosts))
  call env (.implementation (hosts.map Host.id))
  if flagged ≠ [] then do
    assign fun net => { net with deployImplementationRequiredForHosts := [] }
    save
  else pure ()

/-! ### Builds -/

/-- A campaign without a bucket is given one, which is then loaded with the website. -/
def createBucket (sponsorId : Id) (i : ℕ) (campaign : SponsorCampaign) : Script Unit :=
  if textTruthy campaign.s3BucketName then pure ()
  else do
    let w ← get
    let bucket := createS3WebsiteBucketName (env.websiteId w.calls)
    assign (.setBucket sponsorId i bucket)
    call env (.newSite sponsorId i bucket)

/-- The step that depends on the campaign's propagation mechanism. -/
def propagate (sponsorId : Id) (i : ℕ) : Mechanism → Script Unit
  | .twitter => call env (.tweet sponsorId i)
  | .emailAutoresponder => assign fun net => { net with deployEmailConfigRequired := true }
  | .staticDownload => pure ()

def deployCampaign (platform : Platform) (sponsorId : Id) (i : ℕ) : Script Unit := do
  let w ← get
  let campaign ← raisePy (w.net.getCampaign sponsorId i)
  if campaign.onPlatform platform then do
    createBucket env sponsorId i campaign
    call env (.build platform sponsorId i)
    call env (.upload platform sponsorId i)
    propagate env sponsorId i campaign.propagationMechanismType
  else pure ()

def channelCampaigns (channelId : Id) (sponsor : Sponsor) : List ℕ :=
  (List.range sponsor.campaigns.length).filter fun i =>
    sponsor.campaigns[i]?.any fun campaign => campaign.propagationChannelId == channelId

def deployTarget (platform : Platform) (target : Target) : Script Unit := do
  let w ← get
  let _ ← raisePy (lookup w.net.propagationChannels target.1)
  let sponsor ← raisePy (lookup w.net.sponsors target.2)
  (channelCampaigns target.1 sponsor).forM (deployCampaign env platform target.2)
  assign (.removeTarget platform target)

/-- All targets of a platform; the database is saved only when they are all built. -/
def deployPlatform (platform : Platform) : Script Unit := do
  let w ← get
  let targets := (w.net.deployBuildsRequiredForCampaigns platform).dedup
  targets.forM (deployTarget env platform)
  if targets ≠ [] then save else pure ()

def deployBuilds : Script Unit := clientPlatforms.forM (deployPlatform env)

/-! ### Host data -/

/-- The data is generated and sent for one host; the value says whether all went well so
far, since one failure does not stop the pool of threads. -/
def deployDataToHost (dataGenerator : Id → Bool → Py HostData) (tcsData : Option HostData)
    (ok : Bool) (host : Host) : Script Bool := fun w =>
  match hostDataToDeploy dataGenerator tcsData host with
  | .error _ => .ok false w
  | .ok (_, data) =>
    if env.succeeds w.calls then
      .ok ok { w with sent := Function.update w.sent host.id (some data), calls := w.calls + 1 }
    else .ok false { w with calls := w.calls + 1 }

/-- A piece of work whose parts have all been tried. -/
def finish (work : Work) (ok : Bool) : Script Unit :=
  if ok then modify fun w => { w with done := work :: w.done } else throw (.call work)

/-- `__compartmentalize_data_for_host`, as it is passed to the deployment. -/
def hostDataGenerator (net : Network) (hostId : Id) (isTCS : Bool) : Py HostData :=
  compartmentalizeDataForHost net env.importedAt hostId isTCS none

def deployData : Script Unit := do
  let w ← get
  if w.net.deployDataRequiredForAll then do
    let hosts := w.net.hosts.records
    let dataGenerator := hostDataGenerator env w.net
    let tcsData ← raisePy (generateTcsData hosts dataGenerator)
    let ok ← hosts.foldlM (deployDataToHost env dataGenerator tcsData) true
    finish .data ok
    assign fun net => { net with deployDataRequiredForAll := false }
    save
  else pure ()

/-! ### Email and stats server configurations -/

/-- A configuration is pushed when its flag is set. -/
def pushConfig (required : Network → Bool) (clear : Network → Network) (work : Work) :
    Script Unit := do
  let w ← get
  if required w.net then do
    call env work
    assign clear
    save
  else pure ()

def deployStatsConfig : Script Unit :=
  pushConfig env Network.deployStatsConfigRequired
    (fun net => { net with deployStatsConfigRequired := false }) .stats

def deployEmailConfig : Script Unit :=
  pushConfig env Network.deployEmailConfigRequired
    (fun net => { net with deployEmailConfigRequired := false }) .email

/-! ### Hosts to remove from their providers -/

def removeThroughProvider (host : Host) : Script Unit := do
  call env (.removeFromProvider host.id)
  assign fun net =>
    { net with hostsToRemoveFromProviders := net.hostsToRemoveFromProviders.filter (· ≠ host) }

/-- The local variables of `remove_hosts_from_providers`: whether `provider_account` has been
assigned, and `need_to_save`. -/
structure RemovalLocals where
  accountAssigned : Bool
  needToSave : Bool

/-- The loop body. For `vpsnet` the account is compared and not assigned, so the account of
an earlier host is used. -/
def removeHostFromProvider (l : RemovalLocals) (host : Host) : Script RemovalLocals :=
  if host.provider = "linode" ∨ host.provider = "digitalocean" then do
    removeThroughProvider env host
    pure ⟨true, true⟩
  else if host.provider = "vpsnet" then
    if l.accountAssigned then do
      removeThroughProvider env host
      pure ⟨true, true⟩
    else throw (.raised .unboundLocalError)
  else pure l

def removeHostsFromProviders : Script Unit := do
  let w ← get
  let l ← w.net.hostsToRemoveFromProviders.dedup.foldlM (removeHostFromProvider env)
    ⟨false, false⟩
  if l.needToSave then save else pure ()

/-! ### Website -/

/-- A campaign without a bucket is given one, and the database is saved. -/
def createSavedBucket (sponsorId : Id) (i : ℕ) (campaign : SponsorCampaign) : Script Unit :=
  if textTruthy campaign.s3BucketName then pure ()
  else do
    let w ← get
    assign (.setBucket sponsorId i (createS3WebsiteBucketName (env.websiteId w.calls)))
    save

def deployCampaignSite (sponsorId : Id) (i : ℕ) : Script Unit := do
  let w ← get
  let campaign ← raisePy (w.net.getCampaign sponsorId i)
  createSavedBucket env sponsorId i campaign
  let w ← get
  let campaign ← raisePy (w.net.getCampaign sponsorId i)
  call env (.site sponsorId i (textOrEmpty campaign.s3BucketName))

def deploySponsorSite (sponsorId : Id) : Script Unit := do
  let w ← get
  let sponsor ← raisePy (lookup w.net.sponsors sponsorId)
  (List.range sponsor.campaigns.length).forM (deployCampaignSite env sponsorId)
  assign fun net =>
    { net with
      deployWebsiteRequiredForSponsors :=
        net.deployWebsiteRequiredForSponsors.filter (· ≠ sponsorId) }
  save

def deployWebsite : Script Unit := do
  let w ← get
  let sponsors := w.net.deployWebsiteRequiredForSponsors.dedup
  if sponsors ≠ [] then do
    call env .generateWebsite
    sponsors.forM (deploySponsorSite env)
  else pure ()

/-! ### OSLs -/

def deployOsls : Script Unit := do
  let w ← get
  let channels := w.net.deployPaveOslsRequiredForPropagationChannels
  if channels ≠ [] then do
    call env (.paveOsls channels)
    assign fun net => { net with deployPaveOslsRequiredForPropagationChannels := [] }
    save
  else pure ()

def deploy : Script Unit := do
  let w ← get
  raisePy (pyAssert w.net.isLocked)
  deployImplementation env
  deployBuilds env
  deployData env
  deployStatsConfig env
  deployEmailConfig env
  removeHostsFromProviders env
  deployWebsite env
  deployOsls env

end

theorem lookup_eq_ok_iff {α : Type} {key : α → Id} {t : Table key} {k : Id} {r : α} :
    lookup t k = .ok r ↔ r ∈ t ∧ key r = k := by
  rw [← Table.get?_eq_some_iff,lookup]
  cases t.get? k <;> simp

theorem getCampaign_eq_ok_iff {net : Network} {sponsorId : Id} {i : ℕ}
    {campaign : SponsorCampaign} :
    net.getCampaign sponsorId i = .ok campaign ↔ net.campaign? sponsorId i = some campaign := by
  rw [Network.getCampaign]
  cases net.campaign? sponsorId i <;> simp

/-! ### Single runs of the statements -/

section Single

variable {α β : Type} {r : Py α} {f : α → Script β}

theorem raisePy_bind_of_ok {a : α} (h : r = .ok a) (w : World) : (raisePy r >>= f) w = f a w := by
  rw [h]
  rfl

theorem locked_bind {f : Unit → Script β} {w w' : World} (h : w.net.isLocked = true) :
    (raisePy (pyAssert w.net.isLocked) >>= f) w' = f () w' :=
  raisePy_bind_of_ok (pyAssert_eq_ok_iff.mpr h) w'

end Single

/-! ### Rules for the statements -/

section Rules

open Hoare

variable {α β : Type} {P : World → Prop} {Q : Unit → World → Prop} {R : β → World → Prop}
  {E : Failure → World → Prop}

theorem raisePy_bind {r : Py α} {f : α → Script β} (hok : ∀ a, r = .ok a → Triple P (f a) R E)
    (he : ∀ e w, P w → E (.raised e) w) : Triple P (raisePy r >>= f) R E := by
  cases hr : r with
  | ok a => exact hok a hr
  | error e => exact he e

theorem raisePy_bind_ok {r : Py α} {f : α → Script β} {a : α} (hr : r = .ok a)
    (h : Triple P (f a) R E) : Triple P (raisePy r >>= f) R E := by
  rw [hr]
  exact h

theorem assign_triple {f : Network → Network} (h : ∀ w, P w → Q () { w with net := f w.net }) :
    Triple P (assign f) Q E := .modify h

theorem save_triple (h : ∀ w, P w → Q () { w with saved := w.net }) : Triple P save Q E :=
  .modify h

theorem call_triple {env : Outside} {work : Work}
    (hok : ∀ w, P w → Q () { w with done := work :: w.done, calls := w.calls + 1 })
    (he : ∀ w, P w → E (.call work) { w with calls := w.calls + 1 }) :
    Triple P (call env work) Q E := by
  intro w hw
  by_cases hc : env.succeeds w.calls
  · simpa [call,hc] using hok w hw
  · simpa [call,hc] using he w hw

theorem deployDataToHost_frame {env : Outside} {I : World → Prop}
    (hI : ∀ w sent n, I w → I { w with sent := sent, calls := n })
    {dg : Id → Bool → Py HostData} {td : Option HostData} {ok : Bool} {host : Host} :
    Triple I (deployDataToHost env dg td ok host) (fun _ => I) E := by
  intro w hw
  unfold deployDataToHost
  cases hostDataToDeploy dg td host with
  | error e => exact hw
  | ok pair =>
    by_cases hc : env.succeeds w.calls
    · simpa [hc] using hI w _ _ hw
    · simpa [hc] using hI w w.sent _ hw

end Rules

end Psiphon.Ops
