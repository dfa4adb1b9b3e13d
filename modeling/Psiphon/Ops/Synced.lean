import Psiphon.Ops.Pending

/-!
# Hosts that have been sent their data

When the flag for deploying data is not set, every host should have been sent the data that it would
be sent now.
-/

namespace Psiphon.Ops

open List Hoare

/-- When the flag is not set, every host was last sent the data it would be sent now. -/
def Synced (env : Outside) (w : World) : Prop :=
  w.net.deployDataRequiredForAll = false → ∀ host ∈ w.net.hosts,
    ∃ data, dataToDeploy w.net env.importedAt host = .ok data ∧ w.sent host.id = some data

/-! ### What the data of a host depends on -/

/-- The databases agree in all that is part of the data of some host. -/
structure SameData (net net' : Network) : Prop where
  propagationChannels : net'.propagationChannels = net.propagationChannels
  hosts : net'.hosts = net.hosts
  servers : net'.servers = net.servers
  layout : net'.layout = net.layout
  clientVersions : net'.clientVersions = net.clientVersions
  speedTestUrls : net'.speedTestUrls = net.speedTestUrls
  defaultSponsorId : net'.defaultSponsorId = net.defaultSponsorId

def Network.forgetBuckets (net : Network) : Network := { net with sponsors := net.layout }

theorem contains_layout (net : Network) (id : Id) :
    net.layout.contains id = net.sponsors.contains id := by
  simp only [Table.contains,Network.layout,Table.get?_map,Option.isSome_map]

theorem sponsorData_forgetBuckets (net : Network) (s : Sponsor) :
    sponsorData net.forgetBuckets s.forgetBuckets = (sponsorData net s).forgetBuckets := by
  by_cases h : textTruthy s.useDataFromSponsorId
  · simp only [sponsorData,Sponsor.forgetBuckets,h,Network.forgetBuckets,Network.layout,
      Table.get?_map,if_true]
    cases net.sponsors.get? (textOrEmpty s.useDataFromSponsorId) <;> rfl
  · simp only [sponsorData,Sponsor.forgetBuckets,h]
    rfl

theorem copySponsor_forgetBuckets (net : Network) (s : Sponsor) :
    copySponsor net.forgetBuckets s.forgetBuckets = copySponsor net s := by
  simp only [copySponsor,sponsorData_forgetBuckets]
  rfl

theorem copySponsors_forgetBuckets (net : Network) :
    copySponsors net.forgetBuckets = copySponsors net := by
  have hm : ∀ s : Sponsor, overrideMissing net.forgetBuckets s.forgetBuckets =
      overrideMissing net s := by
    intro s
    simp only [overrideMissing,Network.forgetBuckets,contains_layout,Sponsor.forgetBuckets]
  have hany : net.forgetBuckets.sponsors.records.any (overrideMissing net.forgetBuckets) =
      net.sponsors.records.any (overrideMissing net) := by
    show (net.sponsors.records.map _).any _ = _
    rw [any_map]
    exact congrArg _ (funext hm)
  have hmap : (net.forgetBuckets.sponsors.map (copySponsor net.forgetBuckets) fun _ => rfl :
      Table Sponsor.id) = net.sponsors.map (copySponsor net) fun _ => rfl := by
    apply Table.ext
    show (net.sponsors.records.map _).map _ = net.sponsors.records.map _
    rw [map_map]
    exact congrArg (List.map · _) (funext (copySponsor_forgetBuckets net))
  rw [copySponsors,copySponsors,hany,hmap]

variable {net net' : Network}

theorem copySponsors_congr (h : net'.sponsors = net.sponsors) :
    copySponsors net' = copySponsors net := by
  have hm : overrideMissing net' = overrideMissing net := by
    funext s
    rw [overrideMissing,overrideMissing,h]
  have hc : copySponsor net' = copySponsor net := by
    funext s
    simp only [copySponsor,sponsorData,h]
  have hmap : (net'.sponsors.map (copySponsor net') fun _ => rfl : Table Sponsor.id) =
      net.sponsors.map (copySponsor net) fun _ => rfl := by
    apply Table.ext
    show net'.sponsors.records.map _ = net.sponsors.records.map _
    rw [hc,h]
  rw [copySponsors,copySponsors,hm,h,← hmap,h]

theorem copySponsors_of_layout (h : net'.layout = net.layout) :
    copySponsors net' = copySponsors net := by
  have hf : net'.forgetBuckets.sponsors = net.forgetBuckets.sponsors := h
  calc copySponsors net' = copySponsors net'.forgetBuckets := (copySponsors_forgetBuckets net').symm
    _ = copySponsors net.forgetBuckets := copySponsors_congr hf
    _ = copySponsors net := copySponsors_forgetBuckets net

theorem SameData.dataToDeploy (h : SameData net net') (ia : Date) (host : Host) :
    dataToDeploy net' ia host = dataToDeploy net ia host := by
  have hv : copyClientVersions net' = copyClientVersions net := by
    funext platform
    rw [copyClientVersions,copyClientVersions,h.clientVersions]
  simp only [Ops.dataToDeploy,compartmentalizeDataForHost,compartmentalizeDataForTcs,hv,
    copySponsors_of_layout h.layout,h.propagationChannels,h.hosts,h.servers,h.speedTestUrls,
    h.defaultSponsorId]

theorem Synced.of_sameData {env : Outside} {w w' : World} (h : Synced env w)
    (hd : SameData w.net w'.net)
    (hf : w'.net.deployDataRequiredForAll = w.net.deployDataRequiredForAll)
    (hs : w'.sent = w.sent) : Synced env w' := by
  intro ho host hh
  rw [hd.dataToDeploy,hs]
  exact h (hf ▸ ho) host (hd.hosts ▸ hh)

theorem synced_of_flag {env : Outside} {w : World} (h : w.net.deployDataRequiredForAll = true) :
    Synced env w := by
  intro ho
  rw [h] at ho
  cases ho

/-! ### Deploying -/

section Deploy

variable {env : Outside}

theorem raisePy_bind_keeps {I : World → Prop} {α : Type} {r : Py α} {f : α → Script Unit}
    (h : ∀ a, r = .ok a → Keeps I (f a)) : Keeps I (raisePy r >>= f) :=
  raisePy_bind h fun _ _ hw => hw

theorem keeps_pure {I : World → Prop} {α : Type} {a : α} : Keeps I (pure a : Script α) :=
  .skip

theorem sameData_setBucket (net : Network) (sponsorId : Id) (i : ℕ) (bucket : String) :
    SameData net (net.setBucket sponsorId i bucket) :=
  ⟨rfl,rfl,rfl,layout_setBucket net sponsorId i bucket,rfl,rfl,rfl⟩

/-- What calls, saves and assignments that change the data of no host leave true. All phases of a
deployment but the one for the data of the hosts are made of these. -/
structure Framed (I : World → Prop) : Prop where
  called : ∀ {w} done calls, I w → I { w with done := done, calls := calls }
  saved : ∀ {w}, I w → I { w with saved := w.net }
  assigned : ∀ {w net}, SameData w.net net →
    net.deployDataRequiredForAll = w.net.deployDataRequiredForAll → I w → I { w with net := net }

namespace Framed

variable {I : World → Prop} (hI : Framed I)

include hI

theorem call {work : Work} : Keeps I (Ops.call env work) :=
  call_triple (fun _ h => hI.called _ _ h) fun w h => hI.called w.done _ h

theorem save : Keeps I Ops.save := save_triple fun _ h => hI.saved h

theorem assign {f : Network → Network} (hf : ∀ net, SameData net (f net))
    (hfl : ∀ net, (f net).deployDataRequiredForAll = net.deployDataRequiredForAll) :
    Keeps I (Ops.assign f) :=
  assign_triple fun _ h => hI.assigned (hf _) (hfl _) h

theorem assign_save {f : Network → Network} (hf : ∀ net, SameData net (f net))
    (hfl : ∀ net, (f net).deployDataRequiredForAll = net.deployDataRequiredForAll) :
    Keeps I (do Ops.assign f; Ops.save) :=
  .bind (hI.assign hf hfl) fun _ => hI.save

theorem deployImplementation : Keeps I (Ops.deployImplementation env) := by
  refine .get fun w => raisePy_bind_keeps fun hosts _ => .seq hI.call ?_
  apply Triple.when
  exact hI.assign_save (fun _ => ⟨rfl,rfl,rfl,rfl,rfl,rfl,rfl⟩) fun _ => rfl

variable {sponsorId : Id}

theorem createBucket {i : ℕ} {campaign : SponsorCampaign} :
    Keeps I (Ops.createBucket env sponsorId i campaign) := by
  apply Triple.unless
  refine Keeps.get fun w => Triple.bind (hI.assign ?_ fun _ => rfl) fun _ => hI.call
  exact fun net => sameData_setBucket net sponsorId i _

theorem propagate {i : ℕ} (m : Mechanism) : Keeps I (Ops.propagate env sponsorId i m) := by
  cases m with
  | twitter => exact hI.call
  | emailAutoresponder =>
    rw [Ops.propagate]
    exact hI.assign (fun _ => ⟨rfl,rfl,rfl,rfl,rfl,rfl,rfl⟩) fun _ => rfl
  | staticDownload => exact keeps_pure

theorem deployCampaign {p : Platform} {i : ℕ} : Keeps I (Ops.deployCampaign env p sponsorId i) := by
  refine .get fun w => raisePy_bind_keeps fun campaign _ => ?_
  apply Triple.when
  apply Triple.seq hI.createBucket
  apply Triple.seq hI.call
  apply Triple.seq hI.call
  exact hI.propagate _

theorem deployBuilds : Keeps I (Ops.deployBuilds env) := by
  apply Triple.forM (I := fun _ => I)
  intro platform _
  refine Keeps.get fun w => Triple.seq (Triple.forM (I := fun _ => I) ?_ _) ?_
  · intro target _
    refine Keeps.get fun w => raisePy_bind_keeps fun _ _ => raisePy_bind_keeps fun sponsor _ => ?_
    apply Triple.seq (Triple.forM (I := fun _ => I) (fun _ _ => hI.deployCampaign) _)
    exact hI.assign (fun _ => ⟨rfl,rfl,rfl,rfl,rfl,rfl,rfl⟩) fun _ => rfl
  · apply Triple.when
    exact hI.save

theorem pushConfig {r : Network → Bool} {clear : Network → Network} {work : Work}
    (hf : ∀ net, SameData net (clear net))
    (hfl : ∀ net, (clear net).deployDataRequiredForAll = net.deployDataRequiredForAll) :
    Keeps I (Ops.pushConfig env r clear work) := by
  refine .get fun w => ?_
  apply Triple.when
  exact Triple.bind hI.call fun _ => hI.assign_save hf hfl

theorem deployStatsConfig : Keeps I (Ops.deployStatsConfig env) :=
  hI.pushConfig (fun _ => ⟨rfl,rfl,rfl,rfl,rfl,rfl,rfl⟩) fun _ => rfl

theorem deployEmailConfig : Keeps I (Ops.deployEmailConfig env) :=
  hI.pushConfig (fun _ => ⟨rfl,rfl,rfl,rfl,rfl,rfl,rfl⟩) fun _ => rfl

theorem removeThroughProvider {host : Host} : Keeps I (Ops.removeThroughProvider env host) := by
  apply Triple.seq hI.call
  exact hI.assign (fun _ => ⟨rfl,rfl,rfl,rfl,rfl,rfl,rfl⟩) fun _ => rfl

theorem removeHostFromProvider {l : RemovalLocals} {host : Host} :
    Keeps I (Ops.removeHostFromProvider env l host) := by
  have hr : ∀ l' : RemovalLocals, Keeps I
      (do Ops.removeThroughProvider env host; pure l') := fun _ =>
    .bind hI.removeThroughProvider fun _ => keeps_pure
  apply Triple.branch
  · exact hr _
  apply Triple.when
  apply Triple.branch
  · exact hr _
  · exact .throw fun _ h => h

theorem removeHostsFromProviders : Keeps I (Ops.removeHostsFromProviders env) := by
  refine .get fun w => .bind (.foldlM (I := fun _ _ => I)
    (fun _ _ _ => hI.removeHostFromProvider) _ _) fun l => ?_
  apply Triple.when
  exact hI.save

theorem deployCampaignSite {i : ℕ} : Keeps I (Ops.deployCampaignSite env sponsorId i) := by
  refine .get fun w => raisePy_bind_keeps fun campaign _ => ?_
  apply Triple.seq (Q := I)
  · apply Triple.unless
    exact Keeps.get fun w => hI.assign_save
      (fun net => sameData_setBucket net sponsorId i _) fun _ => rfl
  · exact Keeps.get fun w => raisePy_bind_keeps fun _ _ => hI.call

theorem deployWebsite : Keeps I (Ops.deployWebsite env) := by
  refine .get fun w => ?_
  apply Triple.when
  apply Triple.seq hI.call
  apply Triple.forM (I := fun _ => I)
  intro sponsorId _
  refine Keeps.get fun w => raisePy_bind_keeps fun sponsor _ => ?_
  apply Triple.seq (Triple.forM (I := fun _ => I) (fun _ _ => hI.deployCampaignSite) _)
  exact hI.assign_save (fun _ => ⟨rfl,rfl,rfl,rfl,rfl,rfl,rfl⟩) fun _ => rfl

theorem deployOsls : Keeps I (Ops.deployOsls env) := by
  refine .get fun w => ?_
  apply Triple.when
  exact Triple.bind hI.call fun _ =>
    hI.assign_save (fun _ => ⟨rfl,rfl,rfl,rfl,rfl,rfl,rfl⟩) fun _ => rfl

theorem deployRest : Keeps I (do
    Ops.deployStatsConfig env
    Ops.deployEmailConfig env
    Ops.removeHostsFromProviders env
    Ops.deployWebsite env
    Ops.deployOsls env) := by
  apply Triple.seq hI.deployStatsConfig
  apply Triple.seq hI.deployEmailConfig
  apply Triple.seq hI.removeHostsFromProviders
  apply Triple.seq hI.deployWebsite
  exact hI.deployOsls

/-- A deployment keeps what its data phase keeps. -/
theorem deploy (hdata : Keeps I (deployData env)) : Keeps I (Ops.deploy env) := by
  refine .get fun w => raisePy_bind_keeps fun _ _ => ?_
  apply Triple.seq hI.deployImplementation
  apply Triple.seq hI.deployBuilds
  apply Triple.seq hdata
  exact hI.deployRest

end Framed

theorem framed_synced : Framed (Synced env) where
  called _ _ h := h
  saved h := h
  assigned hd hf h := h.of_sameData hd hf rfl

/-- The hosts still to come apart, every host has been sent its data, if all went well. -/
def SentTo (env : Outside) (net : Network) (hosts : List Host) (ok : Bool) (w : World) : Prop :=
  w.net = net ∧ (∀ host ∈ hosts, host ∈ net.hosts) ∧ (ok = true → ∀ host ∈ net.hosts, host ∈ hosts ∨
    ∃ data, dataToDeploy net env.importedAt host = .ok data ∧ w.sent host.id = some data)

theorem deployDataToHost_sentTo {net : Network} {td : Option HostData}
    (htcs : ∀ data ∈ td, compartmentalizeDataForTcs net env.importedAt = .ok data)
    {E : Failure → World → Prop} (host : Host) (hosts : List Host) (ok : Bool) :
    Triple (SentTo env net (host :: hosts) ok)
      (deployDataToHost env (hostDataGenerator env net) td ok host) (SentTo env net hosts) E := by
  rintro w ⟨hnet,hmem,hse⟩
  have hmem' : ∀ h ∈ hosts, h ∈ net.hosts := fun h hh => hmem h (mem_cons_of_mem host hh)
  unfold deployDataToHost
  cases hd : hostDataToDeploy (hostDataGenerator env net) td host with
  | error e => exact ⟨hnet,hmem',nofun⟩
  | ok pair =>
    obtain ⟨-,hda⟩ := hostDataToDeploy_eq_ok htcs hd
    by_cases hc : env.succeeds w.calls
    · simp only [hc,if_true]
      refine ⟨hnet,hmem',fun hok host' hho' => ?_⟩
      by_cases hid : host'.id = host.id
      · have heq : host' = host := Table.eq_of_key_eq hho' (hmem host (.head _)) hid
        exact .inr ⟨pair.2,heq ▸ hda,by simp [heq]⟩
      · rcases hse hok host' hho' with hm | ⟨data,hda',hs⟩
        · rcases mem_cons.mp hm with rfl | hm
          · exact absurd rfl hid
          · exact .inl hm
        · exact .inr ⟨data,hda',by simpa [Function.update_of_ne hid] using hs⟩
    · simp only [hc]
      exact ⟨hnet,hmem',nofun⟩

/-- The flag is cleared only when every host has been sent its data. -/
theorem deployData_synced : Keeps (Synced env) (deployData env) := by
  apply Triple.get
  intro w₀ h₀
  apply Triple.ite
  · intro hon
    apply raisePy_bind
    · intro tcsData ht
      apply Triple.bind (Q := SentTo env w₀.net [])
      · refine (Triple.foldlM (I := SentTo env w₀.net)
          (deployDataToHost_sentTo (generateTcsData_eq_ok ht)) _ _).weaken_pre ?_
        rintro _ rfl
        exact ⟨rfl,fun _ h => h,fun _ _ h => .inl h⟩
      intro ok
      apply Triple.seq (Q := SentTo env w₀.net [] true)
      · apply Triple.ite
        · rintro rfl
          exact .modify fun w h => h
        · intro _
          exact .throw fun w h => synced_of_flag (h.1 ▸ hon)
      apply Triple.seq (Q := Synced env)
      · apply assign_triple
        rintro w ⟨hn,-,hs⟩ - host hh
        have hd : SameData w₀.net { w.net with deployDataRequiredForAll := false } := by
          rw [hn]
          exact ⟨rfl,rfl,rfl,rfl,rfl,rfl,rfl⟩
        rw [hd.dataToDeploy]
        exact (hs rfl host (hd.hosts ▸ hh)).resolve_left not_mem_nil
      · exact framed_synced.save
    · rintro e w rfl
      exact h₀
  · intro _
    apply Triple.pure
    rintro _ rfl
    exact h₀

/-- A deployment keeps the flag right, also when it raises. -/
theorem deploy_synced : Keeps (Synced env) (deploy env) := framed_synced.deploy deployData_synced

end Deploy

end Psiphon.Ops
