import Mathlib.Data.List.Dedup
import Psiphon.Ops.Pending

/-!
# The phases of a deployment forget nothing

One triple for each phase of `deploy`.
-/

namespace Psiphon.Ops

open List Hoare

/-! ### Statements -/

section Phases

variable {env : Outside} {start : Network} {pending : List Id}

variable {P : World → Prop} {Q : Unit → World → Prop}

theorem call_remembers {work : Work} (hP : ∀ w, P w → Remembers start w)
    (hQ : ∀ w n, P w → Remembers start { w with done := work :: w.done, calls := n } →
      Q () { w with done := work :: w.done, calls := n }) :
    Triple P (call env work) Q (Interrupted start pending) := by
  apply call_triple
  · intro w hp
    exact hQ w _ hp ((hP w hp).work work _)
  · intro w hp
    exact Remembers.interrupted (w := { w with calls := _ }) (hP w hp) pending _

theorem raisePy_bind_remembers {α : Type} {r : Py α} {f : α → Script Unit}
    (hP : ∀ w, P w → Remembers start w)
    (hok : ∀ a, r = .ok a → Triple P (f a) Q (Interrupted start pending)) :
    Triple P (raisePy r >>= f) Q (Interrupted start pending) :=
  raisePy_bind hok fun _ w hp => (hP w hp).interrupted pending _

variable (start pending) in
/-- A phase that forgets nothing. -/
abbrev Phase {α : Type} (F : Network → Prop) (x : Script α) (F' : Network → Prop) : Prop :=
  Triple (fun w => Remembers start w ∧ F w.net) x (fun _ w => Remembers start w ∧ F' w.net)
    (Interrupted start pending)

theorem clear_save_remembers {clear : Network → Network}
    (hP : ∀ w, P w → Kept start (clear w.net) w.done)
    (hQ : ∀ w, P w → Remembers start { w with net := clear w.net, saved := clear w.net } →
      Q () { w with net := clear w.net, saved := clear w.net }) :
    Triple P (do assign clear; save) Q (Interrupted start pending) := by
  apply Triple.seq (Q := fun w => Kept start w.net w.done ∧
    (Remembers start { w with saved := w.net } → Q () { w with saved := w.net }))
  · apply assign_triple
    intro w hp
    exact ⟨hP w hp,hQ w hp⟩
  · apply save_triple
    rintro w ⟨hk,hq⟩
    exact hq ⟨hk,hk⟩

variable {F : Network → Prop} {work : Work}

theorem call_done {w₀ : World} (hr : Remembers start w₀) : Triple (· = w₀) (call env work)
    (fun _ w => Remembers start w ∧ w.net = w₀.net ∧ work ∈ w.done)
      (Interrupted start pending) := by
  apply call_remembers fun w hw => hw ▸ hr
  rintro _ n rfl hr
  exact ⟨hr,rfl,.head _⟩

/-- A flag may be cleared when its work is done. -/
theorem clear_done {clear : Network → Network} {net : Network}
    (hs : (clear net).sponsors = net.sponsors)
    (hw : (clear net).deployWebsiteRequiredForSponsors = net.deployWebsiteRequiredForSponsors)
    (hi : ∀ done item, net.flagged item → work ∈ done →
      (clear net).flagged item ∨ Processed start done item)
    (hQ : ∀ w, Remembers start w → w.net = clear net → Q () w) :
    Triple (fun w => Remembers start w ∧ w.net = net ∧ work ∈ w.done) (do assign clear; save) Q
      (Interrupted start pending) := by
  apply clear_save_remembers
  · rintro w ⟨hr,rfl,hd⟩
    exact hr.1.clear hs hw fun item hit => hi _ item hit hd
  · rintro w ⟨-,rfl,-⟩ hr
    exact hQ _ hr rfl

theorem map_id_of_mapM_lookup {hosts : Table Host.id} {ids : List Id} {found : List Host}
    (h : ids.mapM (lookup hosts) = .ok found) : found.map Host.id = ids := by
  have ha := forall₂_of_mapM_eq_ok h
  clear h
  induction ha with
  | nil => rfl
  | @cons id host ids found ho _ ih =>
    rw [map_cons,ih,(lookup_eq_ok_iff.mp ho).2]

theorem deployImplementation_remembers
    (hF : ∀ net, F net → F { net with deployImplementationRequiredForHosts := [] }) :
    Phase start pending F (deployImplementation env)
      fun net => F net ∧ net.deployImplementationRequiredForHosts = [] := by
  apply Triple.get
  rintro w₀ ⟨hr,hf⟩
  apply raisePy_bind_remembers fun w hw => hw ▸ hr
  intro hosts hm
  rw [map_id_of_mapM_lookup hm]
  apply Triple.seq (call_done hr)
  apply Triple.ite
  · intro _
    refine clear_done rfl rfl ?_ fun w hr hn => ⟨hr,hn ▸ ⟨hF _ hf,rfl⟩⟩
    intro done item hi hd
    cases item with
    | host id => exact .inr ⟨_,hd,hi⟩
    | _ => exact .inl hi
  · intro hnil
    apply Triple.pure
    rintro w ⟨hr',hn,-⟩
    rw [hn]
    exact ⟨hr',hf,not_not.mp hnil⟩

/-! ### Builds -/

/-- Facts about the database and the work done that no statement of the build phase undoes. -/
structure BuildFrame (G : Network → List Work → Prop) : Prop where
  work : ∀ {net done} work, G net done → G net (work :: done)
  bucket : ∀ {net done} sponsorId i bucket, G net done →
    G (net.setBucket sponsorId i bucket) done
  email : ∀ {net done}, G net done → G { net with deployEmailConfigRequired := true } done
  target : ∀ {net done} platform target, G net done → G (net.removeTarget platform target) done

theorem BuildFrame.and {G : Network → List Work → Prop} (hG : BuildFrame G)
    {M : List Work → Prop} (hM : ∀ work done, M done → M (work :: done)) :
    BuildFrame fun net done => G net done ∧ M done where
  work := fun work h => ⟨hG.work work h.1,hM work _ h.2⟩
  bucket := fun s i b h => ⟨hG.bucket s i b h.1,h.2⟩
  email := fun h => ⟨hG.email h.1,h.2⟩
  target := fun p t h => ⟨hG.target p t h.1,h.2⟩

/-- The states of the build phase: the website flags are those at its start. -/
def Building (start : Network) (pending : List Id) (G : Network → List Work → Prop)
    (w : World) : Prop :=
  Remembers start w ∧ w.net.deployWebsiteRequiredForSponsors = pending ∧ G w.net w.done

variable (start pending) in
/-- A program of the build phase. -/
abbrev Builds (G : Network → List Work → Prop) (x : Script Unit)
    (G' : Network → List Work → Prop) : Prop :=
  Triple (Building start pending G) x (fun _ => Building start pending G')
    (Interrupted start pending)

variable {G G' H : Network → List Work → Prop}

theorem Builds.weaken {x : Script Unit} (h : Builds start pending G x H)
    (hH : ∀ net done, H net done → G' net done) : Builds start pending G x G' :=
  h.weaken_post fun _ _ hb => ⟨hb.1,hb.2.1,hH _ _ hb.2.2⟩

theorem createS3WebsiteBucketName_ne_empty (wi : String) : createS3WebsiteBucketName wi ≠ "" := by
  simp [createS3WebsiteBucketName]

variable {sponsorId : Id} {i : ℕ}

/-- The only place where the object in memory can come to forget something. -/
theorem createBucket_building (hG : BuildFrame G) {campaign : SponsorCampaign} :
    Triple (fun w => Building start pending G w ∧ w.net.campaign? sponsorId i = some campaign)
      (createBucket env sponsorId i campaign) (fun _ => Building start pending G)
      (Interrupted start pending) := by
  apply Triple.branch
  · exact .pure fun w h => h.1
  apply Triple.get
  rintro w₀ ⟨⟨hr,hweb,hg⟩,hc⟩
  have hb := createS3WebsiteBucketName_ne_empty (env.websiteId w₀.calls)
  generalize createS3WebsiteBucketName (env.websiteId w₀.calls) = bucket at hb
  apply Triple.seq (Q := fun w => w = { w₀ with net := w₀.net.setBucket sponsorId i bucket })
  · apply assign_triple
    rintro _ rfl
    rfl
  apply call_triple
  · rintro _ rfl
    -- the website is in the bucket by now
    have hs : SiteUpdated (.newSite sponsorId i bucket :: w₀.done) sponsorId i bucket :=
      .inl (.head _)
    exact ⟨⟨(hr.1.work _).setBucket (.inl hs) hc hb,hr.2.work _⟩,hweb,
      hG.work _ (hG.bucket sponsorId i bucket hg)⟩
  · rintro _ rfl
    refine ⟨hr.2,fun hp => hr.1.setBucket (.inr ?_) hc hb⟩
    rw [hweb]
    exact hp sponsorId i bucket rfl

theorem call_building (hG : BuildFrame G) :
    Builds start pending G (call env work) fun net done => G net done ∧ work ∈ done := by
  apply call_remembers
  · exact fun w h => h.1
  · rintro w n ⟨-,hw,hg⟩ hr
    exact ⟨hr,hw,hG.work work hg,(.head _)⟩

theorem propagate_building (hG : BuildFrame G) (m : Mechanism) :
    Builds start pending G (propagate env sponsorId i m)
      fun net done => G net done ∧ (m = .twitter → .tweet sponsorId i ∈ done) := by
  cases m with
  | twitter => exact (call_building hG).weaken fun _ _ ⟨hg,hm⟩ => ⟨hg,fun _ => hm⟩
  | emailAutoresponder =>
    rw [propagate]
    apply assign_triple
    rintro w ⟨hr,hw,hg⟩
    refine ⟨⟨hr.1.clear rfl rfl fun item hi => .inl ?_,hr.2⟩,hw,hG.email hg,nofun⟩
    cases item with
    | email => rfl
    | _ => exact hi
  | staticDownload =>
    apply Triple.pure
    rintro w ⟨hr,hw,hg⟩
    exact ⟨hr,hw,hg,nofun⟩

variable {platform : Platform}

/-- The campaign is published if it is one for the platform. -/
theorem deployCampaign_building (hG : BuildFrame G) :
    Builds start pending G (deployCampaign env platform sponsorId i) fun net done =>
      G net done ∧ ∀ campaign, start.campaign? sponsorId i = some campaign →
        campaign.onPlatform platform = true → Published done platform sponsorId i campaign := by
  apply Triple.get
  rintro w₀ h₀
  apply raisePy_bind_remembers fun w hw => hw ▸ h₀.1
  intro campaign hget
  have hc := getCampaign_eq_ok_iff.mp hget
  -- at the start the campaign was the same, up to its bucket
  obtain ⟨c,hs,-,hm,hp⟩ := campaign?_of_layout h₀.1.1.layout hc
  apply Triple.ite
  · intro _
    apply Triple.seq
    · refine (createBucket_building hG).weaken_pre ?_
      rintro _ rfl
      exact ⟨h₀,hc⟩
    apply Triple.seq (call_building hG)
    have hG' := hG.and fun work done (h : .build platform sponsorId i ∈ done) =>
      mem_cons_of_mem work h
    apply Triple.seq (call_building hG')
    have hG'' := hG'.and fun work done (h : .upload platform sponsorId i ∈ done) =>
      mem_cons_of_mem work h
    refine (propagate_building hG'' _).weaken ?_
    rintro net done ⟨⟨⟨hg,hb⟩,hu⟩,ht⟩
    refine ⟨hg,fun c' hc' _ => ⟨hb,hu,?_⟩⟩
    rw [hs] at hc'
    cases hc'
    rw [hm]
    exact ht
  · intro hoff
    apply Triple.pure
    rintro _ rfl
    refine ⟨h₀.1,h₀.2.1,h₀.2.2,fun c' hc' hon => absurd ?_ hoff⟩
    rw [hs] at hc'
    cases hc'
    rwa [SponsorCampaign.onPlatform,hp] at hon

theorem mem_channelCampaigns {ci : Id} {s : Sponsor} : i ∈ channelCampaigns ci s ↔
      ∃ campaign, s.campaigns[i]? = some campaign ∧ campaign.propagationChannelId = ci := by
  simp only [channelCampaigns,mem_filter,mem_range,Option.any_eq_true,beq_iff_eq]
  refine ⟨fun h => h.2,fun h => ⟨?_,h⟩⟩
  obtain ⟨campaign,hc,-⟩ := h
  exact (List.getElem?_eq_some_iff.mp hc).1

/-- Every campaign that the target stands for is among those to come or has been published. -/
def TargetProgress (start : Network) (platform : Platform) (target : Target) (is : List ℕ)
    (done : List Work) : Prop :=
  ∀ i campaign, start.campaign? target.2 i = some campaign →
    campaign.propagationChannelId = target.1 → campaign.onPlatform platform = true →
    i ∈ is ∨ Published done platform target.2 i campaign

theorem BuildFrame.progress (hG : BuildFrame G) (start : Network) (platform : Platform)
    (t : Target) (is : List ℕ) :
    BuildFrame fun net done => G net done ∧ TargetProgress start platform t is done :=
  hG.and fun work done h i c hc hch hon =>
    (h i c hc hch hon).imp_right (.mono (subset_cons_self work done))

theorem deployCampaign_progress (hG : BuildFrame G) {t : Target} (i : ℕ) (is : List ℕ) :
    Builds start pending
      (fun net done => G net done ∧ TargetProgress start platform t (i :: is) done)
      (deployCampaign env platform t.2 i)
      fun net done => G net done ∧ TargetProgress start platform t is done := by
  have hf := hG.progress start platform t (i :: is)
  refine (deployCampaign_building hf).weaken ?_
  rintro net done ⟨⟨hg,ha⟩,hi⟩
  refine ⟨hg,fun j c hc hch hon => ?_⟩
  rcases ha j c hc hch hon with hj | hp
  · rcases mem_cons.mp hj with rfl | hj
    · exact .inr (hi c hc hon)
    · exact .inl hj
  · exact .inr hp

variable {net : Network}

theorem mem_removeTarget {platform platform' : Platform} {t t' : Target} :
    t' ∈ (net.removeTarget platform t).deployBuildsRequiredForCampaigns platform' ↔
      t' ∈ net.deployBuildsRequiredForCampaigns platform' ∧ ¬ (platform' = platform ∧ t' = t) := by
  by_cases hp : platform' = platform
  · subst hp
    simp [Network.removeTarget]
  · simp [Network.removeTarget,hp]

theorem Kept.removeTarget {done : List Work} (h : Kept start net done) {t : Target}
    (hp : Processed start done (.build platform t)) :
    Kept start (net.removeTarget platform t) done := by
  refine h.clear rfl rfl fun item hi => ?_
  cases item with
  | build platform' t' =>
    by_cases hpt : platform' = platform ∧ t' = t
    · obtain ⟨rfl,rfl⟩ := hpt
      exact .inr hp
    · exact .inl ⟨hi.1,mem_removeTarget.mpr ⟨hi.2,hpt⟩⟩
  | _ => exact .inl hi

/-- A target is processed before it is removed. -/
theorem deployTarget_building (hG : BuildFrame G) {t : Target} :
    Builds start pending G (deployTarget env platform t)
      fun net done => G net done ∧ t ∉ net.deployBuildsRequiredForCampaigns platform := by
  apply Triple.get
  intro w₀ h₀
  have hr : ∀ w, w = w₀ → Remembers start w := fun _ hw => hw ▸ h₀.1
  apply raisePy_bind_remembers hr
  intro _ _
  apply raisePy_bind_remembers hr
  intro s hs
  have hget := Table.get?_eq_some_iff.mpr (lookup_eq_ok_iff.mp hs)
  have hpr : TargetProgress start platform t (channelCampaigns t.1 s) w₀.done := by
    intro i c hc hch _
    obtain ⟨c',hc',hcha,-,-⟩ := campaign?_of_layout h₀.1.1.layout.symm hc
    rw [Network.campaign?,hget] at hc'
    exact .inl (mem_channelCampaigns.mpr ⟨c',hc',hcha.trans hch⟩)
  apply Triple.seq
  · refine (Triple.forM (I := fun is => Building start pending fun net done =>
      G net done ∧ TargetProgress start platform t is done)
      (deployCampaign_progress hG) _).weaken_pre ?_
    rintro _ rfl
    exact ⟨h₀.1,h₀.2.1,h₀.2.2,hpr⟩
  apply assign_triple
  rintro w ⟨hr,hweb,hg,hall⟩
  have hp : Processed start w.done (.build platform t) :=
    fun i c hc hch hon => (hall i c hc hch hon).resolve_left not_mem_nil
  refine ⟨⟨hr.1.removeTarget hp,hr.2⟩,hweb,hG.target platform t hg,?_⟩
  intro hm
  exact (mem_removeTarget.mp hm).2 ⟨rfl,rfl⟩

theorem BuildFrame.targets (hG : BuildFrame G) (platform : Platform) (targets : List Target) :
    BuildFrame fun net done =>
      G net done ∧ net.deployBuildsRequiredForCampaigns platform ⊆ targets where
  work := fun work h => ⟨hG.work work h.1,h.2⟩
  bucket := fun s i b h => ⟨hG.bucket s i b h.1,h.2⟩
  email := fun h => ⟨hG.email h.1,h.2⟩
  target := fun p t h => ⟨hG.target p t h.1,fun _ hm => h.2 (mem_removeTarget.mp hm).1⟩

theorem deployPlatform_building (hG : BuildFrame G) :
    Builds start pending G (deployPlatform env platform)
      fun net done => G net done ∧ net.deployBuildsRequiredForCampaigns platform = [] := by
  let I : List Target → Network → List Work → Prop := fun targets net done =>
    G net done ∧ net.deployBuildsRequiredForCampaigns platform ⊆ targets
  have hs : ∀ target targets,
      Builds start pending (I (target :: targets)) (deployTarget env platform target)
        (I targets) := by
    intro target targets
    refine (deployTarget_building (hG.targets platform (target :: targets))).weaken ?_
    rintro net done ⟨⟨hg,hsub⟩,hn⟩
    refine ⟨hg,fun t ht => ?_⟩
    exact (mem_cons.mp (hsub ht)).resolve_left fun h => hn (h ▸ ht)
  apply Triple.get
  intro w₀ h₀
  apply Triple.seq
  · refine (Triple.forM (I := fun targets => Building start pending (I targets)) hs _).weaken_pre ?_
    rintro _ rfl
    exact ⟨h₀.1,h₀.2.1,h₀.2.2,fun _ h => mem_dedup.mpr h⟩
  apply Triple.branch
  · apply save_triple
    rintro w ⟨hr,hw,hg,hsub⟩
    exact ⟨⟨hr.1,hr.1⟩,hw,hg,subset_nil.mp hsub⟩
  · apply Triple.pure
    rintro w ⟨hr,hw,hg,hsub⟩
    exact ⟨hr,hw,hg,subset_nil.mp hsub⟩

/-- No platform but those to come has targets. -/
def Network.BuiltExcept (net : Network) (platforms : List Platform) : Prop :=
  ∀ platform ∈ clientPlatforms,
    platform ∈ platforms ∨ net.deployBuildsRequiredForCampaigns platform = []

theorem BuildFrame.builtExcept (hG : BuildFrame G) (platforms : List Platform) :
    BuildFrame fun net done => G net done ∧ net.BuiltExcept platforms where
  work := fun work h => ⟨hG.work work h.1,h.2⟩
  bucket := fun s i b h => ⟨hG.bucket s i b h.1,h.2⟩
  email := fun h => ⟨hG.email h.1,h.2⟩
  target := fun p t h => ⟨hG.target p t h.1,fun p' hp' => (h.2 p' hp').imp_right fun hn =>
    eq_nil_iff_forall_not_mem.mpr fun _ hm => by simpa [hn] using (mem_removeTarget.mp hm).1⟩

theorem deployBuilds_building (hG : BuildFrame G) :
    Builds start pending G (deployBuilds env) fun net done => G net done ∧ net.BuiltExcept [] := by
  let I : List Platform → Network → List Work → Prop := fun platforms net done =>
    G net done ∧ net.BuiltExcept platforms
  have hs : ∀ p platforms,
      Builds start pending (I (p :: platforms)) (deployPlatform env p) (I platforms) := by
    intro platform platforms
    refine (deployPlatform_building (hG.builtExcept (platform :: platforms))).weaken ?_
    rintro net done ⟨⟨hg,hb⟩,hn⟩
    refine ⟨hg,fun p hp => ?_⟩
    rcases hb p hp with hm | hp
    · rcases mem_cons.mp hm with rfl | hm
      · exact .inr hn
      · exact .inl hm
    · exact .inr hp
  refine (Triple.forM (I := fun platforms => Building start pending (I platforms)) hs
    clientPlatforms).weaken_pre ?_
  rintro w ⟨hr,hw,hg⟩
  exact ⟨hr,hw,hg,fun p hp => .inl hp⟩

/-! ### The other phases -/

theorem deployData_remembers
    (hF : ∀ net, F net → F { net with deployDataRequiredForAll := false }) :
    Phase start pending F (deployData env)
      fun net => F net ∧ net.deployDataRequiredForAll = false := by
  apply Triple.get
  rintro w₀ ⟨hr,hf⟩
  apply Triple.ite
  · intro _
    apply raisePy_bind_remembers fun w hw => hw ▸ hr
    intro tcsData _
    apply Triple.bind (Q := fun _ w => Remembers start w ∧ w.net = w₀.net)
    · refine (Triple.foldlM (I := fun _ _ w => Remembers start w ∧ w.net = w₀.net)
        (fun _ _ _ => deployDataToHost_frame fun _ _ _ h => h) _ _).weaken_pre ?_
      rintro _ rfl
      exact ⟨hr,rfl⟩
    intro ok
    apply Triple.seq (Q := fun w => Remembers start w ∧ w.net = w₀.net ∧ .data ∈ w.done)
    · apply Triple.branch
      · apply Triple.modify
        rintro w ⟨hr',hn⟩
        exact ⟨hr'.work .data _,hn,(.head _)⟩
      · exact .throw fun w h => h.1.interrupted pending _
    refine clear_done rfl rfl ?_ fun w hr hn => ⟨hr,hn ▸ ⟨hF _ hf,rfl⟩⟩
    intro done item hi hd
    cases item with
    | data => exact .inr hd
    | _ => exact .inl hi
  · intro ho
    apply Triple.pure
    rintro _ rfl
    exact ⟨hr,hf,Bool.not_eq_true _ ▸ ho⟩

/-- A configuration that is pushed has only its own flag cleared. -/
theorem pushConfig_remembers {r : Network → Bool} {clear : Network → Network}
    (hF : ∀ net, F net → F (clear net)) (hs : ∀ net, (clear net).sponsors = net.sponsors)
    (hw : ∀ net, (clear net).deployWebsiteRequiredForSponsors =
      net.deployWebsiteRequiredForSponsors) (hc : ∀ net, r (clear net) = false)
    (hi : ∀ net done item, net.flagged item → work ∈ done →
      (clear net).flagged item ∨ Processed start done item) :
    Phase start pending F (pushConfig env r clear work) fun net => F net ∧ r net = false := by
  apply Triple.get
  rintro w₀ ⟨hr,hf⟩
  apply Triple.ite
  · intro _
    apply Triple.seq (call_done hr)
    exact clear_done (hs _) (hw _) (hi _) fun w hr hn => ⟨hr,hn ▸ ⟨hF _ hf,hc _⟩⟩
  · intro ho
    apply Triple.pure
    rintro _ rfl
    exact ⟨hr,hf,Bool.not_eq_true _ ▸ ho⟩

theorem deployStatsConfig_remembers
    (hF : ∀ net, F net → F { net with deployStatsConfigRequired := false }) :
    Phase start pending F (deployStatsConfig env)
      fun net => F net ∧ net.deployStatsConfigRequired = false := by
  refine pushConfig_remembers hF (fun _ => rfl) (fun _ => rfl) (fun _ => rfl) ?_
  intro net done item hi hd
  cases item with
  | stats => exact .inr hd
  | _ => exact .inl hi

theorem deployEmailConfig_remembers
    (hF : ∀ net, F net → F { net with deployEmailConfigRequired := false }) :
    Phase start pending F (deployEmailConfig env)
      fun net => F net ∧ net.deployEmailConfigRequired = false := by
  refine pushConfig_remembers hF (fun _ => rfl) (fun _ => rfl) (fun _ => rfl) ?_
  intro net done item hi hd
  cases item with
  | email => exact .inr hd
  | _ => exact .inl hi

theorem removeThroughProvider_remembers {host : Host}
    (hF : ∀ net hosts, F net → F { net with hostsToRemoveFromProviders := hosts }) :
    Phase start pending F (removeThroughProvider env host) F := by
  apply Triple.seq (Q := fun w => Remembers start w ∧ F w.net)
  · apply call_remembers fun w h => h.1
    rintro w n ⟨-,hf⟩ hr
    exact ⟨hr,hf⟩
  apply assign_triple
  rintro w ⟨hr,hf⟩
  exact ⟨⟨hr.1.clear rfl rfl fun item hi => .inl (by cases item <;> exact hi),hr.2⟩,hF _ _ hf⟩

theorem removeHostsFromProviders_remembers
    (hF : ∀ net hosts, F net → F { net with hostsToRemoveFromProviders := hosts }) :
    Phase start pending F (removeHostsFromProviders env) F := by
  have hre : ∀ host (l : RemovalLocals),
      Phase start pending F (do removeThroughProvider env host; pure l) F := fun host l =>
    .bind (removeThroughProvider_remembers hF) fun _ => .skip
  have hs : ∀ host l, Phase start pending F (removeHostFromProvider env l host) F := by
    intro host l
    apply Triple.branch
    · exact hre host _
    apply Triple.when
    apply Triple.branch
    · exact hre host _
    · exact .throw fun w h => h.1.interrupted pending _
  apply Triple.get
  intro w₀ h₀
  apply Triple.bind (Q := fun _ w => Remembers start w ∧ F w.net)
  · refine (Triple.foldlM (I := fun _ _ w => Remembers start w ∧ F w.net)
      (fun host _ l => hs host l) _ _).weaken_pre ?_
    rintro _ rfl
    exact h₀
  intro l
  apply Triple.when
  apply save_triple
  rintro w ⟨hr,hf⟩
  exact ⟨⟨hr.1,hr.1⟩,hf⟩

theorem deployOsls_remembers
    (hF : ∀ net, F net → F { net with deployPaveOslsRequiredForPropagationChannels := [] }) :
    Phase start pending F (deployOsls env)
      fun net => F net ∧ net.deployPaveOslsRequiredForPropagationChannels = [] := by
  apply Triple.get
  rintro w₀ ⟨hr,hf⟩
  apply Triple.ite
  · intro _
    apply Triple.seq (call_done hr)
    refine clear_done rfl rfl ?_ fun w hr hn => ⟨hr,hn ▸ ⟨hF _ hf,rfl⟩⟩
    intro done item hi hd
    cases item with
    | osls id => exact .inr ⟨_,hd,hi⟩
    | _ => exact .inl hi
  · intro hnil
    apply Triple.pure
    rintro _ rfl
    exact ⟨hr,hf,not_not.mp hnil⟩

/-! ### Website -/

/-- Every campaign of the sponsor is among those to come or has its website in its bucket. -/
def SiteProgress (start : Network) (sponsorId : Id) (is : List ℕ) (net : Network)
    (done : List Work) : Prop :=
  ∀ i campaign, start.campaign? sponsorId i = some campaign →
    i ∈ is ∨ ∃ bucket, net.bucket? sponsorId i = some bucket ∧
      SiteUpdated done sponsorId i bucket

/-- Facts about the database that no statement of the website phase undoes. -/
structure WebsiteFrame (F : Network → Prop) : Prop where
  bucket : ∀ {net} sponsorId i bucket, F net → F (net.setBucket sponsorId i bucket)
  sponsors : ∀ {net} sponsorIds, F net →
    F { net with deployWebsiteRequiredForSponsors := sponsorIds }

/-- The states in which the website is deployed for a sponsor; `sponsors` are those flagged. -/
structure Updating (start : Network) (F : Network → Prop) (sponsors : List Id) (sponsorId : Id)
    (is : List ℕ) (w : World) : Prop where
  remembers : Remembers start w
  frame : F w.net
  flagged : w.net.deployWebsiteRequiredForSponsors = sponsors
  progress : SiteProgress start sponsorId is w.net w.done

variable {sponsors : List Id}

theorem createSavedBucket_updating (hF : WebsiteFrame F) (hm : sponsorId ∈ sponsors) (is : List ℕ)
    {campaign : SponsorCampaign} :
    Triple (fun w => Updating start F sponsors sponsorId (i :: is) w ∧
        w.net.campaign? sponsorId i = some campaign) (createSavedBucket env sponsorId i campaign)
      (fun _ w => Updating start F sponsors sponsorId (i :: is) w ∧
        ∃ bucket, w.net.bucket? sponsorId i = some bucket) (Interrupted start pending) := by
  apply Triple.ite
  · intro hn
    apply Triple.pure
    rintro w ⟨hu,hc⟩
    exact ⟨hu,_,by rw [bucket?_of_campaign? hc,if_pos hn]⟩
  intro _
  apply Triple.get
  rintro w₀ ⟨hu,hc⟩
  have hb := createS3WebsiteBucketName_ne_empty (env.websiteId w₀.calls)
  generalize createS3WebsiteBucketName (env.websiteId w₀.calls) = bucket at hb
  have hk : Kept start (w₀.net.setBucket sponsorId i bucket) w₀.done :=
    hu.remembers.1.setBucket (.inr (hu.flagged ▸ hm)) hc hb
  have hp : SiteProgress start sponsorId (i :: is) (w₀.net.setBucket sponsorId i bucket)
      w₀.done := by
    intro j c hj
    by_cases hji : j = i
    · exact .inl (hji ▸ (.head _))
    · rw [bucket?_setBucket_of_ne fun h => hji h.2]
      exact hu.progress j c hj
  apply Triple.seq (Q := fun w => w = { w₀ with net := w₀.net.setBucket sponsorId i bucket })
  · apply assign_triple
    rintro _ rfl
    rfl
  apply save_triple
  rintro _ rfl
  exact ⟨⟨⟨hk,hk⟩,hF.bucket sponsorId i bucket hu.frame,hu.flagged,hp⟩,
    bucket,bucket?_setBucket_self hc hb⟩

theorem deployCampaignSite_updating (hF : WebsiteFrame F) (hm : sponsorId ∈ sponsors) (i : ℕ)
    (is : List ℕ) :
    Triple (Updating start F sponsors sponsorId (i :: is)) (deployCampaignSite env sponsorId i)
      (fun _ => Updating start F sponsors sponsorId is) (Interrupted start pending) := by
  apply Triple.get
  intro w₀ h₀
  apply raisePy_bind_remembers fun w hw => hw ▸ h₀.remembers
  intro campaign hg
  apply Triple.seq
  · refine (createSavedBucket_updating hF hm is).weaken_pre ?_
    rintro _ rfl
    exact ⟨h₀,getCampaign_eq_ok_iff.mp hg⟩
  apply Triple.get
  rintro w₁ ⟨h₁,bucket,hbu⟩
  apply raisePy_bind_remembers fun w hw => hw ▸ h₁.remembers
  intro campaign₁ hg₁
  -- the bucket that is loaded is the one the campaign has now
  have hn : textOrEmpty campaign₁.s3BucketName = bucket := by
    rw [bucket?_of_campaign? (getCampaign_eq_ok_iff.mp hg₁)] at hbu
    by_cases ht : textTruthy campaign₁.s3BucketName
    · rw [if_pos ht] at hbu
      exact Option.some.inj hbu
    · rw [if_neg ht] at hbu
      cases hbu
  rw [hn]
  apply call_remembers fun w hw => hw ▸ h₁.remembers
  rintro _ n rfl hr
  refine ⟨hr,h₁.frame,h₁.flagged,fun j c hj => ?_⟩
  rcases h₁.progress j c hj with hmem | ⟨b,hb,hs⟩
  · rcases mem_cons.mp hmem with rfl | hmem
    · exact .inr ⟨bucket,hbu,.inr (.head _)⟩
    · exact .inl hmem
  · exact .inr ⟨b,hb,hs.mono (subset_cons_self _ _)⟩

/-- The flag of a sponsor may be cleared when all its campaigns have their websites. -/
theorem Kept.removeSponsor {done : List Work} (h : Kept start net done)
    (hp : SiteProgress start sponsorId [] net done) : Kept start { net with
      deployWebsiteRequiredForSponsors :=
        net.deployWebsiteRequiredForSponsors.filter (· ≠ sponsorId) } done where
  layout := h.layout
  items := by
    intro item hf
    refine (h.items item hf).elim (fun hi => ?_) .inr
    cases item with
    | website s =>
      by_cases hs : s = sponsorId
      · subst hs
        refine .inr fun i c hc => ?_
        obtain ⟨bucket,-,hsi⟩ := (hp i c hc).resolve_left not_mem_nil
        exact ⟨bucket,hsi⟩
      · exact .inl (mem_filter.mpr ⟨hi,by simpa using hs⟩)
    | _ => exact .inl hi
  sites := by
    intro s i bucket hn hso
    have hso' : net.bucket? s i = some bucket := hso
    by_cases hs : s = sponsorId
    · subst hs
      obtain ⟨c,hc,-⟩ := Option.bind_eq_some_iff.mp hso'
      obtain ⟨c',hc',-⟩ := campaign?_of_layout h.layout hc
      obtain ⟨b,hb,hsi⟩ := (hp i c' hc').resolve_left not_mem_nil
      rw [hso'] at hb
      exact .inl (Option.some.inj hb ▸ hsi)
    · refine (h.sites s i bucket hn hso').imp_right fun hm => ?_
      exact mem_filter.mpr ⟨hm,by simpa using hs⟩

theorem deploySponsorSite_updating (hF : WebsiteFrame F) (hm : sponsorId ∈ sponsors) :
    Phase start pending (fun net => F net ∧ net.deployWebsiteRequiredForSponsors = sponsors)
      (deploySponsorSite env sponsorId) fun net =>
        F net ∧ net.deployWebsiteRequiredForSponsors = sponsors.filter (· ≠ sponsorId) := by
  apply Triple.get
  rintro w₀ ⟨hr,hf,hweb⟩
  apply raisePy_bind_remembers fun w hw => hw ▸ hr
  intro s hs
  have hget := Table.get?_eq_some_iff.mpr (lookup_eq_ok_iff.mp hs)
  have hp : SiteProgress start sponsorId (List.range s.campaigns.length) w₀.net w₀.done := by
    intro i c hc
    obtain ⟨c',hc',-⟩ := campaign?_of_layout hr.1.layout.symm hc
    rw [Network.campaign?,hget] at hc'
    exact .inl (mem_range.mpr (List.getElem?_eq_some_iff.mp hc').1)
  apply Triple.seq
  · refine (Triple.forM (I := Updating start F sponsors sponsorId)
      (deployCampaignSite_updating hF hm) _).weaken_pre ?_
    rintro _ rfl
    exact ⟨hr,hf,hweb,hp⟩
  apply clear_save_remembers
  · intro w hu
    exact hu.remembers.1.removeSponsor hu.progress
  · intro w hu hr'
    exact ⟨hr',hF.sponsors _ hu.frame,by rw [hu.flagged]⟩

theorem deployWebsite_remembers (hF : WebsiteFrame F) :
    Phase start pending F (deployWebsite env)
      fun net => F net ∧ net.deployWebsiteRequiredForSponsors = [] := by
  -- the sponsors that are flagged are those to come
  let I : List Id → Network → Prop := fun sponsors net =>
    F net ∧ sponsors.Nodup ∧ ∀ s, s ∈ net.deployWebsiteRequiredForSponsors ↔ s ∈ sponsors
  have hst : ∀ s sponsors,
      Phase start pending (I (s :: sponsors)) (deploySponsorSite env s) (I sponsors) := by
    rintro s sponsors w ⟨hr,hf,hnd,hmem⟩
    have hs := (hmem s).mpr (.head _)
    refine (deploySponsorSite_updating hF hs).weaken_post ?_ w ⟨hr,hf,rfl⟩
    rintro _ w' ⟨hr',hf',hweb'⟩
    refine ⟨hr',hf',hnd.of_cons,fun s' => ?_⟩
    have hnot : s ∉ sponsors := (nodup_cons.mp hnd).1
    have hne : s' ∈ sponsors → s' ≠ s := fun h => ne_of_mem_of_not_mem h hnot
    rw [hweb',mem_filter,hmem,mem_cons]
    constructor
    · rintro ⟨h | h,hd⟩
      · exact absurd h (by simpa using hd)
      · exact h
    · exact fun h => ⟨.inr h,by simpa using hne h⟩
  apply Triple.get
  rintro w₀ ⟨hr,hf⟩
  apply Triple.ite
  · intro _
    apply Triple.seq (Q := fun w =>
      Remembers start w ∧ I w₀.net.deployWebsiteRequiredForSponsors.dedup w.net)
    · apply call_remembers fun w hw => hw ▸ hr
      rintro _ n rfl hr'
      exact ⟨hr',hf,nodup_dedup _,fun s => mem_dedup.symm⟩
    refine (Triple.forM (I := fun sponsors w => Remembers start w ∧ I sponsors w.net)
      hst _).weaken_post ?_
    rintro _ w ⟨hr',hf',-,hmem⟩
    exact ⟨hr',hf',eq_nil_iff_forall_not_mem.mpr fun s hs => by simpa using (hmem s).mp hs⟩
  · intro hnil
    apply Triple.pure
    rintro _ rfl
    exact ⟨hr,hf,by simpa using hnil⟩

/-! ### The whole of `deploy` -/

/-- The flags that are cleared when the website phase starts. -/
structure Network.BeforeWebsite (net : Network) : Prop where
  implementation : net.deployImplementationRequiredForHosts = []
  builds : net.BuiltExcept []
  data : net.deployDataRequiredForAll = false
  stats : net.deployStatsConfigRequired = false
  email : net.deployEmailConfigRequired = false

theorem beforeWebsite_frame : WebsiteFrame Network.BeforeWebsite where
  bucket := fun _ _ _ h => ⟨h.1,h.2,h.3,h.4,h.5⟩
  sponsors := fun _ h => ⟨h.1,h.2,h.3,h.4,h.5⟩

theorem not_flagged_of_beforeWebsite (h : net.BeforeWebsite)
    (hw : net.deployWebsiteRequiredForSponsors = [])
    (ho : net.deployPaveOslsRequiredForPropagationChannels = []) (item : Item) :
    ¬ net.flagged item := by
  cases item with
  | host id => simp [Network.flagged,h.implementation]
  | build platform target =>
    rintro ⟨hp,hm⟩
    have hn := (h.builds platform hp).resolve_left not_mem_nil
    rw [hn] at hm
    cases hm
  | data => simp [Network.flagged,h.data]
  | stats => simp [Network.flagged,h.stats]
  | email => simp [Network.flagged,h.email]
  | website sponsorId => simp [Network.flagged,hw]
  | osls channelId => simp [Network.flagged,ho]

/-- An attempt forgets nothing; when it returns, no flag is left. -/
theorem deploy_remembers :
    Triple (fun w => Remembers start w ∧ w.net.deployWebsiteRequiredForSponsors = pending)
      (deploy env) (fun _ w => Remembers start w ∧ ∀ item, ¬ w.net.flagged item)
      (Interrupted start pending) := by
  apply Triple.get
  intro w₀ h₀
  apply raisePy_bind_remembers fun w hw => hw ▸ h₀.1
  intro _ _
  apply Triple.seq ((deployImplementation_remembers
    (F := fun net => net.deployWebsiteRequiredForSponsors = pending) fun _ h => h).weaken_pre
    fun w hw => hw ▸ h₀)
  apply Triple.seq (deployBuilds_building
    (G := fun net _ => net.deployImplementationRequiredForHosts = [])
    ⟨fun _ h => h,fun _ _ _ h => h,fun h => h,fun _ _ h => h⟩)
  -- from here on only the flags that are cleared matter
  apply Triple.seq ((deployData_remembers (F := fun net =>
    net.deployImplementationRequiredForHosts = [] ∧ net.BuiltExcept []) fun _ h => h).weaken_pre
    fun w h => ⟨h.1,h.2.2⟩)
  apply Triple.seq (deployStatsConfig_remembers (F := fun net =>
    (net.deployImplementationRequiredForHosts = [] ∧ net.BuiltExcept []) ∧
      net.deployDataRequiredForAll = false) fun _ h => h)
  apply Triple.seq (deployEmailConfig_remembers (F := fun net =>
    ((net.deployImplementationRequiredForHosts = [] ∧ net.BuiltExcept []) ∧
      net.deployDataRequiredForAll = false) ∧ net.deployStatsConfigRequired = false) fun _ h => h)
  apply Triple.seq ((removeHostsFromProviders_remembers (F := Network.BeforeWebsite)
    fun _ _ h => ⟨h.1,h.2,h.3,h.4,h.5⟩).weaken_pre
    fun w h => ⟨h.1,h.2.1.1.1.1,h.2.1.1.1.2,h.2.1.1.2,h.2.1.2,h.2.2⟩)
  apply Triple.seq (deployWebsite_remembers beforeWebsite_frame)
  refine (deployOsls_remembers (F := fun net => net.BeforeWebsite ∧
    net.deployWebsiteRequiredForSponsors = []) ?_).weaken_post ?_
  · rintro net ⟨h,hweb⟩
    exact ⟨⟨h.1,h.2,h.3,h.4,h.5⟩,hweb⟩
  · rintro _ w ⟨hr,⟨h,hweb⟩,ho⟩
    exact ⟨hr,not_flagged_of_beforeWebsite h hweb ho⟩

end Phases

end Psiphon.Ops
