import Psiphon.Ops.Deploy

/-!
# What is still to be deployed

A database has forgotten nothing when every item that was flagged is still flagged or was processed,
and every campaign with a new bucket has its website in it, or its sponsor is flagged.
-/

namespace Psiphon.Ops

/-! ### Items of work -/

/-- What a flag stands for. -/
inductive Item where
  | host (id : Id)
  | build (platform : Platform) (target : Target)
  | data
  | stats
  | email
  | website (sponsorId : Id)
  | osls (propagationChannelId : Id)

def Network.flagged (net : Network) : Item → Prop
  | .host id => id ∈ net.deployImplementationRequiredForHosts
  | .build platform target =>
    platform ∈ clientPlatforms ∧ target ∈ net.deployBuildsRequiredForCampaigns platform
  | .data => net.deployDataRequiredForAll = true
  | .stats => net.deployStatsConfigRequired = true
  | .email => net.deployEmailConfigRequired = true
  | .website sponsorId => sponsorId ∈ net.deployWebsiteRequiredForSponsors
  | .osls channelId => channelId ∈ net.deployPaveOslsRequiredForPropagationChannels

def Network.bucket? (net : Network) (sponsorId : Id) (i : ℕ) : Option String :=
  (net.campaign? sponsorId i).bind fun campaign =>
    if textTruthy campaign.s3BucketName then campaign.s3BucketName else none

/-- `update_static_site_content` has succeeded for the campaign and this bucket. -/
def SiteUpdated (done : List Work) (sponsorId : Id) (i : ℕ) (bucket : String) : Prop :=
  .newSite sponsorId i bucket ∈ done ∨ .site sponsorId i bucket ∈ done

/-- The campaign has been built, uploaded and, if it is one on Twitter, tweeted. -/
def Published (done : List Work) (platform : Platform) (sponsorId : Id) (i : ℕ)
    (campaign : SponsorCampaign) : Prop :=
  .build platform sponsorId i ∈ done ∧ .upload platform sponsorId i ∈ done ∧
    (campaign.propagationMechanismType = .twitter → .tweet sponsorId i ∈ done)

/-- All the work for the item, as it is in the database `net`, has succeeded. -/
def Processed (net : Network) (done : List Work) : Item → Prop
  | .host id => ∃ hosts, .implementation hosts ∈ done ∧ id ∈ hosts
  | .build platform target => ∀ i campaign, net.campaign? target.2 i = some campaign →
    campaign.propagationChannelId = target.1 → campaign.onPlatform platform = true →
    Published done platform target.2 i campaign
  | .data => .data ∈ done
  | .stats => .stats ∈ done
  | .email => .email ∈ done
  | .website sponsorId => ∀ i campaign, net.campaign? sponsorId i = some campaign →
    ∃ bucket, SiteUpdated done sponsorId i bucket
  | .osls channelId => ∃ channels, .paveOsls channels ∈ done ∧ channelId ∈ channels

/-- Everything that was flagged in `start` has been done, and so has the website of every
campaign that has got a bucket since then. -/
structure Complete (start net : Network) (done : List Work) : Prop where
  items : ∀ item, start.flagged item → Processed start done item
  sites : ∀ sponsorId i bucket, start.bucket? sponsorId i = none →
    net.bucket? sponsorId i = some bucket → SiteUpdated done sponsorId i bucket

/-! ### What deploying leaves of the sponsors -/

def SponsorCampaign.forgetBucket (campaign : SponsorCampaign) : SponsorCampaign :=
  { campaign with s3BucketName := none }

def Sponsor.forgetBuckets (sponsor : Sponsor) : Sponsor :=
  { sponsor with campaigns := sponsor.campaigns.map .forgetBucket }

theorem Sponsor.id_forgetBuckets (s : Sponsor) : Sponsor.id s.forgetBuckets = Sponsor.id s := rfl

/-- The sponsors, up to the names of the buckets. -/
def Network.layout (net : Network) : Table Sponsor.id :=
  net.sponsors.map Sponsor.forgetBuckets Sponsor.id_forgetBuckets

theorem Sponsor.forgetBuckets_setBucket (i : ℕ) (bucket : String) (s : Sponsor) :
    (s.setBucket i bucket).forgetBuckets = s.forgetBuckets := by
  simp only [Sponsor.forgetBuckets,Sponsor.setBucket,Sponsor.mk.injEq,true_and,and_true]
  apply List.ext_getElem?
  intro j
  simp only [List.getElem?_map,List.getElem?_modify]
  by_cases hij : i = j
  · subst hij
    cases s.campaigns[i]? <;> simp [SponsorCampaign.forgetBucket]
  · simp [hij]

theorem layout_setBucket (net : Network) (sponsorId : Id) (i : ℕ) (bucket : String) :
    (net.setBucket sponsorId i bucket).layout = net.layout :=
  Table.map_modify _ _ _ (Sponsor.id_setBucket i bucket) _ _
    (Sponsor.forgetBuckets_setBucket i bucket)

theorem campaign?_layout (net : Network) (sponsorId : Id) (i : ℕ) :
    (net.layout.get? sponsorId).bind (·.campaigns[i]?) =
      (net.campaign? sponsorId i).map SponsorCampaign.forgetBucket := by
  rw [Network.layout,Table.get?_map,Network.campaign?]
  cases net.sponsors.get? sponsorId with
  | none => rfl
  | some sponsor => simp [Sponsor.forgetBuckets]

variable {campaign : SponsorCampaign} {sponsorId : Id} {i : ℕ}

theorem campaign?_of_layout {net net' : Network} (h : net.layout = net'.layout)
    (hc : net.campaign? sponsorId i = some campaign) :
    ∃ campaign', net'.campaign? sponsorId i = some campaign' ∧
      campaign'.propagationChannelId = campaign.propagationChannelId ∧
      campaign'.propagationMechanismType = campaign.propagationMechanismType ∧
      campaign'.platforms = campaign.platforms := by
  have hl := campaign?_layout net' sponsorId i
  rw [← h,campaign?_layout,hc] at hl
  obtain ⟨campaign',hc',hf⟩ := Option.map_eq_some_iff.mp hl.symm
  simp only [SponsorCampaign.forgetBucket,SponsorCampaign.mk.injEq,true_and] at hf
  exact ⟨campaign',hc',hf⟩

theorem campaign?_setBucket (net : Network) (sponsorId : Id) (i : ℕ) (bucket : String)
    (sponsorId' : Id) (i' : ℕ) : (net.setBucket sponsorId i bucket).campaign? sponsorId' i' =
      if sponsorId' = sponsorId ∧ i' = i then (net.campaign? sponsorId i).map fun campaign =>
          { campaign with s3BucketName := some bucket }
      else net.campaign? sponsorId' i' := by
  simp only [Network.campaign?,Network.setBucket,Table.get?_modify]
  by_cases hs : sponsorId' = sponsorId
  · subst hs
    by_cases hi : i' = i
    · subst hi
      cases net.sponsors.get? sponsorId' <;> simp [Sponsor.setBucket]
    · cases net.sponsors.get? sponsorId' <;> simp [hi,Sponsor.setBucket,Ne.symm hi]
  · simp [hs]

variable {net : Network}

theorem bucket?_of_campaign? (hc : net.campaign? sponsorId i = some campaign) :
    net.bucket? sponsorId i =
      if textTruthy campaign.s3BucketName then some (textOrEmpty campaign.s3BucketName)
      else none := by
  rw [Network.bucket?,hc,Option.bind_some]
  cases campaign.s3BucketName with
  | none => simp [textTruthy,textOrEmpty]
  | some name => rfl

variable {bucket : String}

theorem bucket?_setBucket_of_ne {sponsorId sponsorId' : Id} {i i' : ℕ}
    (h : ¬ (sponsorId' = sponsorId ∧ i' = i)) :
    (net.setBucket sponsorId i bucket).bucket? sponsorId' i' = net.bucket? sponsorId' i' := by
  rw [Network.bucket?,campaign?_setBucket,if_neg h,Network.bucket?]

theorem bucket?_setBucket_self (hc : net.campaign? sponsorId i = some campaign) (hb : bucket ≠ "") :
    (net.setBucket sponsorId i bucket).bucket? sponsorId i = some bucket := by
  have hs : (net.setBucket sponsorId i bucket).campaign? sponsorId i =
      some { campaign with s3BucketName := some bucket } := by
    rw [campaign?_setBucket,if_pos ⟨rfl,rfl⟩,hc,Option.map_some]
  rw [bucket?_of_campaign? hs,if_pos]
  · rfl
  · simpa [textTruthy,textOrEmpty] using hb

/-! ### Nothing is forgotten -/

/-- Nothing is forgotten since the start: what is no longer flagged has been processed, and a
campaign with a new bucket has its website in it, unless the website phase is still to come for its
sponsor. -/
structure Kept (start net : Network) (done : List Work) : Prop where
  layout : net.layout = start.layout
  items : ∀ item, start.flagged item → net.flagged item ∨ Processed start done item
  sites : ∀ sponsorId i bucket, start.bucket? sponsorId i = none →
    net.bucket? sponsorId i = some bucket →
    SiteUpdated done sponsorId i bucket ∨ sponsorId ∈ net.deployWebsiteRequiredForSponsors

variable {done done' : List Work}

theorem SiteUpdated.mono (h : done ⊆ done') (hs : SiteUpdated done sponsorId i bucket) :
    SiteUpdated done' sponsorId i bucket :=
  hs.imp (fun hm => h hm) fun hm => h hm

theorem Published.mono (h : done ⊆ done') {p : Platform}
    (hp : Published done p sponsorId i campaign) : Published done' p sponsorId i campaign :=
  ⟨h hp.1,h hp.2.1,fun ht => h (hp.2.2 ht)⟩

theorem Processed.mono (h : done ⊆ done') {item : Item} (hp : Processed net done item) :
    Processed net done' item := by
  cases item with
  | host id =>
    obtain ⟨hosts,hm,hid⟩ := hp
    exact ⟨hosts,h hm,hid⟩
  | build platform target =>
    intro i campaign hc hch hpl
    exact (hp i campaign hc hch hpl).mono h
  | website sponsorId =>
    intro i campaign hc
    obtain ⟨bucket,hs⟩ := hp i campaign hc
    exact ⟨bucket,hs.mono h⟩
  | osls channelId =>
    obtain ⟨c,hm,hid⟩ := hp
    exact ⟨c,h hm,hid⟩
  | data => exact h hp
  | stats => exact h hp
  | email => exact h hp

namespace Kept

variable {start net net' : Network} {done done' : List Work}

theorem refl (start : Network) (done : List Work) : Kept start start done where
  layout := rfl
  items := fun _ h => .inl h
  sites := by
    intro sponsorId i bucket hn hs
    rw [hn] at hs
    cases hs

theorem mono (h : Kept start net done) (hd : done ⊆ done') : Kept start net done' where
  layout := h.layout
  items := fun item hf => (h.items item hf).imp_right (·.mono hd)
  sites := fun s i b hn hs => (h.sites s i b hn hs).imp_left (·.mono hd)

theorem work (h : Kept start net done) (work : Work) : Kept start net (work :: done) :=
  h.mono (List.subset_cons_self work done)

theorem clear (h : Kept start net done) (hs : net'.sponsors = net.sponsors)
    (hw : net'.deployWebsiteRequiredForSponsors = net.deployWebsiteRequiredForSponsors)
    (hi : ∀ item, net.flagged item → net'.flagged item ∨ Processed start done item) :
    Kept start net' done where
  layout := by rw [← h.layout,Network.layout,Network.layout,hs]
  items := fun item hf => (h.items item hf).elim (hi item) .inr
  sites := by
    intro sponsorId i bucket hn hso
    have hb : net'.bucket? sponsorId i = net.bucket? sponsorId i := by
      simp only [Network.bucket?,Network.campaign?,hs]
    rw [hb] at hso
    rw [hw]
    exact h.sites sponsorId i bucket hn hso

theorem setBucket (h : Kept start net done) (hsi : SiteUpdated done sponsorId i bucket ∨
      sponsorId ∈ net.deployWebsiteRequiredForSponsors)
    (hc : net.campaign? sponsorId i = some campaign) (hb : bucket ≠ "") :
    Kept start (net.setBucket sponsorId i bucket) done where
  layout := (layout_setBucket net sponsorId i bucket).trans h.layout
  items := fun item hf => by
    refine (h.items item hf).imp_left fun hn => ?_
    cases item <;> exact hn
  sites := by
    intro s j b hno hs
    by_cases hsj : s = sponsorId ∧ j = i
    · obtain ⟨rfl,rfl⟩ := hsj
      rw [bucket?_setBucket_self hc hb] at hs
      exact Option.some.inj hs ▸ hsi
    · rw [bucket?_setBucket_of_ne hsj] at hs
      exact h.sites s j b hno hs

theorem complete (h : Kept start net done) (hc : ∀ item, ¬ net.flagged item) :
    Complete start net done where
  items := fun item hf => (h.items item hf).resolve_left (hc item)
  sites := fun s i b hn hs =>
    (h.sites s i b hn hs).resolve_right (hc (.website s))

end Kept

/-- Neither the object in memory nor the saved database has forgotten anything. -/
def Remembers (start : Network) (w : World) : Prop :=
  Kept start w.net w.done ∧ Kept start w.saved w.done

/-- After a failure the saved database has forgotten nothing. Nor has the object in memory, unless a
new bucket of a sponsor whose website is not `pending` failed. -/
def Interrupted (start : Network) (pending : List Id) (failure : Failure) (w : World) : Prop :=
  Kept start w.saved w.done ∧
    ((∀ sponsorId i bucket, failure = .call (.newSite sponsorId i bucket) →
      sponsorId ∈ pending) → Kept start w.net w.done)

theorem Remembers.interrupted {start : Network} {w : World} (h : Remembers start w)
    (p : List Id) (f : Failure) : Interrupted start p f w :=
  ⟨h.2,fun _ => h.1⟩

theorem Remembers.work {start : Network} {w : World} (h : Remembers start w) (work : Work)
    (n : ℕ) : Remembers start { w with done := work :: w.done, calls := n } :=
  ⟨h.1.work work,h.2.work work⟩

end Psiphon.Ops
