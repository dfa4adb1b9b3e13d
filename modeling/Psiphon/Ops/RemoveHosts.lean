import Psiphon.Ops.Deploy

/-!
# The account a host is removed with

`remove_hosts_from_providers` of `psi_ops.py` with its local variable `provider_account`.
-/

namespace Psiphon.Ops

open List Option

/-- The providers with a `remove_server`, each with its account in the database. -/
inductive ApiProvider where
  | linode
  | digitalocean
  | vpsnet
  deriving DecidableEq, Repr

def providerRemoveHost (provider : String) : Option ApiProvider :=
  if provider = "linode" then some .linode
  else if provider = "digitalocean" then some .digitalocean
  else if provider = "vpsnet" then some .vpsnet
  else none

structure Removal where
  api : ApiProvider
  account : ApiProvider
  providerId : String
  deriving DecidableEq, Repr

structure Removing where
  hosts : List Host
  calls : List Removal
  providerAccount : Option ApiProvider
  needToSave : Bool
  deriving DecidableEq, Repr

/-- A local variable that may not have been assigned. -/
def readLocal {α : Type} : Option α → Py α
  | some a => .ok a
  | none => .error .unboundLocalError

/-- What the branches do with `provider_account`. The one of `vpsnet` has `==` in place of `=`: it
reads the variable and assigns nothing. -/
def assignAccount (account : Option ApiProvider) : Option ApiProvider → Py (Option ApiProvider)
  | some .linode => .ok (some .linode)
  | some .digitalocean => .ok (some .digitalocean)
  | some .vpsnet => do
    let _ ← readLocal account
    pure account
  | none => .ok account

def removeFromProvider (s : Removing) (host : Host) : Py Removing := do
  let api := providerRemoveHost host.provider
  let account ← assignAccount s.providerAccount api
  match api with
  | none => pure { s with providerAccount := account }
  | some api => do
    let account ← readLocal account
    pure ⟨s.hosts.erase host, s.calls ++ [⟨api, account, host.providerId⟩], some account, true⟩

/-- The loop over a copy of the set, in the order in which Python visits it. The database is saved
after it when `needToSave` is set. -/
def removeFromProviders (net : Network) (order : List Host) : Py Removing := do
  pyAssert net.isLocked
  order.foldlM removeFromProvider ⟨net.hostsToRemoveFromProviders, [], none, false⟩

/-! ### One host -/

section Step

variable {s t : Removing} {host : Host}

/-- The call that removes a host with the account of its own provider. -/
def ownRemoval (host : Host) : Option Removal :=
  (providerRemoveHost host.provider).map fun api => ⟨api, api, host.providerId⟩

def Stays (host : Host) : Prop := providerRemoveHost host.provider = none

instance : DecidablePred Stays := fun host =>
  inferInstanceAs (Decidable (providerRemoveHost host.provider = none))

theorem removeFromProvider_of_stays (h : Stays host) : removeFromProvider s host = .ok s := by
  rw [removeFromProvider,show providerRemoveHost host.provider = none from h]
  rfl

theorem removeFromProvider_of_own {api : ApiProvider}
    (ha : providerRemoveHost host.provider = some api) (hne : api ≠ .vpsnet) :
    removeFromProvider s host = .ok
      ⟨s.hosts.erase host,s.calls ++ [⟨api,api,host.providerId⟩],some api,true⟩ := by
  rw [removeFromProvider,ha]
  cases api with
  | linode => rfl
  | digitalocean => rfl
  | vpsnet => exact absurd rfl hne

theorem removeFromProvider_of_vpsnet (h : providerRemoveHost host.provider = some .vpsnet) :
    removeFromProvider s host = match s.providerAccount with
      | none => .error .unboundLocalError
      | some a => .ok ⟨s.hosts.erase host,s.calls ++ [⟨.vpsnet,a,host.providerId⟩],
          some a,true⟩ := by
  rw [removeFromProvider,h]
  cases s.providerAccount <;> rfl

theorem providerRemoveHost_eq_vpsnet {p : String} :
    providerRemoveHost p = some .vpsnet ↔ p = "vpsnet" := by
  rw [providerRemoveHost]
  split_ifs with hl hd hv
  · simp [hl]
  · simp [hd]
  · simp [hv]
  · simp [hv]

theorem providerRemoveHost_eq_none {p : String} : providerRemoveHost p = none ↔
    p ≠ "linode" ∧ p ≠ "digitalocean" ∧ p ≠ "vpsnet" := by
  rw [providerRemoveHost]
  split_ifs with hl hd hv
  · simp [hl]
  · simp [hd]
  · simp [hv]
  · exact iff_of_true rfl ⟨hl,hd,hv⟩

theorem providerRemoveHost_of_ne_vpsnet {p : String} {api : ApiProvider}
    (h : providerRemoveHost p = some api) (hne : api ≠ .vpsnet) :
    p = "linode" ∨ p = "digitalocean" := by
  rw [providerRemoveHost] at h
  split_ifs at h with hl hd hvpsnet
  · exact .inl hl
  · exact .inr hd
  · exact absurd (Option.some.inj h).symm hne

/-- The account of `vpsnet` is never used. -/
def NoVpsnet (s : Removing) : Prop :=
  s.providerAccount ≠ some .vpsnet ∧ ∀ call ∈ s.calls, call.account ≠ .vpsnet

theorem NoVpsnet.step (h : NoVpsnet s) (hs : removeFromProvider s host = .ok t) : NoVpsnet t := by
  obtain ⟨ha,hc⟩ := h
  have hca : ∀ {a : ApiProvider} (api : ApiProvider), a ≠ .vpsnet →
      NoVpsnet ⟨s.hosts.erase host,s.calls ++ [⟨api,a,host.providerId⟩],some a, true⟩ := by
    intro a api hne
    refine ⟨fun heq => hne (Option.some.inj heq),fun call hm => ?_⟩
    rcases mem_append.mp hm with hm | hm
    · exact hc call hm
    · rw [mem_singleton.mp hm]
      exact hne
  cases happ : providerRemoveHost host.provider with
  | none =>
    rw [removeFromProvider_of_stays happ] at hs
    cases hs
    exact ⟨ha,hc⟩
  | some api =>
    by_cases hne : api = .vpsnet
    · subst hne
      rw [removeFromProvider_of_vpsnet happ] at hs
      cases hv : s.providerAccount with
      | none =>
        rw [hv] at hs
        cases hs
      | some a =>
        rw [hv] at hs ha
        cases hs
        exact hca _ fun heq => ha (congrArg some heq)
    · rw [removeFromProvider_of_own happ hne] at hs
      cases hs
      exact hca api hne

end Step

/-! ### All hosts -/

section Run

variable {s t : Removing} {hosts order : List Host}

theorem NoVpsnet.run (h : NoVpsnet s) (hrun : order.foldlM removeFromProvider s = .ok t) :
    NoVpsnet t := by
  induction order generalizing s with
  | nil =>
    cases hrun
    exact h
  | cons host order ih =>
    rw [foldlM_cons,Fallible.bind_eq_ok_iff] at hrun
    obtain ⟨s',hs,hr⟩ := hrun
    exact ih (h.step hs) hr

/-- Without `vpsnet`, the loop makes the calls of its hosts, each with its own account, and takes
those hosts from the set. -/
theorem run_own (hne : ∀ host ∈ order, host.provider ≠ "vpsnet") (s : Removing) :
    ∃ a, order.foldlM removeFromProvider s = .ok
      ⟨s.hosts.diff (order.filter (¬ Stays ·)),s.calls ++ order.filterMap ownRemoval,a,
        s.needToSave || order.any (¬ Stays ·)⟩ := by
  induction order generalizing s with
  | nil => exact ⟨s.providerAccount,by simp; rfl⟩
  | cons host order ih =>
    obtain ⟨hh,hr⟩ := forall_mem_cons.mp hne
    rw [foldlM_cons]
    cases ha : providerRemoveHost host.provider with
    | none =>
      obtain ⟨a,hrun⟩ := ih hr s
      refine ⟨a,?_⟩
      have ho : ownRemoval host = none := by rw [ownRemoval,ha,map_none]
      rw [removeFromProvider_of_stays ha,Fallible.ok_bind,hrun,filterMap_cons_none ho]
      simp [Stays,ha]
    | some api =>
      have hapi : api ≠ .vpsnet := by
        rintro rfl
        exact hh (providerRemoveHost_eq_vpsnet.mp ha)
      have ho : ownRemoval host = some ⟨api,api,host.providerId⟩ := by
        rw [ownRemoval,ha,map_some]
      rw [removeFromProvider_of_own ha hapi,Fallible.ok_bind]
      obtain ⟨a,hrun⟩ := ih hr
        ⟨s.hosts.erase host,s.calls ++ [⟨api,api,host.providerId⟩],some api,true⟩
      refine ⟨a,?_⟩
      rw [hrun,filterMap_cons_some ho]
      simp [Stays,ha]

theorem diff_removed_perm (ho : order.Perm hosts) :
    (hosts.diff (order.filter (¬ Stays ·))).Perm (hosts.filter (Stays ·)) := by
  have hs : (order : Multiset Host) = hosts := Multiset.coe_eq_coe.mpr ho
  rw [← Multiset.coe_eq_coe,← Multiset.coe_sub,← Multiset.filter_coe,← Multiset.filter_coe,hs]
  calc (hosts : Multiset Host) - (hosts : Multiset Host).filter (¬ Stays ·)
      = (hosts : Multiset Host).filter Stays + (hosts : Multiset Host).filter (¬ Stays ·)
          - (hosts : Multiset Host).filter (¬ Stays ·) := by rw [Multiset.filter_add_not]
    _ = (hosts : Multiset Host).filter Stays := Multiset.add_sub_cancel_right

end Run

/-! ### The phase of a deployment -/

section Phase

variable {env : Outside} {l : RemovalLocals} {w : World} {s : Removing}

/-- The phase of a deployment keeps of the loop whether the account was assigned. -/
structure Agrees (l : RemovalLocals) (w : World) (s : Removing) : Prop where
  accountAssigned : l.accountAssigned = s.providerAccount.isSome
  needToSave : l.needToSave = s.needToSave
  hosts : w.net.hostsToRemoveFromProviders = s.hosts
  nodup : s.hosts.Nodup

/-- The phase ends as the loop does. -/
def Follows (x : EStateM.Result Failure World RemovalLocals) : Py Removing → Prop
  | .ok s => ∃ l w, x = .ok l w ∧ Agrees l w s
  | .error e => ∃ w, x = .error (.raised e) w

theorem Agrees.remove (he : ∀ n, env.succeeds n = true) (h : Agrees l w s) (host : Host)
    (calls : List Removal) (a : ApiProvider) :
    Follows ((do removeThroughProvider env host; pure ⟨true,true⟩ : Script RemovalLocals) w)
      (.ok ⟨s.hosts.erase host,calls,some a,true⟩) := by
  have hc : call env (.removeFromProvider host.id) w =
      .ok () { w with done := .removeFromProvider host.id :: w.done, calls := w.calls + 1 } := by
    rw [call,if_pos (he _)]
  refine ⟨_,_,Hoare.bind_of_ok (Hoare.bind_of_ok hc),rfl,rfl,?_,h.nodup.erase host⟩
  rw [h.nodup.erase_eq_filter,← h.hosts]
  show List.filter _ _ = _
  congr 1
  funext o
  exact decide_not.trans (congrArg not (beq_eq_decide o host).symm)

theorem Agrees.step (he : ∀ n, env.succeeds n = true) (h : Agrees l w s) (host : Host) :
    Follows (removeHostFromProvider env l host w) (removeFromProvider s host) := by
  rw [removeHostFromProvider]
  cases happ : providerRemoveHost host.provider with
  | none =>
    have ho := providerRemoveHost_eq_none.mp happ
    rw [if_neg (not_or.mpr ⟨ho.1,ho.2.1⟩),if_neg ho.2.2,removeFromProvider_of_stays happ]
    exact ⟨l,w,rfl,h⟩
  | some api =>
    by_cases hv : api = .vpsnet
    · subst hv
      have hp := providerRemoveHost_eq_vpsnet.mp happ
      rw [hp,if_neg (by decide),if_pos rfl,removeFromProvider_of_vpsnet happ]
      have ha := h.accountAssigned
      cases hac : s.providerAccount with
      | none =>
        rw [hac] at ha
        rw [if_neg (by rw [ha]; exact Bool.false_ne_true)]
        exact ⟨w,rfl⟩
      | some a =>
        rw [hac,isSome_some] at ha
        rw [if_pos ha]
        exact h.remove he host _ a
    · have hp := providerRemoveHost_of_ne_vpsnet happ hv
      rw [if_pos hp,removeFromProvider_of_own happ hv]
      exact h.remove he host _ api

/-- The loop of the phase runs as this one, on hosts that differ. -/
theorem removeHostFromProvider_follows (he : ∀ n, env.succeeds n = true) (order : List Host)
    (h : Agrees l w s) : Follows (order.foldlM (removeHostFromProvider env) l w)
      (order.foldlM removeFromProvider s) := by
  induction order generalizing l w s with
  | nil => exact ⟨l,w,rfl,h⟩
  | cons host order ih =>
    have hs := h.step he host
    rw [foldlM_cons,foldlM_cons]
    cases hr : removeFromProvider s host with
    | error e =>
      rw [hr] at hs
      obtain ⟨w',hf⟩ := hs
      exact ⟨w',Hoare.bind_of_error hf⟩
    | ok t =>
      rw [hr] at hs
      obtain ⟨l',w',hok,ha⟩ := hs
      rw [Hoare.bind_of_ok hok,Fallible.ok_bind]
      exact ih ha

end Phase

section Run

variable {order : List Host}

/-- Each host of a provider with an API is removed once, with the account of its own provider, and
the others remain, exactly when no host is of `vpsnet`; whatever the order of the visits. -/
theorem removed_with_own_account_iff {net : Network} (hlocked : net.isLocked = true)
    (horder : order.Perm net.hostsToRemoveFromProviders) :
    (∃ t, removeFromProviders net order = .ok t ∧ t.calls = order.filterMap ownRemoval ∧
      t.hosts.Perm (net.hostsToRemoveFromProviders.filter (Stays ·))) ↔
    ∀ host ∈ net.hostsToRemoveFromProviders, host.provider ≠ "vpsnet" := by
  rw [removeFromProviders,hlocked]
  show (∃ t, order.foldlM removeFromProvider _ = .ok t ∧ _) ↔ _
  constructor
  · rintro ⟨t,hrun,hc,-⟩ host hh hv
    have hs : NoVpsnet ⟨net.hostsToRemoveFromProviders,[],none,false⟩ :=
      ⟨nofun,fun call hca => absurd hca not_mem_nil⟩
    have hn := hs.run hrun
    refine hn.2 ⟨.vpsnet,.vpsnet,host.providerId⟩ ?_ rfl
    rw [hc,mem_filterMap]
    refine ⟨host,horder.mem_iff.mpr hh,?_⟩
    rw [ownRemoval,providerRemoveHost_eq_vpsnet.mpr hv,map_some]
  · intro hne
    obtain ⟨account,hrun⟩ := run_own (fun host hh => hne host (horder.mem_iff.mp hh))
      ⟨net.hostsToRemoveFromProviders,[],none,false⟩
    exact ⟨_,hrun,nil_append _,diff_removed_perm horder⟩

def hostAt (provider providerId : String) : Host :=
  { plainHost providerId false with provider := provider, providerId := providerId }

def removalOf (hosts : List Host) : Network :=
  { Network.init with isLocked := true, hostsToRemoveFromProviders := hosts }

def mixedHosts : List Host :=
  [hostAt "linode" "1", hostAt "linode" "2", hostAt "manual" "3", hostAt "digitalocean" "4"]

/-- They are visited from the last to the first. -/
theorem removed_with_own_account_mixed :
    ∃ t, removeFromProviders (removalOf mixedHosts) mixedHosts.reverse = .ok t ∧
      t.calls = [⟨.digitalocean, .digitalocean, "4"⟩, ⟨.linode, .linode, "2"⟩,
        ⟨.linode, .linode, "1"⟩] ∧ t.hosts = [hostAt "manual" "3"] := by
  have hp : mixedHosts.reverse.Perm (removalOf mixedHosts).hostsToRemoveFromProviders :=
    mixedHosts.reverse_perm
  obtain ⟨t,hr,hc,hh⟩ :=
    (removed_with_own_account_iff (by rfl) hp).mpr (by decide)
  refine ⟨t,hr,?_,perm_singleton.mp hh⟩
  rw [hc]
  decide

/-- A host of `vpsnet` is removed with the account of the provider before it, or not at all. -/
theorem vpsnet_removed_with_linode_account :
    removeFromProviders (removalOf [hostAt "linode" "1", hostAt "vpsnet" "2"])
        [hostAt "linode" "1", hostAt "vpsnet" "2"] =
      .ok ⟨[], [⟨.linode, .linode, "1"⟩, ⟨.vpsnet, .linode, "2"⟩], some .linode, true⟩ ∧
    removeFromProviders (removalOf [hostAt "linode" "1", hostAt "vpsnet" "2"])
        [hostAt "vpsnet" "2", hostAt "linode" "1"] = .error .unboundLocalError := by
  exact ⟨by decide,by decide⟩

end Run

end Psiphon.Ops
