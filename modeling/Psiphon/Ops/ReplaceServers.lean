import Mathlib.Data.Finset.Image
import Psiphon.Ops.AddServers

/-!
# Replacing the servers of a channel

`replace_propagation_channel_servers` of `psi_ops.py` unembeds the old servers even when no new one
could be launched.
-/

namespace Psiphon.Ops

open List Hoare

/-- The failure of a script, if it raises. What it did stays done. -/
def caught (script : Script Unit) : Script (Option Failure) :=
  tryCatch (do script; pure none) fun failure => pure (some failure)

/-- A script is run if a positive number of servers is asked for. -/
def caughtIfAsked (count : ℤ) (script : Script Unit) : Script (Option Failure) :=
  if 0 < count then caught script else pure none

/-- A number that is not given is the one in the settings of the channel. -/
def givenOrSetting (channel : Option PropagationChannel) (given : Option ℤ)
    (setting : PropagationChannel → ℤ) : Py ℤ :=
  match given with
  | some limit => .ok limit
  | none => (attributeOf channel).map setting

theorem givenOrSetting_some {c : PropagationChannel} (given : Option ℤ)
    (s : PropagationChannel → ℤ) : givenOrSetting (some c) given s = .ok (given.getD (s c)) := by
  cases given <;> rfl

structure ChannelCounts where
  newDiscoveryServersCount : ℤ
  newPropagationServersCount : ℤ

/-- `list[start:]`; a negative start counts from the end. -/
def pyDrop {α : Type} (list : List α) (start : ℤ) : List α :=
  list.drop (if 0 ≤ start then start else list.length + start).toNat

/-- The outcomes of the launches, all made at once. -/
def launchNewServers (launch : ℕ → Option Launched) (discovery propagation : ℤ) :
    List (Option Launched) :=
  (List.range (discovery + propagation).toNat).map launch

/-- `replace_propagation_channel_servers`; `launch` has the outcome of each `launch_new_server`. -/
def replacePropagationChannelServers (env : Outside)
    (counts : PropagationChannel → ChannelCounts) (launch : ℕ → Option Launched)
    (channelName : String) (newDiscoveryServersCount newPropagationServersCount : Option ℤ)
    (now : Date) : Script Unit := do
  let w ← get
  raisePy (pyAssert w.net.isLocked)
  let channel := w.net.getPropagationChannelByName channelName
  let tomorrow := now / day * day + day
  let discovery ← raisePy (givenOrSetting channel newDiscoveryServersCount
    fun channel => (counts channel).newDiscoveryServersCount)
  let propagation ← raisePy (givenOrSetting channel newPropagationServersCount
    fun channel => (counts channel).newPropagationServersCount)
  let newServers := launchNewServers launch discovery propagation
  let discoveryFailure ← caughtIfAsked discovery
    (addServers env (newServers.take discovery.toNat) channelName (some (tomorrow, tomorrow + day))
      false none now)
  let propagationFailure ← caughtIfAsked propagation
    (addServers env (pyDrop newServers discovery) channelName none true none now)
  match propagationFailure <|> discoveryFailure with
  | some failure => throw failure
  | none => pure ()

/-! ### The embedded servers of a channel -/

def embeddedIds (channelId : Id) (net : Network) : Finset Id :=
  ((net.servers.records.filter fun server =>
    server.propagationChannelId == channelId && server.isEmbedded).map Server.id).toFinset

theorem mem_embeddedIds {channelId : Id} {net : Network} {id : Id} :
    id ∈ embeddedIds channelId net ↔ ∃ s ∈ net.servers,
      s.propagationChannelId = channelId ∧ s.isEmbedded = true ∧ s.id = id := by
  simp [embeddedIds,Table.mem_def,and_assoc]

def Added (channelId : Id) (before after : Network) : Prop :=
  ∃ id ∈ embeddedIds channelId after, before.servers.contains id = false

/-- A new server is embedded for the channel, or the same servers are as before. -/
def NoWorseOff (channelId : Id) (before after : Network) : Prop :=
  Added channelId before after ∨ embeddedIds channelId after = embeddedIds channelId before

section Embedded

variable {channelId : Id} {before net : Network}

variable (channelId) in
theorem embeddedIds_congr {net' : Network} (h : net'.servers = net.servers) :
    embeddedIds channelId net' = embeddedIds channelId net := by
  rw [embeddedIds,h,← embeddedIds]

structure Grown (before net : Network) : Prop where
  channels : net.propagationChannels = before.propagationChannels
  servers : ∃ new, net.servers.records = before.servers.records ++ new ∧
    ∀ server ∈ new, server.isEmbedded = false

theorem Grown.refl (net : Network) : Grown net net :=
  ⟨rfl,[],(append_nil _).symm,fun _ h => absurd h not_mem_nil⟩

theorem grown_ofServers (before : Network) : OfServers (Grown before) := by
  intro net net' h hc hs
  refine ⟨hc.trans h.channels,?_⟩
  rw [hs]
  exact h.servers

theorem Grown.holdsAfterAdding (channelId : Id) :
    HoldsAfterAdding channelId false (Grown before) (Grown before) := by
  intro net s h hn
  obtain ⟨new,hr,he⟩ := h.servers
  refine ⟨h.channels,new ++ [s],?_,fun s' hs' => ?_⟩
  · rw [Table.records_add hn.notContained,hr,append_assoc]
  · rcases mem_append.mp hs' with hs' | hs'
    · exact he s' hs'
    · rw [mem_singleton.mp hs']
      exact hn.embedded

theorem Grown.embeddedIds_eq (h : Grown before net) (channelId : Id) :
    embeddedIds channelId net = embeddedIds channelId before := by
  obtain ⟨new,hr,he⟩ := h.servers
  have hn : new.filter (fun s => s.propagationChannelId == channelId && s.isEmbedded) = [] :=
    filter_eq_nil_iff.mpr fun s hs => by simp [he s hs]
  rw [embeddedIds,hr,filter_append,hn,append_nil,← embeddedIds]

theorem Grown.mem (h : Grown before net) {s : Server} (hs : s ∈ before.servers) :
    s ∈ net.servers := by
  obtain ⟨new,hr,-⟩ := h.servers
  rw [Table.mem_def,hr]
  exact mem_append_left new hs

/-- No server of the database is lost. -/
def Extends (before net : Network) : Prop :=
  ∀ server ∈ before.servers, net.servers.contains server.id = true

theorem extends_ofServers (before : Network) : OfServers (Extends before) := by
  intro net net' h _ hs
  rw [Extends,hs]
  exact h

theorem Grown.extends_unembed (h : Grown before net) (channelId : Id) :
    Extends before (net.unembed channelId) := by
  intro s hs
  refine Table.contains_iff.mpr ⟨unembeddedServer channelId s,?_,id_unembeddedServer ..⟩
  exact mem_map_of_mem (h.mem hs)

theorem added_ofServers (channelId : Id) (before : Network) :
    OfServers (Added channelId before) := by
  intro net net' h _ hs
  rw [Added,embeddedIds_congr channelId hs]
  exact h

/-- A new propagation server is embedded. -/
theorem extends_holdsAfterAdding (channelId : Id) (before : Network) :
    HoldsAfterAdding channelId true (Extends before)
      fun net => Extends before net ∧ Added channelId before net := by
  intro net s h hnew
  have hmem (s' : Server) : s' ∈ net.servers.add s ↔ s' ∈ net.servers ∨ s' = s := by
    rw [Table.mem_def,Table.records_add hnew.notContained,mem_append,mem_singleton]
    rfl
  refine ⟨fun s' hs' => ?_,s.id,?_,?_⟩
  · obtain ⟨found,hf,hid⟩ := Table.contains_iff.mp (h s' hs')
    exact Table.contains_iff.mpr ⟨found,(hmem found).mpr (.inl hf),hid⟩
  · exact mem_embeddedIds.mpr ⟨s,(hmem s).mpr (.inr rfl),hnew.channel,hnew.embedded,rfl⟩
  · refine Bool.eq_false_iff.mpr fun hold => ?_
    obtain ⟨found,hf,hid⟩ := Table.contains_iff.mp hold
    have := h found hf
    rw [hid,hnew.notContained] at this
    exact Bool.false_ne_true this

theorem isReplaced_iff {s : Server} : isReplaced channelId s = true ↔
    s.propagationChannelId = channelId ∧ s.isEmbedded = true ∧ s.isPermanent = false := by
  simp [isReplaced,and_assoc]

theorem mem_embeddedIds_unembed {id : Id} : id ∈ embeddedIds channelId (net.unembed channelId) ↔
      ∃ s ∈ net.servers, s.propagationChannelId = channelId ∧ s.isEmbedded = true ∧
        isReplaced channelId s = false ∧ s.id = id := by
  rw [mem_embeddedIds]
  constructor
  · rintro ⟨_,hs',hc,he,rfl⟩
    obtain ⟨s,hs,rfl⟩ := mem_map.mp hs'
    cases hr : isReplaced channelId s with
    | true => simp [unembeddedServer,hr] at he
    | false =>
      rw [unembeddedServer,if_neg (Bool.eq_false_iff.mp hr)] at hc he ⊢
      exact ⟨s,hs,hc,he,hr,rfl⟩
  · rintro ⟨s,hs,hc,he,hr,rfl⟩
    have hsa : unembeddedServer channelId s = s :=
      if_neg (Bool.eq_false_iff.mp hr)
    exact ⟨s,mem_map.mpr ⟨s,hs,hsa⟩,hc,he,rfl⟩

/-- Some server of the channel is embedded no more, and no other is. -/
structure WorseOff (channelId : Id) (before net : Network) : Prop where
  subset : embeddedIds channelId net ⊆ embeddedIds channelId before
  lost : ∃ id ∈ embeddedIds channelId before, id ∉ embeddedIds channelId net

theorem worseOff_ofServers (channelId : Id) (before : Network) :
    OfServers (WorseOff channelId before) := by
  intro net net' h _ hs
  have hsa := embeddedIds_congr channelId hs
  exact ⟨hsa ▸ h.subset,hsa ▸ h.lost⟩

theorem WorseOff.not_noWorseOff (h : WorseOff channelId before net) :
    ¬NoWorseOff channelId before net := by
  rintro (⟨id,hid,hn⟩ | hsa)
  · obtain ⟨s,hs,-,-,rfl⟩ := mem_embeddedIds.mp (h.subset hid)
    exact absurd (Table.contains_iff.mpr ⟨s,hs,rfl⟩) (Bool.eq_false_iff.mp hn)
  · obtain ⟨id,hid,hl⟩ := h.lost
    exact hl (hsa ▸ hid)

theorem Grown.unembed_eq (h : Grown before net)
    (hk : ∀ s ∈ before.servers, isReplaced channelId s = false) :
    embeddedIds channelId (net.unembed channelId) = embeddedIds channelId before := by
  rw [← h.embeddedIds_eq channelId]
  ext id
  rw [mem_embeddedIds_unembed,mem_embeddedIds]
  refine exists_congr fun s => and_congr_right fun hs => and_congr_right fun hc =>
    and_congr_right fun he => ?_
  have hold : s.id ∈ embeddedIds channelId before :=
    h.embeddedIds_eq channelId ▸ mem_embeddedIds.mpr ⟨s,hs,hc,he,rfl⟩
  obtain ⟨s',hs',-,-,hid⟩ := mem_embeddedIds.mp hold
  have hsa : s' = s := Table.eq_of_key_eq (h.mem hs') hs hid
  exact ⟨fun h => h.2,fun h => ⟨hsa ▸ hk s' hs',h⟩⟩

theorem Grown.worseOff_unembed (h : Grown before net) {s : Server}
    (hs : s ∈ before.servers) (hr : isReplaced channelId s = true) :
    WorseOff channelId before (net.unembed channelId) := by
  obtain ⟨hc,he,-⟩ := isReplaced_iff.mp hr
  refine ⟨fun id hid => ?_,s.id, mem_embeddedIds.mpr ⟨s,hs,hc,he,rfl⟩,fun hid => ?_⟩
  · obtain ⟨s',hs',hc',he',-,rfl⟩ := mem_embeddedIds_unembed.mp hid
    rw [← h.embeddedIds_eq channelId]
    exact mem_embeddedIds.mpr ⟨s',hs',hc',he',rfl⟩
  · obtain ⟨s',hs',-,-,hk,hid⟩ := mem_embeddedIds_unembed.mp hid
    have hsa : s' = s := Table.eq_of_key_eq hs' (h.mem hs) hid
    exact absurd hr (Bool.eq_false_iff.mp (hsa ▸ hk))

end Embedded

/-! ### Replacing servers -/

section Phases

variable {env : Outside} {before : Network} {channelName : String} {channel : PropagationChannel}
  {serverInfos : List (Option Launched)} {given : Option Capabilities} {now : Date}
  {P₁ Q : Network → Prop} {E : Failure → World → Prop}

theorem Grown.getPropagationChannelByName_eq {net : Network} (h : Grown before net)
    (hc : before.getPropagationChannelByName channelName = some channel) :
    net.getPropagationChannelByName channelName = some channel := by
  rw [Network.getPropagationChannelByName,h.channels]
  exact hc

/-- Discovery servers are not embedded, and replace none that are. -/
theorem addDiscoveryServers_keeps {r : Date × Date}
    (hc : before.getPropagationChannelByName channelName = some channel)
    (hQ : ∀ net, Grown before net → Q net) : Keeps (fun w => Grown before w.net ∧ Q w.saved)
      (addServers env serverInfos channelName (some r) false given now) := by
  have hg := grown_ofServers before
  refine addServers_triple (fun _ h => h.getPropagationChannelByName_eq hc) (fun _ _ h => h)
    hg .skip ?_
  refine .bind (Q := fun _ w => Grown before w.net ∧ Q w.saved)
    ((Triple.forM (I := fun _ (w : World) => Grown before w.net ∧ Q w.saved) ?_ _).weaken_pre
      fun _ h => h.2) fun _ => deploy_keeps hg hQ
  rintro ⟨_ | launched,newServerNumber⟩ _
  · exact .skip
  · exact (addServer_triple hg (.holdsAfterAdding channel.id) hQ).weaken_error
      fun _ _ h => ⟨h.1.elim id id,h.2⟩

theorem unembedServers_triple {P₀ : Network → Prop} (hP₁ : OfServers P₁)
    (h : ∀ net, P₀ net → P₁ (net.unembed channel.id)) :
    Triple (fun w => P₀ w.net ∧ Q w.saved) (unembedServers (some channel))
      (fun _ w => P₁ w.net ∧ Q w.saved) E := by
  apply Triple.get
  intro w₀ h₀
  apply Triple.ite
  · intro he
    have hn : w₀.net.servers = (w₀.net.unembed channel.id).servers := by
      apply Table.ext
      show w₀.net.servers.records = w₀.net.servers.records.map _
      rw [isEmpty_iff.mp he,map_nil]
    apply Triple.pure
    rintro _ rfl
    exact ⟨hP₁ (h _ h₀.1) rfl hn,h₀.2⟩
  · intro _
    apply raisePy_bind_ok (a := channel) rfl
    apply assign_triple
    rintro _ rfl
    exact ⟨h _ h₀.1,h₀.2⟩

theorem addServer_forM_none {r : Option (Date × Date)} {I : World → Prop}
    (hn : ∀ info ∈ serverInfos, info = none) :
    Triple I (serverInfos.zipIdx.forM (addServer env (some channel) r given)) (fun _ => I) E := by
  refine (Triple.forM (E := E) (I := fun rest w => (∀ p ∈ rest, p.1 = none) ∧ I w)
    ?_ _).conseq ?_ ?_ ?_
  · rintro ⟨info,newServerNumber⟩ rest
    rintro w ⟨hr,hw⟩
    obtain rfl : info = none := hr _ (.head _)
    exact ⟨fun p hp => hr p (.tail _ hp),hw⟩
  · exact fun _ hw => ⟨fun p hp => hn _ (fst_mem_of_mem_zipIdx hp),hw⟩
  · exact fun _ _ hw => hw.2
  · exact fun _ _ hw => hw

/-- The channel has a new server when one was launched, unless it could not be set up. -/
theorem addServer_forM_some {launched : Launched} (hl : some launched ∈ serverInfos) :
    Triple (fun w => Extends before w.net ∧ NoWorseOff channel.id before w.saved)
      (serverInfos.zipIdx.forM (addServer env (some channel) none given))
      (fun _ w => Added channel.id before w.net ∧ NoWorseOff channel.id before w.saved)
      (fun _ w => NoWorseOff channel.id before w.saved) := by
  -- a server has been added, or the one that was launched is still to come
  let I (rest : List (Option Launched × ℕ)) (w : World) : Prop :=
    (Extends before w.net ∧ (Added channel.id before w.net ∨ ∃ p ∈ rest, p.1.isSome)) ∧
      NoWorseOff channel.id before w.saved
  refine (Triple.forM (I := I) ?_ _).conseq ?_ ?_ fun _ _ h => h
  · rintro ⟨_ | launched,newServerNumber⟩ rest
    · refine .pure fun w hw => ⟨⟨hw.1.1,hw.1.2.imp_right ?_⟩,hw.2⟩
      rintro ⟨p,hp,hso⟩
      rcases mem_cons.mp hp with rfl | hp
      · cases hso
      · exact ⟨p,hp,hso⟩
    · exact (addServer_triple (extends_ofServers before)
        (extends_holdsAfterAdding channel.id before) fun _ h => .inl h.2).conseq
          (fun _ h => ⟨h.1.1,h.2⟩)
        (fun _ _ h => ⟨⟨h.1.1,.inl h.1.2⟩,h.2⟩) fun _ _ h => h.2
  · rintro w ⟨he,hs⟩
    rw [← zipIdx_map_fst 0 serverInfos] at hl
    obtain ⟨p,hp,hso⟩ := mem_map.mp hl
    exact ⟨⟨he,.inr ⟨p,hp,by rw [hso]; rfl⟩⟩,hs⟩
  · rintro _ w ⟨⟨-,ha | ⟨p,hp,-⟩⟩,hs⟩
    · exact ⟨ha,hs⟩
    · cases hp

theorem forall_eq_none_of_not_launched (h : ¬∃ l, some l ∈ serverInfos) :
    ∀ info ∈ serverInfos, info = none := by
  intro info hi
  cases info with
  | none => rfl
  | some l => exact absurd ⟨l,hi⟩ h

theorem sameEmbedded_ofServers (channelId : Id) (before : Network) :
    OfServers fun net => embeddedIds channelId net = embeddedIds channelId before :=
  fun _ _ h _ hs => (embeddedIds_congr channelId hs).trans h

/-- The channel is no worse off if a server was launched or there is none to replace. -/
theorem addPropagationServers_noWorseOff
    (hc : before.getPropagationChannelByName channelName = some channel)
    (h : (∃ l, some l ∈ serverInfos) ∨ ∀ s ∈ before.servers, isReplaced channel.id s = false) :
    Triple (fun w => Grown before w.net ∧ NoWorseOff channel.id before w.saved)
      (addServers env serverInfos channelName none true given now)
      (fun _ w => NoWorseOff channel.id before w.saved)
      (fun _ w => NoWorseOff channel.id before w.saved) := by
  have hg (net : Network) (h : Grown before net) :
      net.getPropagationChannelByName channelName = some channel :=
    h.getPropagationChannelByName_eq hc
  by_cases hl : ∃ l, some l ∈ serverInfos
  · obtain ⟨l,hl⟩ := hl
    have he := extends_ofServers before
    refine addServers_triple hg (fun _ _ h => h.2) he
      (unembedServers_triple he fun _ h => h.extends_unembed channel.id) ?_
    apply Triple.seq ((addServer_forM_some hl).weaken_pre fun _ h => h.2)
    exact (deploy_keeps (added_ofServers channel.id before) fun _ h => .inl h).conseq
      (fun _ h => h) (fun _ _ h => h.2) fun _ _ h => h.2
  · have hs := sameEmbedded_ofServers channel.id before
    refine addServers_triple hg (fun _ _ h => h.2) hs
      (unembedServers_triple hs fun _ hnet => hnet.unembed_eq (h.resolve_left hl)) ?_
    apply Triple.seq (addServer_forM_none (forall_eq_none_of_not_launched hl))
    exact (deploy_keeps hs fun _ h => .inr h).conseq (fun _ h => h.2) (fun _ _ h => h.2)
      fun _ _ h => h.2

/-- The deployment saves that servers were unembedded, although none was added. -/
theorem addPropagationServers_worseOff
    (hc : before.getPropagationChannelByName channelName = some channel)
    (hf : ¬∃ l, some l ∈ serverInfos) {s : Server}
    (hs : s ∈ before.servers) (hr : isReplaced channel.id s = true) :
    Triple (fun w => Grown before w.net ∧ NoWorseOff channel.id before w.saved)
      (addServers env serverInfos channelName none true given now)
      (fun _ w => ¬NoWorseOff channel.id before w.saved) (fun _ _ => True) := by
  have hw := worseOff_ofServers channel.id before
  refine addServers_triple (fun _ h => h.getPropagationChannelByName_eq hc)
    (fun _ _ _ => trivial) hw
    (unembedServers_triple hw fun _ h => h.worseOff_unembed hs hr) ?_
  apply Triple.seq (addServer_forM_none (forall_eq_none_of_not_launched hf))
  exact (deploy_saves hw).conseq (fun _ h => ⟨h.1,h.2.1⟩) (fun _ _ h => h.not_noWorseOff)
    fun _ _ h => h

end Phases

/-- How a script that was caught ended. -/
def Ended (Post : World → Prop) (E : Failure → World → Prop) : Option Failure → World → Prop
  | none => Post
  | some failure => E failure

theorem caught_triple {P Post : World → Prop} {E F : Failure → World → Prop} {s : Script Unit}
    (h : Triple P s (fun _ => Post) E) : Triple P (caught s) (Ended Post E) F :=
  .tryCatch (.bind h fun _ => .pure fun _ hw => hw) fun _ => .pure fun _ hw => hw

/-- No propagation server is asked for, or one was launched, or none is embedded that is replaced.
-/
def Replaceable (launch : ℕ → Option Launched) (discovery propagation : ℤ) (channelId : Id)
    (net : Network) : Prop :=
  propagation ≤ 0 ∨
    (∃ launched, some launched ∈ pyDrop (launchNewServers launch discovery propagation) discovery) ∨
      ∀ server ∈ net.servers, isReplaced channelId server = false

section Replace

variable {env : Outside} {counts : PropagationChannel → ChannelCounts}
  {launch : ℕ → Option Launched} {channelName : String} {newDiscovery newPropagation : Option ℤ}
  {now : Date} {w : World} {channel : PropagationChannel}

/-- The phase for the propagation servers begins with the embedded servers as they were. -/
theorem replace_triple {Post : World → Prop} {E : Failure → World → Prop}
    (hc : w.net.getPropagationChannelByName channelName = some channel)
    (hs : NoWorseOff channel.id w.net w.saved)
    (hb : ∀ e w', NoWorseOff channel.id w.net w'.saved → E e w') (ha : ∀ e w', Post w' → E e w')
    (hp :
      let discovery := newDiscovery.getD (counts channel).newDiscoveryServersCount
      let propagation := newPropagation.getD (counts channel).newPropagationServersCount
      Triple (fun w' => Grown w.net w'.net ∧ NoWorseOff channel.id w.net w'.saved)
        (caughtIfAsked propagation
          (addServers env (pyDrop (launchNewServers launch discovery propagation) discovery)
            channelName none true none now)) (Ended Post E) E) :
    Triple (· = w) (replacePropagationChannelServers env counts launch channelName newDiscovery
      newPropagation now) (fun _ => Post) E := by
  let I (w' : World) : Prop := Grown w.net w'.net ∧ NoWorseOff channel.id w.net w'.saved
  apply Triple.get
  rintro _ rfl
  refine raisePy_bind (fun _ _ => ?_) (by rintro e _ rfl; exact hb _ _ hs)
  rw [hc]
  apply raisePy_bind_ok (givenOrSetting_some ..)
  apply raisePy_bind_ok (givenOrSetting_some ..)
  refine .weaken_pre (P := I) ?_ (by rintro _ rfl; exact ⟨.refl _,hs⟩)
  apply Triple.bind (Q := fun _ => I)
  · apply Triple.when
    refine (caught_triple (addDiscoveryServers_keeps hc fun _ h =>
      .inr (h.embeddedIds_eq channel.id))).weaken_post ?_
    rintro (_ | failure) w' h <;> exact h
  intro df
  apply Triple.bind hp
  rintro (_ | failure)
  · cases df with
    | none => exact .skip
    | some failure => exact .throw fun w' h => ha failure w' h
  · exact .throw fun _ h => h

/-- The database last saved has a new propagation server, or the servers are embedded as before, if
a launch succeeded or nothing was to be replaced. If all launches failed, only if the deployment
raised. -/
theorem replaceServers_noWorseOff_iff
    (hchannel : w.net.getPropagationChannelByName channelName = some channel)
    (hsaved : embeddedIds channel.id w.saved = embeddedIds channel.id w.net) :
    let run := replacePropagationChannelServers env counts launch channelName newDiscovery
      newPropagation now
    let replaceable := Replaceable launch
      (newDiscovery.getD (counts channel).newDiscoveryServersCount)
      (newPropagation.getD (counts channel).newPropagationServersCount) channel.id w.net
    (∀ w', run w = .ok () w' → (NoWorseOff channel.id w.net w'.saved ↔ replaceable)) ∧
      ∀ e w', run w = .error e w' → replaceable → NoWorseOff channel.id w.net w'.saved := by
  intro run replaceable
  have hk : replaceable → Triple (· = w) run (fun _ w' => NoWorseOff channel.id w.net w'.saved)
      fun _ w' => NoWorseOff channel.id w.net w'.saved := by
    intro h
    refine replace_triple hchannel (.inr hsaved) (fun _ _ h => h) (fun _ _ h => h) ?_
    apply Triple.ite
    · intro hpos
      exact caught_triple (addPropagationServers_noWorseOff hchannel
        (h.resolve_left (not_le.mpr hpos)))
    · exact fun _ => .pure fun _ h => h.2
  have hl : ¬replaceable → Triple (· = w) run
      (fun _ w' => ¬NoWorseOff channel.id w.net w'.saved) fun _ _ => True := by
    intro h
    obtain ⟨hpos,hf,hold⟩ := by simpa only [replaceable,Replaceable,not_or] using h
    obtain ⟨s,hs,hr⟩ : ∃ s ∈ w.net.servers, isReplaced channel.id s = true := by
      by_contra hn
      exact hold fun s hs => Bool.eq_false_iff.mpr fun h => hn ⟨s,hs,h⟩
    refine replace_triple hchannel (.inr hsaved) (fun _ _ _ => trivial) (fun _ _ _ => trivial) ?_
    apply Triple.ite
    · exact fun _ => caught_triple (addPropagationServers_worseOff hchannel hf hs hr)
    · exact fun h => absurd (not_lt.mp h) hpos
  refine ⟨fun w' hrun => ⟨fun h => ?_,fun h => (hk h).of_ok rfl hrun⟩,
    fun e w' hrun h => (hk h).of_error rfl hrun⟩
  by_contra hnot
  exact (hl hnot).of_ok rfl hrun h

end Replace

def embeddedWorld : World :=
  let net : Network :=
    { Network.init with
      isLocked := true
      propagationChannels := (Table.empty PropagationChannel.id).add ⟨"C", "channel"⟩
      hosts := (Table.empty Host.id).add (plainHost "H" true)
      servers := (Table.empty Server.id).add
        { plainServer "A" "H" none with propagationChannelId := "C", isEmbedded := true } }
  { net := net, saved := net, sent := fun _ => none, done := [], calls := 0 }

def launchedServer : Launched where
  host := plainHost "G" true
  ipAddress := "10.0.0.2"
  draws :=
    { osshPort := 53
      osshPort_mem := by decide
      discoveryMeek := false
      obfuscatedPort := 1
      obfuscatedPort_mem := by decide +kernel
      meekMode := .https
      meekKeys := ⟨"key", "public", "private"⟩
      webServerPort := 8080
      webServerPort_mem := ⟨by decide, by decide⟩
      serverId := "B"
      webServerSecret := "secret"
      webServerCertificate := "certificate"
      webServerPrivateKey := "key"
      sshUsername := "user"
      sshPassword := "password"
      sshHostKey := "ssh-rsa key"
      sshObfuscatedKey := "obfuscated" }

def replaceOne (launch : ℕ → Option Launched) : Script Unit :=
  replacePropagationChannelServers noCallRaises (fun _ => ⟨0, 0⟩) launch "channel" none (some 1) 0

def returnsWith (ids : Finset Id) (script : Script Unit) : Bool :=
  match script embeddedWorld with
  | .ok _ w' => decide (embeddedIds "C" w'.saved = ids)
  | .error _ _ => false

theorem exists_of_returnsWith (ids : Finset Id) (s : Script Unit) (h : returnsWith ids s = true) :
    ∃ w', s embeddedWorld = .ok () w' ∧ embeddedIds "C" w'.saved = ids := by
  cases hr : s embeddedWorld with
  | ok _ w' => exact ⟨w',rfl,by simpa [returnsWith,hr] using h⟩
  | error e w' => simp [returnsWith,hr] at h

theorem replaceServers_noWorseOff_oneLaunched :
    ∃ w', replaceOne (fun _ => some launchedServer) embeddedWorld = .ok () w' ∧
      embeddedIds "C" w'.saved = {"B"} ∧ NoWorseOff "C" embeddedWorld.net w'.saved := by
  obtain ⟨w',hr,hs⟩ := exists_of_returnsWith {"B"}
    (replaceOne fun _ => some launchedServer) (by decide +kernel)
  have hc : embeddedWorld.net.getPropagationChannelByName "channel" = some ⟨"C","channel"⟩ := rfl
  refine ⟨w',hr,hs,((replaceServers_noWorseOff_iff hc rfl).1 w' hr).mpr ?_⟩
  exact .inr (.inl ⟨launchedServer,.head _⟩)

/-- The only launch fails, and the database is saved with no server embedded for the channel. -/
theorem replaceServers_unembedded_launchFails :
    ∃ w', replaceOne (fun _ => none) embeddedWorld = .ok () w' ∧
      embeddedIds "C" embeddedWorld.saved = {"A"} ∧ embeddedIds "C" w'.saved = ∅ ∧
      ¬NoWorseOff "C" embeddedWorld.net w'.saved := by
  obtain ⟨w',hr,hs⟩ := exists_of_returnsWith ∅ (replaceOne fun _ => none) (by decide +kernel)
  have hb : embeddedIds "C" embeddedWorld.net = {"A"} := by decide +kernel
  refine ⟨w',hr,hb,hs,?_⟩
  rintro (⟨id,hid,-⟩ | hsa)
  · rw [hs] at hid
    exact Finset.notMem_empty id hid
  · rw [hs,hb] at hsa
    exact Finset.singleton_ne_empty "A" hsa.symm

end Psiphon.Ops
