import Mathlib.Data.List.Rotate
import Psiphon.Ops.Compartment
import Psiphon.Ops.ServerEntry

/-!
# Discovery on different hosts

The candidates are the same on all hosts, and the one that is selected is the same whatever the
order exactly when there is at most one.
-/

namespace Psiphon.Ops

open List

/-- The orders in which a host can iterate over the servers of its data. -/
def HostData.IterationOrder : HostData → List Server → Prop
  | legacy copy, order => order.Perm copy.servers.records
  | tcs data, order => order = data.servers

def candidateIds (t : Date) (order : List Server) : List Id :=
  (order.filter (Server.discoverable t)).map Server.id

/-- The id of the server a client with strategy value `v` discovers at `t`, in the second
`timeInSeconds`. -/
def discoveredIds (order : List Server) (t : Date) (v timeInSeconds : ℕ) : Py (List Id) :=
  (Discovery.selectServers (order.filter (Server.discoverable t)) v timeInSeconds).map
    (List.map Server.id)

/-- Clients discover the same server from both data at `t`. -/
def SameAnswer (a b : HostData) (t : Date) : Prop :=
  ∀ order₁ order₂, a.IterationOrder order₁ → b.IterationOrder order₂ →
    ∀ v timeInSeconds,
      discoveredIds order₁ t v timeInSeconds = discoveredIds order₂ t v timeInSeconds

/-! ### The candidates are the same -/

theorem tcsServer_frame {s copy : Server} (h : tcsServer s = .ok copy) :
    copy.id = s.id ∧ copy.hostId = s.hostId ∧ copy.discoveryDateRange = s.discoveryDateRange := by
  unfold tcsServer at h
  cases hp : s.sshObfuscatedPort with
  | none => rw [hp] at h; cases h
  | some port =>
    rw [hp] at h
    cases hi : port.toInt with
    | error e => simp only [hi] at h; cases h
    | ok n => simp only [hi] at h; cases h; exact ⟨rfl,rfl,rfl⟩

theorem discoverable_congr {s copy : Server} (t : Date)
    (h : copy.discoveryDateRange = s.discoveryDateRange) :
    copy.discoverable t = s.discoverable t := by
  rw [Server.discoverable,Server.discoverable,h]

theorem candidateIds_mapM_tcsServer (t : Date) {servers c : List Server}
    (h : servers.mapM tcsServer = .ok c) : candidateIds t c = candidateIds t servers := by
  have hall := forall₂_of_mapM_eq_ok h
  clear h
  induction hall with
  | nil => rfl
  | @cons server copy servers c hs _ ih =>
    obtain ⟨hid,_,hr⟩ := tcsServer_frame hs
    have hd := discoverable_congr t hr
    simp only [candidateIds,filter_cons,hd] at ih ⊢
    split
    · rw [map_cons,map_cons,hid,ih]
    · exact ih

variable {t : Date}

theorem candidateIds_perm {l l' : List Server} (h : l.Perm l') :
    (candidateIds t l).Perm (candidateIds t l') :=
  (h.filter _).map _

theorem unexpired_of_discoverable {d t : Date} (hdt : d ≤ t) {s : Server}
    (h : s.discoverable t = true) : s.unexpired d = true := by
  unfold Server.discoverable at h
  unfold Server.unexpired
  cases hr : s.discoveryDateRange with
  | none => rw [hr] at h; cases h
  | some range =>
    rw [hr] at h
    simp only [Bool.and_eq_true,decide_eq_true_eq] at h ⊢
    exact Int.lt_of_le_of_lt hdt h.2

/-- Whatever a host's data leaves out was not discoverable. -/
theorem candidateIds_filter {d t : Date} (hdt : d ≤ t) {keeps : Server → Bool}
    (hk : ∀ s, s.unexpired d = true → keeps s = true) (servers : List Server) :
    candidateIds t (servers.filter keeps) = candidateIds t servers := by
  unfold candidateIds
  rw [filter_filter]
  congr 1
  apply filter_congr
  intro s _
  cases hd : s.discoverable t with
  | false => rfl
  | true => rw [hk s (unexpired_of_discoverable hdt hd),Bool.and_true]

variable {net : Network} {a : HostData}

theorem compartmentalize_tcs {d : Date} (h : compartmentalizeDataForTcs net d = .ok a) :
    ∃ data c, a = .tcs data ∧
      (net.servers.records.filter (Server.unexpired d)).mapM tcsServer = .ok c ∧
      data.servers = c.insertionSort fun x y => x.hostId ≤ y.hostId := by
  unfold compartmentalizeDataForTcs at h
  cases hm : (net.servers.records.filter (Server.unexpired d)).mapM tcsServer with
  | error e => rw [hm] at h; cases h
  | ok c =>
    cases hs : copySponsors net with
    | error e => rw [hm,hs] at h; cases h
    | ok sponsors =>
      rw [hm,hs] at h
      cases h
      exact ⟨_,c,rfl,rfl,rfl⟩

theorem compartmentalize_legacy {ia : Date} {hostId : Id} {date : Option Date}
    (h : compartmentalizeDataForHost net ia hostId false date = .ok a) :
    ∃ copy, a = .legacy copy ∧ copy.servers.records =
      net.servers.records.filter (legacyKeeps hostId (date.getD ia)) := by
  unfold compartmentalizeDataForHost at h
  cases hs : copySponsors net with
  | error e => rw [hs] at h; cases h
  | ok sponsors =>
    rw [hs] at h
    cases h
    exact ⟨_,rfl,rfl⟩

variable {order : List Server}

/-- In whatever order a host goes through its servers, it finds the candidates of the
whole database. -/
theorem candidateIds_order {ia d t : Date} (hdt : d ≤ t) {host : Host}
    (h : compartmentalizeDataForHost net ia host.id host.isTCS (some d) = .ok a)
    (ho : a.IterationOrder order) :
    (candidateIds t order).Perm (candidateIds t net.servers.records) := by
  cases htcs : host.isTCS with
  | true =>
    rw [htcs] at h
    obtain ⟨data,c,rfl,hm,hs⟩ := compartmentalize_tcs (d := d) h
    have hord : order = data.servers := ho
    rw [hord,hs]
    have hp := candidateIds_perm (t := t) (perm_insertionSort
      (fun x y : Server => x.hostId ≤ y.hostId) c)
    rwa [candidateIds_mapM_tcsServer t hm,candidateIds_filter hdt fun _ hu => hu] at hp
  | false =>
    rw [htcs] at h
    obtain ⟨copy,rfl,hrec⟩ := compartmentalize_legacy h
    have hp := candidateIds_perm (t := t) (show order.Perm copy.servers.records from ho)
    rwa [hrec,candidateIds_filter hdt fun _ hu => by simp [legacyKeeps,hu]] at hp

/-! ### The selection depends on the order -/

theorem discoveredIds_of_nil (h : candidateIds t order = []) (v tis : ℕ) :
    discoveredIds order t v tis = .ok [] := by
  have hn : order.filter (Server.discoverable t) = [] := map_eq_nil_iff.mp h
  rw [discoveredIds,hn]
  rfl

theorem discoveredIds_of_ne_nil (h : candidateIds t order ≠ []) (v tis : ℕ) :
    ∃ id, (candidateIds t order)[Discovery.selectedIndex (candidateIds t order).length v
        tis]? = some id ∧ discoveredIds order t v tis = .ok [id] := by
  have hne : order.filter (Server.discoverable t) ≠ [] := by
    intro hn
    apply h
    rw [candidateIds,hn]
    rfl
  obtain ⟨s,hi,hs⟩ := Discovery.selectServers_eq hne v tis
  refine ⟨s.id,?_,?_⟩
  · rw [candidateIds,length_map,List.getElem?_map,hi]
    rfl
  · rw [discoveredIds,hs]
    rfl

theorem discoveredIds_congr {order order' : List Server}
    (h : candidateIds t order = candidateIds t order') (v tis : ℕ) :
    discoveredIds order t v tis = discoveredIds order' t v tis := by
  by_cases hn : candidateIds t order = []
  · rw [discoveredIds_of_nil hn,discoveredIds_of_nil (h ▸ hn)]
  · obtain ⟨id,hi,hd⟩ := discoveredIds_of_ne_nil hn v tis
    obtain ⟨id',hi',hd'⟩ := discoveredIds_of_ne_nil (h ▸ hn) v tis
    rw [← h,hi] at hi'
    rw [hd,hd',Option.some.inj hi']

theorem eq_of_perm_of_length_le_one {α : Type*} {l l' : List α} (h : l.Perm l')
    (hl : l'.length ≤ 1) : l = l' := by
  match l', hl with
  | [], _ => exact h.eq_nil
  | [x], _ => exact h.eq_singleton

theorem getElem?_rotate_one_ne {l : List Id} (hl : l.Nodup) (h2 : 2 ≤ l.length) {i : ℕ}
    (hi : i < l.length) : (l.rotate 1)[i]? ≠ l[i]? := by
  have hmod : (i + 1) % l.length < l.length := Nat.mod_lt _ (by omega)
  have hne : (i + 1) % l.length ≠ i := by
    by_cases hla : i + 1 = l.length
    · rw [hla,Nat.mod_self]
      omega
    · rw [Nat.mod_eq_of_lt (by omega)]
      omega
  rw [List.getElem?_rotate hi,List.getElem?_eq_getElem hmod,List.getElem?_eq_getElem hi]
  intro heq
  exact hne (hl.getElem_inj_iff.mp (Option.some.inj heq))

/-- With two candidates or more, another order of the same servers has another answer. -/
theorem exists_order_discoveredIds_ne (hnd : (candidateIds t order).Nodup)
    (h2 : 2 ≤ (candidateIds t order).length) (v timeInSeconds : ℕ) : ∃ order', order'.Perm order ∧
      discoveredIds order' t v timeInSeconds ≠ discoveredIds order t v timeInSeconds := by
  let candidates := order.filter (Server.discoverable t)
  let others := order.filter fun server => !server.discoverable t
  have hp : (candidates.rotate 1 ++ others).Perm order :=
    ((rotate_perm candidates 1).append_right others).trans
      (filter_append_perm (Server.discoverable t) order)
  have hids : candidateIds t (candidates.rotate 1 ++ others) = (candidateIds t order).rotate 1 := by
    have hc : (candidates.rotate 1).filter (Server.discoverable t) = candidates.rotate 1 := by
      apply filter_eq_self.mpr
      intro server hs
      exact (mem_filter.mp (mem_rotate.mp hs)).2
    have hoth : others.filter (Server.discoverable t) = [] := by
      apply filter_eq_nil_iff.mpr
      intro server hs
      simpa using (mem_filter.mp hs).2
    rw [candidateIds,filter_append,hc,hoth,append_nil,map_rotate]
    rfl
  refine ⟨_,hp,?_⟩
  intro heq
  have hpos : candidateIds t order ≠ [] := fun hnil => by rw [hnil] at h2; simp at h2
  have hpos' : candidateIds t (candidates.rotate 1 ++ others) ≠ [] := by
    rw [hids]
    simpa using hpos
  obtain ⟨id,hidx,hd⟩ := discoveredIds_of_ne_nil hpos v timeInSeconds
  obtain ⟨id',hidx',hd'⟩ := discoveredIds_of_ne_nil hpos' v timeInSeconds
  rw [hd,hd'] at heq
  rw [hids,length_rotate] at hidx'
  have hpos : 0 < (candidateIds t order).length := by omega
  have hlt := Discovery.selectedIndex_lt hpos v timeInSeconds
  apply getElem?_rotate_one_ne hnd h2 hlt
  rw [hidx',hidx]
  simpa using heq

theorem nodup_candidateIds (net : Network) (t : Date) :
    (candidateIds t net.servers.records).Nodup :=
  net.servers.nodup.sublist (filter_sublist.map Server.id)

theorem iterationOrder_servers (a : HostData) : a.IterationOrder a.servers := by
  cases a with
  | legacy copy => exact List.Perm.refl _
  | tcs data => rfl

/-- A legacy host has two orders with different answers when there are two candidates. -/
theorem legacy_answers_differ {ia d t : Date} (hdt : d ≤ t) {host : Host}
    (h : compartmentalizeDataForHost net ia host.id host.isTCS (some d) = .ok a)
    (htcs : host.isTCS = false) (h2 : 2 ≤ (candidateIds t net.servers.records).length) :
    ∃ order, a.IterationOrder order ∧
      discoveredIds order t 0 0 ≠ discoveredIds a.servers t 0 0 := by
  have hp := candidateIds_order hdt h (iterationOrder_servers a)
  have hnd := hp.nodup_iff.mpr (nodup_candidateIds net t)
  have h2' : 2 ≤ (candidateIds t a.servers).length := by
    rw [hp.length_eq]
    exact h2
  obtain ⟨order,ho,hne⟩ := exists_order_discoveredIds_ne hnd h2' 0 0
  refine ⟨order,?_,hne⟩
  rw [htcs] at h
  obtain ⟨copy,rfl,_⟩ := compartmentalize_legacy h
  exact ho

theorem same_answer_of_tcs {ia d : Date} {host₁ host₂ : Host} {a b : HostData}
    (ha : compartmentalizeDataForHost net ia host₁.id host₁.isTCS (some d) = .ok a)
    (hb : compartmentalizeDataForHost net ia host₂.id host₂.isTCS (some d) = .ok b)
    (h₁ : host₁.isTCS = true) (h₂ : host₂.isTCS = true) (t : Date) : SameAnswer a b t := by
  rw [h₁] at ha
  rw [h₂] at hb
  -- the host does not enter the data of a TCS host
  have hab : a = b := Except.ok.inj (ha.symm.trans hb)
  obtain ⟨data,_,rfl,_,_⟩ := compartmentalize_tcs (d := d) ha
  intro order₁ order₂ ho₁ ho₂ v timeInSeconds
  rw [← hab] at ho₂
  rw [show order₁ = data.servers from ho₁,show order₂ = data.servers from ho₂]

/-- Two hosts give every client the same discovery server at `t`, whatever the iteration
orders, exactly when both are TCS hosts or at most one server is discoverable. -/
theorem same_answer_iff {net : Network} {importedAt d t : Date} (hdt : d ≤ t) {host₁ host₂ : Host}
    {a b : HostData}
    (ha : compartmentalizeDataForHost net importedAt host₁.id host₁.isTCS (some d) = .ok a)
    (hb : compartmentalizeDataForHost net importedAt host₂.id host₂.isTCS (some d) = .ok b) :
    SameAnswer a b t ↔ (host₁.isTCS = true ∧ host₂.isTCS = true) ∨
      (candidateServers net t).length ≤ 1 := by
  have hlen : (candidateServers net t).length = (candidateIds t net.servers.records).length := by
    rw [candidateIds,length_map]
    rfl
  rw [hlen]
  constructor
  · intro hs
    by_contra hn
    rw [not_or,not_and_or,Bool.not_eq_true,Bool.not_eq_true,Nat.not_le] at hn
    obtain ⟨hl,h2⟩ := hn
    rcases hl with h₁ | h₂
    · obtain ⟨order,ho,hne⟩ := legacy_answers_differ hdt ha h₁ h2
      have hb' := iterationOrder_servers b
      apply hne
      rw [hs order b.servers ho hb' 0 0,hs a.servers b.servers (iterationOrder_servers a) hb' 0 0]
    · obtain ⟨order,ho,hne⟩ := legacy_answers_differ hdt hb h₂ h2
      have ha' := iterationOrder_servers a
      apply hne
      rw [← hs a.servers order ha' ho 0 0,hs a.servers b.servers ha' (iterationOrder_servers b) 0 0]
  · rintro (⟨h₁,h₂⟩ | h1)
    · exact same_answer_of_tcs ha hb h₁ h₂ t
    · intro order₁ order₂ ho₁ ho₂ v tis
      have hi₁ := eq_of_perm_of_length_le_one (candidateIds_order hdt ha ho₁) h1
      have hi₂ := eq_of_perm_of_length_le_one (candidateIds_order hdt hb ho₂) h1
      exact discoveredIds_congr (hi₁.trans hi₂.symm) v tis

def twoServerNetwork (isTCS : Bool) : Network :=
  { Network.init with
    hosts := ((Table.empty Host.id).add (plainHost "H1" isTCS)).add (plainHost "H2" isTCS)
    servers := ((Table.empty Server.id).add (plainServer "S1" "H1" (some (0, 10)))).add
      (plainServer "S2" "H2" (some (0, 10))) }

theorem same_answer_on_tcs_hosts :
    ∃ a b, compartmentalizeDataForHost (twoServerNetwork true) 0 "H1" true (some 0) = .ok a ∧
      compartmentalizeDataForHost (twoServerNetwork true) 0 "H2" true (some 0) = .ok b ∧
      SameAnswer a b 5 := by
  refine ⟨_,_,rfl,rfl,(@same_answer_iff (twoServerNetwork true) 0 0 5 (by decide)
    (plainHost "H1" true) (plainHost "H2" true) _ _ rfl rfl).mpr (.inl ⟨rfl,rfl⟩)⟩

/-- The dictionaries of two legacy hosts iterate in opposite orders: a client discovers one
server through the first host and the other through the second. -/
theorem answers_differ_on_legacy_hosts :
    ∃ a b, compartmentalizeDataForHost (twoServerNetwork false) 0 "H1" false (some 0) = .ok a ∧
      compartmentalizeDataForHost (twoServerNetwork false) 0 "H2" false (some 0) = .ok b ∧
      ¬ SameAnswer a b 5 := by
  refine ⟨_,_,rfl,rfl,fun h => ?_⟩
  have heq := h [plainServer "S1" "H1" (some (0, 10)),plainServer "S2" "H2" (some (0, 10))]
    [plainServer "S2" "H2" (some (0, 10)),plainServer "S1" "H1" (some (0, 10))]
    (List.Perm.refl _) (List.Perm.swap _ _ _) 0 0
  exact absurd heq (by decide +kernel)

end Psiphon.Ops
