import Psiphon.Ops.SameAnswer

/-!
# What a host is told

Records are selected by the time at which the module was imported, so that a server whose discovery
range has ended since is still sent.
-/

namespace Psiphon.Ops

open List

def Server.EndsAfter (t : Date) (server : Server) : Prop :=
  ∃ first last, server.discoveryDateRange = some (first, last) ∧ t < last

/-- At `t` the host needs to know a record of the server, if it is not one of its own. -/
structure NeedToKnow (net : Network) (host : Host) (t : Date) (data : HostData) : Prop where
  /-- Records of other hosts, and all records on TCS hosts, are discoverable now or later. -/
  minimal : ∀ server ∈ data.servers, (host.isTCS = true ∨ server.hostId ≠ host.id) →
    server.EndsAfter t
  own : host.isTCS = false → ∀ server ∈ net.servers, server.hostId = host.id →
    server.id ∈ data.servers.map Server.id
  discoverable : ∀ server ∈ net.servers, ∀ t' ≥ t, server.discoverable t' = true →
    server.id ∈ data.servers.map Server.id

variable {server : Server}

theorem unexpired_iff {d : Date} : server.unexpired d = true ↔ server.EndsAfter d := by
  unfold Server.unexpired Server.EndsAfter
  cases hr : server.discoveryDateRange with
  | none => simp
  | some r =>
    obtain ⟨first,last⟩ := r
    simp

/-- The records that the data for a host holds, up to the form of the ports. -/
def keeps (host : Host) (date : Date) (server : Server) : Bool :=
  if host.isTCS then server.unexpired date else legacyKeeps host.id date server

theorem mem_mapM_tcsServer {servers c : List Server} (h : servers.mapM tcsServer = .ok c)
    (p : Id → Id → Option (Date × Date) → Prop) :
    (∃ copy ∈ c, p copy.id copy.hostId copy.discoveryDateRange) ↔
      ∃ server ∈ servers, p server.id server.hostId server.discoveryDateRange := by
  have ha := forall₂_of_mapM_eq_ok h
  clear h
  induction ha with
  | nil => rfl
  | @cons server copy servers c hs _ ih =>
    obtain ⟨hid,hh,hr⟩ := tcsServer_frame hs
    simp only [exists_mem_cons_iff,hid,hh,hr,ih]

variable {host : Host}

/-- A property of id, host and range holds of some record in the data exactly when it holds
of some record that the data keeps. -/
theorem exists_mem_dataToDeploy {net : Network} {ia : Date} {data : HostData}
    (h : dataToDeploy net ia host = .ok data) (p : Id → Id → Option (Date × Date) → Prop) :
    (∃ copy ∈ data.servers, p copy.id copy.hostId copy.discoveryDateRange) ↔
      ∃ server ∈ net.servers, keeps host ia server = true ∧
        p server.id server.hostId server.discoveryDateRange := by
  unfold dataToDeploy at h
  cases htcs : host.isTCS with
  | true =>
    rw [htcs] at h
    obtain ⟨td,c,rfl,hm,hs⟩ := compartmentalize_tcs (d := ia) h
    have hc := mem_mapM_tcsServer hm p
    have hmem : ∀ copy, copy ∈ (HostData.tcs td).servers ↔ copy ∈ c := by
      intro copy
      rw [HostData.servers,hs,mem_insertionSort]
    simp only [hmem,hc,mem_filter,and_assoc,keeps,htcs,if_true]
    rfl
  | false =>
    rw [htcs] at h
    obtain ⟨copy,rfl,hrec⟩ := compartmentalize_legacy h
    simp only [HostData.servers,hrec,Option.getD_none,mem_filter,and_assoc,keeps,htcs]
    rfl

theorem id_mem_dataToDeploy {net : Network} {ia : Date} {data : HostData}
    (h : dataToDeploy net ia host = .ok data) (hs : server ∈ net.servers)
    (hk : keeps host ia server = true) : server.id ∈ data.servers.map Server.id := by
  obtain ⟨copy,hc,hid⟩ := (exists_mem_dataToDeploy h fun id _ _ => id = server.id).mpr
    ⟨server,hs,hk,rfl⟩
  exact mem_map.mpr ⟨copy,hc,hid⟩

theorem keeps_of_endsAfter {d : Date} (h : server.EndsAfter d) : keeps host d server = true := by
  have hu := unexpired_iff.mpr h
  unfold keeps legacyKeeps
  split
  · exact hu
  · rw [hu,Bool.or_true]

theorem endsAfter_of_keeps {d : Date} (hk : keeps host d server = true)
    (ho : host.isTCS = true ∨ server.hostId ≠ host.id) : server.EndsAfter d := by
  apply unexpired_iff.mp
  unfold keeps legacyKeeps at hk
  split at hk
  · exact hk
  · next ht =>
    have hne : server.hostId ≠ host.id := ho.resolve_left ht
    simpa [hne] using hk

/-- The data for a host tells it what it needs to know at `t` and no more exactly when no range of a
server that is not its own ended between the import and `t`. -/
theorem needToKnow_iff {net : Network} {ia t : Date} (hle : ia ≤ t)
    {data : HostData} (h : dataToDeploy net ia host = .ok data) : NeedToKnow net host t data ↔
      ∀ server ∈ net.servers, (host.isTCS = true ∨ server.hostId ≠ host.id) →
        ∀ first last, server.discoveryDateRange = some (first, last) →
          ¬ (ia < last ∧ last ≤ t) := by
  constructor
  · rintro hn server hs ho first last hr ⟨ha,hb⟩
    have hk : keeps host ia server = true := keeps_of_endsAfter ⟨first,last,hr,ha⟩
    obtain ⟨copy,hc,hh,hra⟩ := (exists_mem_dataToDeploy h fun _ hostId r =>
      hostId = server.hostId ∧ r = server.discoveryDateRange).mpr ⟨server,hs,hk,rfl,rfl⟩
    obtain ⟨first',last',hr',hlt⟩ := hn.minimal copy hc (by rwa [hh])
    rw [hra,hr] at hr'
    cases hr'
    exact absurd hb (Int.not_le.mpr hlt)
  · intro hco
    refine ⟨?_,?_,?_⟩
    · intro copy hc ho
      obtain ⟨server,hs,hk,hh,hra⟩ := (exists_mem_dataToDeploy h fun _ hostId r =>
        copy.hostId = hostId ∧ copy.discoveryDateRange = r).mp ⟨copy,hc,rfl,rfl⟩
      rw [hh] at ho
      obtain ⟨first,last,hr,ha⟩ := endsAfter_of_keeps hk ho
      have hnot := hco server hs ho first last hr
      refine ⟨first,last,hra.trans hr,?_⟩
      by_contra hge
      exact hnot ⟨ha,Int.not_lt.mp hge⟩
    · intro htcs server hs hown
      apply id_mem_dataToDeploy h hs
      simp [keeps,legacyKeeps,htcs,hown]
    · intro server hs t' ht' hd
      apply id_mem_dataToDeploy h hs
      apply keeps_of_endsAfter
      exact unexpired_iff.mp (unexpired_of_discoverable (Int.le_trans hle ht') hd)

/-- The same for every host that a deployment at `t` sends data to. -/
theorem deployed_needToKnow_iff {net : Network} {importedAt t : Date} (hle : importedAt ≤ t)
    {hosts : List Host} {sent : List (Host × HostData)}
    (h : deployDataToHosts hosts
      (fun hostId isTCS => compartmentalizeDataForHost net importedAt hostId isTCS none) = .ok sent)
    {host : Host} {data : HostData} (hm : (host, data) ∈ sent) :
    NeedToKnow net host t data ↔
      ∀ server ∈ net.servers, (host.isTCS = true ∨ server.hostId ≠ host.id) →
        ∀ first last, server.discoveryDateRange = some (first, last) →
          ¬ (importedAt < last ∧ last ≤ t) :=
  needToKnow_iff hle (dataToDeploy_of_mem h hm)

/-- Data deployed to two hosts at the time of the import. -/
theorem deployed_needToKnow_at_import :
    ∃ sent data, deployDataToHosts (twoServerNetwork false).hosts.records
        (fun hostId isTCS =>
          compartmentalizeDataForHost (twoServerNetwork false) 20 hostId isTCS none) = .ok sent ∧
      (plainHost "H1" false, data) ∈ sent ∧
      NeedToKnow (twoServerNetwork false) (plainHost "H1" false) 20 data := by
  refine ⟨_,_,rfl,.head _,(@deployed_needToKnow_iff (twoServerNetwork false) 20 20 (Int.le_refl 20)
    (twoServerNetwork false).hosts.records _ rfl _ _ (.head _)).mpr ?_⟩
  rintro server _ _ first last _ ⟨ha,hb⟩
  exact absurd hb (Int.not_le.mpr ha)

/-- The module was imported at 5 and data is deployed at 20: the first host is sent the
record of the other host's server, whose range ended at 10. -/
theorem deploy_discloses_ended_server :
    ∃ sent data, deployDataToHosts (twoServerNetwork false).hosts.records
        (fun hostId isTCS =>
          compartmentalizeDataForHost (twoServerNetwork false) 5 hostId isTCS none) = .ok sent ∧
      (plainHost "H1" false, data) ∈ sent ∧
      ¬ NeedToKnow (twoServerNetwork false) (plainHost "H1" false) 20 data := by
  refine ⟨_,_,rfl,(.head _),?_⟩
  intro hn
  obtain ⟨first,last,hr,hlt⟩ := hn.minimal (plainServer "S2" "H2" (some (0, 10)))
    (.tail _ (.head _)) (.inr (by decide))
  cases hr
  exact absurd hlt (by decide)

end Psiphon.Ops
