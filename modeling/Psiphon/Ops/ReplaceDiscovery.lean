import Psiphon.Ops.Mutators

/-!
# Ending the discovery of servers

The dates of the servers that are discovered are cut at the last midnight.
-/

namespace Psiphon.Ops

open Option

/-- The servers of the channel cannot be discovered any more, and the dates of the other servers and
of those that could not be discovered are as they were. -/
structure TakesEffect (channelId : Id) (now : Date) (before after : Network) : Prop where
  gone : ∀ server ∈ after.servers, server.propagationChannelId = channelId →
    server.discoverable now = false
  unchanged : ∀ server ∈ before.servers,
    server.propagationChannelId ≠ channelId ∨ server.discoverable now = false →
      (after.servers.get? server.id).map Server.discoveryDateRange = some server.discoveryDateRange

section Discovery

variable {channelId : Id} {now today : Date} {server : Server}

theorem discoverable_iff {date : Date} : server.discoverable date = true ↔
    ∃ first last, server.discoveryDateRange = some (first, last) ∧ first ≤ date ∧ date < last := by
  rw [Server.discoverable]
  cases server.discoveryDateRange with
  | none => simp
  | some r =>
    obtain ⟨first,last⟩ := r
    simp

theorem propagationChannelId_replacedServer :
    (replacedServer channelId today server).propagationChannelId = server.propagationChannelId := by
  unfold replacedServer
  split
  · rfl
  · split <;> rfl

theorem replacedServer_of_channel (h : server.propagationChannelId ≠ channelId) :
    replacedServer channelId today server = server := by
  unfold replacedServer
  split
  · rfl
  · exact if_neg fun hc => h hc.1

theorem replacedServer_of_not_discoverable (h : server.discoverable today = false) :
    replacedServer channelId today server = server := by
  unfold replacedServer
  split
  · rfl
  · rename_i first last hr
    refine if_neg fun hc => Bool.eq_false_iff.mp h ?_
    exact discoverable_iff.mpr ⟨first,last,hr,hc.2⟩

theorem discoveryDateRange_replacedServer {first last : Date}
    (hc : server.propagationChannelId = channelId)
    (hr : server.discoveryDateRange = some (first, last)) (hf : first ≤ today) (hl : today < last) :
    (replacedServer channelId today server).discoveryDateRange = some (first, today) := by
  simp only [replacedServer,hr]
  rw [if_pos ⟨hc,hf,hl⟩]

theorem discoverable_replacedServer (hc : server.propagationChannelId = channelId)
    (ht : today ≤ now) : (replacedServer channelId today server).discoverable now =
      (server.discoverable now && !server.discoverable today) := by
  cases h : server.discoverable today with
  | false => rw [replacedServer_of_not_discoverable h,Bool.not_false,Bool.and_true]
  | true =>
    obtain ⟨first,last,hr,hf,hl⟩ := discoverable_iff.mp h
    rw [Bool.not_true,Bool.and_false,Server.discoverable,
      discoveryDateRange_replacedServer hc hr hf hl]
    simp [not_lt.mpr ht]

theorem discoveryDateRange_replacedServer_eq_iff (hc : server.propagationChannelId = channelId) :
    (replacedServer channelId today server).discoveryDateRange = server.discoveryDateRange ↔
      server.discoverable today = false := by
  refine ⟨fun h => Bool.eq_false_iff.mpr fun ht => ?_,
    fun h => by rw [replacedServer_of_not_discoverable h]⟩
  obtain ⟨first,last,hr,hf,hl⟩ := discoverable_iff.mp ht
  rw [discoveryDateRange_replacedServer hc hr hf hl,hr] at h
  exact absurd (congrArg Prod.snd (Option.some.inj h)) hl.ne

theorem midnight_le (now : Date) : now / day * day ≤ now := Int.ediv_mul_le now (by decide)

/-- The replacement takes effect at once for the servers that can be discovered now exactly if they
could at midnight. -/
theorem replaceDiscovery_takesEffect_iff (channelId : Id) (now : Date) (net : Network) :
    TakesEffect channelId now net (replacePropagationChannelDiscoveryServers channelId now net) ↔
      ∀ server ∈ net.servers, server.propagationChannelId = channelId →
        server.discoverable (now / day * day) = server.discoverable now := by
  have hget : ∀ server ∈ net.servers,
      (replacePropagationChannelDiscoveryServers channelId now net).servers.get? server.id =
        some (replacedServer channelId (now / day * day) server) := by
    intro server hs
    rw [replacePropagationChannelDiscoveryServers,Table.get?_map,
      Table.get?_eq_some_iff.mpr ⟨hs,rfl⟩,map_some]
  constructor
  · intro h server hs hc
    have hg := h.gone _ (Table.get?_eq_some_iff.mp (hget server hs)).1
      (propagationChannelId_replacedServer.trans hc)
    rw [discoverable_replacedServer hc (midnight_le now)] at hg
    have hu := h.unchanged server hs
    rw [hget server hs,map_some,some_inj, discoveryDateRange_replacedServer_eq_iff hc] at hu
    cases hnow : server.discoverable now with
    | false => exact hu (.inr hnow)
    | true => simpa [hnow] using hg
  · intro h
    refine ⟨fun server' hs' hc => ?_,fun server hs hout => ?_⟩
    · obtain ⟨server,hs,rfl⟩ := List.mem_map.mp hs'
      rw [propagationChannelId_replacedServer] at hc
      rw [discoverable_replacedServer hc (midnight_le now),h server hs hc,Bool.and_not_self]
    · rw [hget server hs,map_some]
      by_cases hc : server.propagationChannelId = channelId
      · have hnow := hout.resolve_left (not_not_intro hc)
        rw [(discoveryDateRange_replacedServer_eq_iff hc).mpr ((h server hs hc).trans hnow)]
      · rw [replacedServer_of_channel hc]

end Discovery

def discoveryNetwork (range : Date × Date) : Network :=
  { Network.init with
    isLocked := true
    servers := (Table.empty Server.id).add
      { plainServer "A" "H" (some range) with propagationChannelId := "C" } }

/-- On the second of four days the server is discovered no longer. -/
theorem replaceDiscovery_takesEffect_secondDay :
    let net := discoveryNetwork (0, 4 * day)
    TakesEffect "C" (day + 1) net
      (replacePropagationChannelDiscoveryServers "C" (day + 1) net) := by
  refine (replaceDiscovery_takesEffect_iff "C" (day + 1) _).mpr fun server hs _ => ?_
  rw [List.mem_singleton.mp hs]
  decide +kernel

/-- A server whose discovery has begun since midnight stays discoverable, and the dates of one whose
discovery has ended since midnight are changed. -/
theorem replaceDiscovery_startedToday :
    let started := discoveryNetwork (day + 10, 4 * day)
    let ended := discoveryNetwork (0, day + 10)
    ¬TakesEffect "C" (day + 20) started
        (replacePropagationChannelDiscoveryServers "C" (day + 20) started) ∧
      ¬TakesEffect "C" (day + 20) ended
        (replacePropagationChannelDiscoveryServers "C" (day + 20) ended) := by
  refine ⟨fun h => ?_,fun h => ?_⟩
  · exact absurd (h.gone _ (.head _) rfl) (by decide +kernel)
  · exact absurd (h.unchanged _ (.head _) (.inr (by decide +kernel))) (by decide +kernel)

end Psiphon.Ops
