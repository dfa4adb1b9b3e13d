import Mathlib.Data.List.Flatten
import Psiphon.Client.EntryFixedPoint
import Psiphon.Client.UniqueAddresses

/-!
# The order of the list of servers

What the operations of `ServerList` store. On a list with pairwise different addresses their loops
are those of `Keyed`.
-/

namespace Psiphon.Client

open List Keyed
open Json (Bytes Value ascii)
open ServerEntry (serverAddress)

/-! ### Reordering -/

def ServerEntry.getPreferredReachablityTestPort (entry : ServerEntry) : ℤ :=
  if entry.hasCapability "OSSH" then entry.sshObfuscatedPort
  else if entry.hasCapability "SSH" then entry.sshPort
  else if entry.hasCapability "handshake" then entry.webServerPort
  else -1

structure Reachability where
  /-- `CreateThread` succeeds. -/
  created : Bool
  responded : Bool
  responseTime : UInt32

def maxWorkerThreads : ℕ := 30

def responseTimeThresholdFactor : UInt32 := 2

section Reorder

variable (check : ServerEntry → Reachability)

def checkedServers (shuffle : EntryShuffle) (serverEntries : List ServerEntry) :
    List ServerEntry :=
  let serverEntries :=
    if serverEntries.length > maxWorkerThreads then
      serverEntries.take (maxWorkerThreads / 2) ++
        shuffle.run (serverEntries.drop (maxWorkerThreads / 2))
    else serverEntries
  (serverEntries.filter fun entry =>
    entry.getPreferredReachablityTestPort ≠ -1 && (check entry).created).take maxWorkerThreads

def fastestResponseTime (checked : List ServerEntry) : UInt32 :=
  checked.foldl (fun fastest entry =>
    if (check entry).responded && (check entry).responseTime < fastest then
      (check entry).responseTime
    else fastest) 0xFFFFFFFF

def respondingServers (checked : List ServerEntry) : List ServerEntry :=
  checked.filter fun entry => (check entry).responded &&
    (check entry).responseTime ≤ fastestResponseTime check checked * responseTimeThresholdFactor

structure ReorderShuffles where
  embedded : EntryShuffle
  rest : EntryShuffle
  responding : EntryShuffle
  embeddedAgain : EntryShuffle

def preferredServers (shuffles : ReorderShuffles) (serverEntries : List ServerEntry) :
    List ServerEntry :=
  shuffles.responding.run
    (respondingServers check (checkedServers check shuffles.rest serverEntries))

/-- `ReorderServerList`; `meanwhile` is what other threads do to the registry while the servers are
checked. -/
def reorderServerList (config : ListConfig) (shuffles : ReorderShuffles)
    (meanwhile : Registry → Registry) : RegistryM Unit := do
  let serverEntries ← getList config shuffles.embedded
  modify meanwhile
  if preferredServers check shuffles serverEntries = [] then return ()
  else
    moveEntriesToFront config (preferredServers check shuffles serverEntries) false
      shuffles.embeddedAgain

theorem nodup_preferredServers {s : ReorderShuffles} {list : List ServerEntry}
    (h : (addresses list).Nodup) : (addresses (preferredServers check s list)).Nodup := by
  have hs : (if list.length > maxWorkerThreads then
      list.take (maxWorkerThreads / 2) ++ s.rest.run (list.drop (maxWorkerThreads / 2))
      else list).Perm list := by
    split
    · have hr := (s.rest.perm (list.drop (maxWorkerThreads / 2))).append_left
        (list.take (maxWorkerThreads / 2))
      rwa [take_append_drop] at hr
    · rfl
  have hc : (addresses (checkedServers check s.rest list)).Nodup :=
    ((hs.map _).nodup_iff.mpr h).sublist (((take_sublist _ _).trans filter_sublist).map _)
  exact (((s.responding.perm _).map _).nodup_iff.mpr (hc.sublist (filter_sublist.map _)))

end Reorder

/-! ### What is stored -/

section Stored

variable {config : ListConfig} {registry registry' : Registry} {list : List ServerEntry}
  {shuffle : EntryShuffle}

def Fits (config : ListConfig) (list : List ServerEntry) : Prop :=
  (encodeServerEntries config.platform list).length ≤ config.capacity

def Registry.store (config : ListConfig) (registry : Registry) (list : List ServerEntry) :
    Registry :=
  { registry with named := some (encodeServerEntries config.platform list) }

theorem writeListToSystem_of_fits (h : Fits config list) :
    writeListToSystem config list registry = registry.store config list := by
  rw [writeListToSystem]
  exact if_pos h

/-- The registry stores the list: it was written, or it is what is read. -/
def Stores (config : ListConfig) (registry : Registry) (list : List ServerEntry) : Prop :=
  registry.named = some (encodeServerEntries config.platform list) ∨
    getListFromSystem config registry = .ok list

theorem stores_store : Stores config (registry.store config list) list := .inl rfl

/-- `GetList` returns what is stored, unless it cannot be stored. -/
theorem stores_of_getList (h : getList config shuffle registry = .ok list registry')
    (hf : Fits config list) : Stores config registry' list := by
  rw [getList_run] at h
  obtain ⟨hl,rfl⟩ := EStateM.Result.ok.inj h
  cases hr : getListFromSystem config
      (writeListToSystem config (mergedList config shuffle registry) registry) with
  | ok stored =>
    rw [hr] at hl
    exact .inr (hr.trans (congrArg Except.ok hl))
  | error e =>
    rw [hr] at hl
    subst hl
    rw [writeListToSystem_of_fits hf]
    exact stores_store

end Stored

/-! ### Loops by address -/

section Loops

variable {list others : List ServerEntry} {entry found : ServerEntry} {address : Bytes} {i : ℕ}

theorem addresses_cons (entry : ServerEntry) (list : List ServerEntry) :
    addresses (entry :: list) = entry.serverAddress :: addresses list := rfl

theorem takeOut_of_find_none (h : find serverAddress address list = none) :
    takeOut address list = none := by
  induction list with
  | nil => rfl
  | cons first rest ih =>
    have hne : ¬ address = first.serverAddress := fun heq => by
      simp [find,heq] at h
    rw [takeOut,if_neg hne,ih (by simpa [find,Ne.symm hne] using h)]
    rfl

theorem takeOut_of_find (hnd : (addresses list).Nodup)
    (h : find serverAddress address list = some found) : ∃ i, takeOut address list =
        some (found, i, without serverAddress address list) ∧
      (i = 0 ↔ list.head? = some found) := by
  induction list with
  | nil => cases h
  | cons first rest ih =>
    obtain ⟨hf,hr⟩ := nodup_cons.mp hnd
    rw [takeOut]
    by_cases heq : address = first.serverAddress
    · subst heq
      have hfo : first = found := by simpa [find] using h
      have hw : without serverAddress first.serverAddress (first :: rest) = rest := by
        rw [without,filter_cons_of_neg (by simp)]
        exact without_eq_self hf
      rw [if_pos rfl,hw,hfo]
      exact ⟨0,rfl,by simp⟩
    · have hfi : find serverAddress address rest = some found := by
        simpa [find,Ne.symm heq] using h
      obtain ⟨i,ht,-⟩ := ih hr hfi
      have hw : without serverAddress address (first :: rest) =
          first :: without serverAddress address rest :=
        filter_cons_of_pos (by simpa using Ne.symm heq)
      rw [if_neg heq,ht,hw]
      refine ⟨i + 1,rfl,iff_of_false (Nat.succ_ne_zero i) fun hh => ?_⟩
      have hs : first = found := by simpa using hh
      rw [find_eq_some_iff hr] at hfi
      exact heq (hfi.2.symm.trans (congrArg serverAddress hs.symm))

/-! ### Moving to the front -/

section Moving

variable (platform : Platform)

/-- The list has the address with other values. -/
def Stale (list : List ServerEntry) (entry : ServerEntry) : Prop :=
  ∃ other ∈ list, other.serverAddress = entry.serverAddress ∧
    other.toText platform ≠ entry.toText platform

instance (list : List ServerEntry) : DecidablePred (Stale platform list) :=
  fun _ => inferInstanceAs (Decidable (∃ _ ∈ _, _))

def current (list entries : List ServerEntry) : List ServerEntry :=
  entries.filter fun entry => ¬ Stale platform list entry

def movedToFront (list entries : List ServerEntry) : List ServerEntry :=
  current platform list entries ++ outside serverAddress
    (addresses (current platform list entries)) list

def movedBehindHead (list entries : List ServerEntry) : List ServerEntry :=
  match list with
  | [] => current platform list entries
  | head :: rest =>
    head :: behind serverAddress head.serverAddress
      (current platform list entries) rest

variable {platform} {list list' entries : List ServerEntry} {entry head : ServerEntry}

theorem stale_iff (h : (addresses list).Nodup) : Stale platform list entry ↔
    ∃ o, find serverAddress entry.serverAddress list = some o ∧
      o.toText platform ≠ entry.toText platform := by
  simp only [find_eq_some_iff h,Stale,and_assoc]

theorem not_stale_of_find (h : (addresses list).Nodup)
    (hf : find serverAddress entry.serverAddress list = none) : ¬ Stale platform list entry := by
  rw [stale_iff h,hf]
  rintro ⟨other,ho,-⟩
  cases ho

theorem stale_congr (h : (addresses list).Nodup) (h' : (addresses list').Nodup)
    (hf : find serverAddress entry.serverAddress list' =
      find serverAddress entry.serverAddress list) :
    Stale platform list' entry ↔ Stale platform list entry := by
  rw [stale_iff h,stale_iff h',hf]

theorem current_cons_of_stale (h : Stale platform list entry) :
    current platform list (entry :: entries) = current platform list entries :=
  filter_cons_of_neg (by simpa using h)

theorem current_cons_of_not_stale (h : ¬ Stale platform list entry) :
    current platform list (entry :: entries) = entry :: current platform list entries :=
  filter_cons_of_pos (by simpa using h)

theorem addresses_current_sublist :
    (addresses (current platform list entries)).Sublist (addresses entries) :=
  filter_sublist.map _

theorem moveEntry_true (h : (addresses list).Nodup) : moveEntry platform true list entry =
      if Stale platform list entry then list else moveFront serverAddress entry list := by
  rw [moveEntry]
  cases hf : find serverAddress entry.serverAddress list with
  | none =>
    rw [takeOut_of_find_none hf,if_neg (not_stale_of_find h hf),moveFront,
      without_eq_self (find_eq_none_iff.mp hf)]
    rfl
  | some found =>
    obtain ⟨i,ht,-⟩ := takeOut_of_find h hf
    have hs : Stale platform list entry ↔ entry.toText platform ≠ found.toText platform := by
      simp [stale_iff h,hf,eq_comm]
    simp only [ht,hs]
    rfl

/-- An entry with the address of the head takes its place, and others go behind it. -/
theorem moveEntry_false (h : (addresses (head :: list)).Nodup) :
    moveEntry platform false (head :: list) entry =
      if Stale platform (head :: list) entry then head :: list
      else if entry.serverAddress = head.serverAddress then entry :: list
      else head :: moveFront serverAddress entry list := by
  rw [moveEntry]
  cases hfind : find serverAddress entry.serverAddress (head :: list) with
  | none =>
    have hn := find_eq_none_iff.mp hfind
    have hh : entry.serverAddress ≠ head.serverAddress := fun heq => hn (by simp [heq])
    have hl : entry.serverAddress ∉ list.map serverAddress :=
      fun hm => hn (.tail _ hm)
    rw [takeOut_of_find_none hfind,if_neg (not_stale_of_find h hfind),if_neg hh,
      moveFront,without_eq_self hl]
    rfl
  | some found =>
    obtain ⟨i,ht,hi⟩ := takeOut_of_find h hfind
    have hs : Stale platform (head :: list) entry ↔
        entry.toText platform ≠ found.toText platform := by
      simp [stale_iff h,hfind,eq_comm]
    obtain ⟨hf,ha⟩ := (find_eq_some_iff h).mp hfind
    have hfi : i = 0 ↔ entry.serverAddress = head.serverAddress := by
      rw [hi,← ha]
      refine ⟨fun hh => ?_,fun heq => ?_⟩
      · rw [Option.some.inj hh]
      · rw [inj_on_of_nodup_map h hf mem_cons_self heq]
        rfl
    simp only [ht,hs,hfi,Bool.false_or,decide_eq_true_eq]
    by_cases heq : entry.serverAddress = head.serverAddress
    · have hw : without serverAddress entry.serverAddress (head :: list) = list := by
        rw [without,filter_cons_of_neg (by simp [heq]),heq]
        exact without_eq_self (nodup_cons.mp h).1
      rw [hw]
      simp only [heq,if_true]
    · have hw : without serverAddress entry.serverAddress (head :: list) =
          head :: without serverAddress entry.serverAddress list :=
        filter_cons_of_pos (by simpa using Ne.symm heq)
      rw [hw]
      simp only [heq,if_false]
      rfl

/-- With `veryFront`, the loop from the back puts the entries in front in their order. -/
theorem foldl_moveEntry_true (hl : (addresses list).Nodup) (he : (addresses entries).Nodup) :
    entries.reverse.foldl (moveEntry platform true) list = movedToFront platform list entries := by
  rw [foldl_reverse]
  induction entries with
  | nil => exact outside_nil.symm
  | cons entry entries ih =>
    obtain ⟨hnew,hr⟩ := nodup_cons.mp he
    -- what is in front so far leaves the stored entry of this address where it was
    have hnew' : entry.serverAddress ∉ addresses (current platform list entries) :=
      fun hmem => hnew (addresses_current_sublist.subset hmem)
    have hfi : find serverAddress entry.serverAddress (movedToFront platform list entries) =
          find serverAddress entry.serverAddress list := by
      rw [movedToFront,find_append,find_eq_none_iff.mpr hnew',Option.none_or, find_outside hnew']
    have hc : ((current platform list entries).map serverAddress).Nodup :=
      hr.sublist addresses_current_sublist
    have hnd : (addresses (movedToFront platform list entries)).Nodup :=
      nodup_append_outside hc hl fun _ hmem => hmem
    rw [foldr_cons,ih hr,moveEntry_true hnd]
    by_cases hs : Stale platform list entry
    · rw [if_pos ((stale_congr hl hnd hfi).mpr hs),movedToFront,movedToFront,
        current_cons_of_stale hs]
    · rw [if_neg (mt (stale_congr hl hnd hfi).mp hs),movedToFront,movedToFront,
        current_cons_of_not_stale hs]
      have hco : ((entry :: current platform list entries).map serverAddress).Nodup :=
        nodup_cons.mpr ⟨hnew',hc⟩
      have hf := foldr_moveFront (l := list) hc
      rw [addresses,← hf]
      exact foldr_moveFront hco

/-- Without it, they come behind the head, which an entry with its address may replace. -/
theorem foldl_moveEntry_false (hl : (addresses (head :: list)).Nodup)
    (he : (addresses entries).Nodup) : ∃ head', head'.serverAddress = head.serverAddress ∧
      head'.toText platform = head.toText platform ∧
      (head.serverAddress ∉ addresses entries → head' = head) ∧
      entries.reverse.foldl (moveEntry platform false) (head :: list) =
        head' :: behind serverAddress head.serverAddress
          (current platform (head :: list) entries) list := by
  rw [foldl_reverse]
  induction entries with
  | nil => exact ⟨head,rfl,rfl,fun _ => rfl,congrArg (head :: ·) behind_nil.symm⟩
  | cons entry entries ih =>
    obtain ⟨hn,hr⟩ := nodup_cons.mp he
    obtain ⟨head',ha,ht,hsa,hf⟩ := ih hr
    have hsa' : head.serverAddress ∉ addresses (entry :: entries) → head' = head :=
      fun hm => hsa fun h => hm (.tail _ h)
    have hn' : entry.serverAddress ∉ addresses (current platform (head :: list) entries) :=
      fun hm => hn (addresses_current_sublist.subset hm)
    have hnd : (addresses (head' :: behind serverAddress head.serverAddress
        (current platform (head :: list) entries) list)).Nodup := by
      rw [← ha]
      refine nodup_cons_behind (hr.sublist addresses_current_sublist) ?_
      rwa [ha]
    -- the moves so far leave the stored entry of this address as it was
    have hs : Stale platform (head' :: behind serverAddress
        head.serverAddress (current platform (head :: list) entries) list) entry ↔
          Stale platform (head :: list) entry := by
      refine stale_congr hl hnd ?_
      by_cases heq : entry.serverAddress = head.serverAddress
      · rw [hsa (heq ▸ hn)]
        simp [find,heq]
      · have hne : ¬ head.serverAddress = entry.serverAddress := Ne.symm heq
        simpa [find,ha,hne] using find_behind hn'
    rw [foldr_cons,hf,moveEntry_false hnd]
    by_cases ho : Stale platform (head :: list) entry
    · rw [if_pos (hs.mpr ho),current_cons_of_stale ho]
      exact ⟨head',ha,ht,hsa',rfl⟩
    · rw [if_neg (mt hs.mp ho),current_cons_of_not_stale ho,ha]
      by_cases heq : entry.serverAddress = head.serverAddress
      · have hen : entry.toText platform = head.toText platform := by
          by_contra hne
          exact ho ⟨head,(.head _),heq.symm,.symm hne⟩
        refine ⟨entry,heq,hen,fun hm => absurd (by simp [addresses,heq]) hm,?_⟩
        rw [if_pos heq,← heq,behind_cons_of_eq]
        rw [heq]
        exact (nodup_cons.mp hl).1
      · rw [if_neg heq,behind_cons_of_ne heq hn']
        exact ⟨head',ha,ht,hsa',rfl⟩

end Moving

/-! ### Failed servers -/

/-- The failed servers behind the others, in the order in which they were marked last. -/
def failedLast (list failed : List ServerEntry) : List ServerEntry :=
  outside serverAddress (addresses failed) list ++
    (addresses failed).dedup.filterMap fun address =>
      find serverAddress address list

theorem failedLast_eq_self {failed : List ServerEntry}
    (h : ∀ entry ∈ failed, entry.serverAddress ∉ addresses list) :
    failedLast list failed = list := by
  have ho : outside serverAddress (addresses failed) list = list := by
    refine filter_eq_self.mpr fun entry he => ?_
    simp only [decide_eq_true_eq]
    intro hm
    obtain ⟨o,hot,heq⟩ := mem_map.mp hm
    exact h o hot (heq ▸ mem_map_of_mem he)
  have hf : (addresses failed).dedup.filterMap (fun address =>
      find serverAddress address list) = [] := by
    refine filterMap_eq_nil_iff.mpr fun address ha => ?_
    obtain ⟨o,hot,rfl⟩ := mem_map.mp (mem_dedup.mp ha)
    exact find_eq_none_iff.mpr (h o hot)
  rw [failedLast,ho,hf,append_nil]

theorem markFailed_eq (h : (addresses list).Nodup) (cm : Bool) (failed : ServerEntry) :
    markFailed (list, cm) failed = (moveBack serverAddress list failed.serverAddress,
        cm || decide (failed.serverAddress ∈ addresses list)) := by
  rw [markFailed,moveBack]
  cases hf : find serverAddress failed.serverAddress list with
  | none =>
    have hn : failed.serverAddress ∉ addresses list := find_eq_none_iff.mp hf
    simp [takeOut_of_find_none hf,hn]
  | some found =>
    obtain ⟨i,ht,-⟩ := takeOut_of_find h hf
    obtain ⟨hm,ha⟩ := (find_eq_some_iff h).mp hf
    have hk : failed.serverAddress ∈ addresses list := ha ▸ mem_map_of_mem hm
    simp [ht,hk]

theorem foldl_markFailed (h : (addresses list).Nodup) (cm : Bool) (failed : List ServerEntry) :
    failed.foldl markFailed (list, cm) = (failedLast list failed,
        cm || failed.any fun entry => entry.serverAddress ∈ addresses list) := by
  have hl : failed.foldl markFailed (list, cm) =
      ((addresses failed).foldl (moveBack serverAddress) list,
        cm || failed.any fun entry => entry.serverAddress ∈ addresses list) := by
    induction failed generalizing list cm with
    | nil => simp [addresses]
    | cons entry failed ih =>
      have hp := (perm_moveBack (k := entry.serverAddress) h).map serverAddress
      have hs : ∀ address, address ∈ addresses (moveBack serverAddress list entry.serverAddress) ↔
            address ∈ addresses list := fun address => hp.mem_iff
      rw [foldl_cons,markFailed_eq h,ih (hp.nodup_iff.mpr h)]
      simp only [hs,addresses_cons,foldl_cons,any_cons,Bool.or_assoc]
  rw [hl,foldl_moveBack h,failedLast]

/-! ### New servers -/

/-- What the list is after the new entries were added to it, and how many there were. -/
structure Added (list new list' : List ServerEntry) (n : ℕ) : Prop where
  distinct : (addresses list').Nodup
  mem_addresses : ∀ address, address ∈ addresses list' ↔
    address ∈ addresses list ∨ address ∈ addresses new
  /-- The last new entry with an address counts, and the old one if there is none. -/
  latest : ∀ address, find serverAddress address list' =
    (find serverAddress address new.reverse).or
      (find serverAddress address list)
  head : list ≠ [] → (addresses list').head? = (addresses list).head?
  order : (addresses list).Sublist (addresses list')
  count : n = ((addresses list').filter (· ∉ addresses list)).length

/-- Every entry is an old or a new one. -/
theorem Added.subperm {new list' : List ServerEntry} {n : ℕ} (h : Added list new list' n) :
    list'.Subperm (new ++ list) := by
  refine (Nodup.of_map _ h.distinct).subperm fun entry he => mem_append.mpr ?_
  have hf := h.latest entry.serverAddress
  rw [(find_eq_some_iff h.distinct).mpr ⟨he,rfl⟩] at hf
  rcases Option.or_eq_some_iff.mp hf.symm with hf | ⟨-,hf⟩
  · exact .inl (mem_reverse.mp (mem_of_find?_eq_some hf))
  · exact .inr (mem_of_find?_eq_some hf)

theorem replaceFirst_eq (h : (addresses list).Nodup) (entry : ServerEntry) :
    replaceFirst entry.serverAddress (fun _ => entry) list =
      if entry.serverAddress ∈ addresses list then some (list.map fun o =>
          if o.serverAddress = entry.serverAddress then entry else o) else none := by
  induction list with
  | nil => rfl
  | cons first rest ih =>
    obtain ⟨hf,hr⟩ := nodup_cons.mp h
    rw [replaceFirst,ih hr,addresses_cons]
    by_cases heq : entry.serverAddress = first.serverAddress
    · have hr' : rest.map (fun o =>
          if o.serverAddress = entry.serverAddress then entry else o) = rest := by
        refine (map_congr_left fun o ho => if_neg fun hs => hf ?_).trans (map_id rest)
        rw [← heq,← hs]
        exact mem_map_of_mem ho
      rw [if_pos heq,map_cons,hr',if_pos (by simp [heq]),if_pos heq.symm]
    · rw [if_neg heq,map_cons,if_neg (Ne.symm heq)]
      by_cases hm : entry.serverAddress ∈ addresses rest
      · rw [if_pos hm,if_pos (.tail _ hm)]
        rfl
      · rw [if_neg hm,if_neg (not_mem_cons_of_ne_of_not_mem heq hm)]
        rfl

theorem addDecoded_eq (h : (addresses list).Nodup) (n : ℕ) (entry : ServerEntry) :
    ∃ n', addDecoded (list, n) entry = (Keyed.upsert serverAddress list entry, n') ∧
      n' + list.length = n + (Keyed.upsert serverAddress list entry).length := by
  rw [addDecoded,replaceFirst_eq h,Keyed.upsert,addresses]
  by_cases hm : entry.serverAddress ∈ list.map serverAddress
  · rw [if_pos hm,if_pos hm]
    exact ⟨n,rfl,by rw [length_map]⟩
  · rw [if_neg hm,if_neg hm]
    refine ⟨n + 1,by rw [insertSecond_eq],?_⟩
    rw [(Keyed.perm_insertSecond entry list).length_eq,length_cons]
    omega

theorem foldl_addDecoded (h : (addresses list).Nodup) (n : ℕ) (new : List ServerEntry) :
    ∃ n', new.foldl addDecoded (list, n) = (new.foldl (Keyed.upsert serverAddress) list, n') ∧
      n' + list.length = n + (new.foldl (Keyed.upsert serverAddress) list).length := by
  induction new generalizing list n with
  | nil => exact ⟨n,rfl,rfl⟩
  | cons entry new ih =>
    obtain ⟨n₁,hs,hn₁⟩ := addDecoded_eq h n entry
    obtain ⟨n₂,hl,hn₂⟩ := ih (nodup_upsert (a := entry) h) n₁
    refine ⟨n₂,?_,?_⟩
    · rw [foldl_cons,hs,hl]
      rfl
    · rw [foldl_cons]
      omega

theorem added_foldl (h : (addresses list).Nodup) (new : List ServerEntry) :
    Added list new (new.foldl addDecoded (list, 0)).1 (new.foldl addDecoded (list, 0)).2 := by
  obtain ⟨n,hl,hn⟩ := foldl_addDecoded h 0 new
  have hu := upserted_foldl h new
  have hlen := hu.length h (p := fun address => decide (address ∉ addresses list))
    fun address => decide_eq_true_iff
  rw [hl]
  refine ⟨hu.nodup,hu.mem_keys,hu.find,hu.head,hu.sublist, ?_⟩
  rw [hlen,Nat.zero_add,Nat.add_comm] at hn
  exact Nat.add_left_cancel hn

end Loops

/-! ### Calls -/

section Calls

variable {config : ListConfig} {list entries : List ServerEntry} {registry registry' : Registry}
  {shuffle : EntryShuffle}

theorem writeListToSystem_of_encode {written : List ServerEntry}
    (h : encodeServerEntries config.platform written = encodeServerEntries config.platform list)
    (hf : Fits config list) :
    writeListToSystem config written registry = registry.store config list := by
  have hf' : Fits config written := by rwa [Fits,h]
  rw [writeListToSystem_of_fits hf',Registry.store,h]
  rfl

theorem moveEntriesToFront_run {vf : Bool}
    (hg : getList config shuffle registry = .ok list registry') :
    moveEntriesToFront config entries vf shuffle registry = .ok () (writeListToSystem config
        (entries.reverse.foldl (moveEntry config.platform vf) list) registry') :=
  Hoare.bind_of_ok hg

theorem moveEntriesToFront_true (hg : getList config shuffle registry = .ok list registry')
    (hl : (addresses list).Nodup) (he : (addresses entries).Nodup)
    (hf : Fits config (movedToFront config.platform list entries)) :
    moveEntriesToFront config entries true shuffle registry =
      .ok () (registry'.store config (movedToFront config.platform list entries)) := by
  rw [moveEntriesToFront_run hg,foldl_moveEntry_true hl he,writeListToSystem_of_fits hf]

theorem moveEntriesToFront_false (hg : getList config shuffle registry = .ok list registry')
    (hne : list ≠ []) (hl : (addresses list).Nodup) (he : (addresses entries).Nodup)
    (hf : Fits config (movedBehindHead config.platform list entries)) :
    moveEntriesToFront config entries false shuffle registry =
      .ok () (registry'.store config (movedBehindHead config.platform list entries)) := by
  cases list with
  | nil => exact absurd rfl hne
  | cons head list =>
    obtain ⟨head',-,ht,-,hfo⟩ :=
      @foldl_moveEntry_false config.platform _ _ _ hl he
    rw [moveEntriesToFront_run hg,hfo,writeListToSystem_of_encode ?_ hf]
    rw [movedBehindHead,encodeServerEntries_cons,encodeServerEntries_cons,ht]

theorem head_movedBehindHead {platform : Platform} (hne : list ≠ []) :
    (movedBehindHead platform list entries).head? = list.head? := by
  cases list with
  | nil => exact absurd rfl hne
  | cons head list => rfl

theorem outside_movedBehindHead {platform : Platform} (hne : list ≠ []) :
    outside serverAddress (addresses (current platform list entries))
        (movedBehindHead platform list entries) =
      outside serverAddress (addresses (current platform list entries)) list := by
  cases list with
  | nil => exact absurd rfl hne
  | cons head list =>
    have hb : outside serverAddress (addresses (current platform (head :: list) entries))
        (behind serverAddress head.serverAddress (current platform (head :: list) entries) list) =
        outside serverAddress
          (addresses (current platform (head :: list) entries)) list := outside_behind
    rw [movedBehindHead,outside,filter_cons,outside,filter_cons]
    exact if_congr .rfl (congrArg (head :: ·) hb) hb

/-- `MoveEntriesToFront` stores the entries that are not stale in front of the list, or behind its
head, and the others in their order. So `ReorderServerList` keeps the head and the order of what it
does not move. -/
theorem moved_entries_stored (config : ListConfig) {list entries : List ServerEntry}
    (hne : list ≠ []) (hlist : (addresses list).Nodup) :
    (∀ shuffle registry registry', (addresses entries).Nodup →
      getList config shuffle registry = .ok list registry' →
      (Fits config (movedToFront config.platform list entries) →
        moveEntriesToFront config entries true shuffle registry =
          .ok () (registry'.store config (movedToFront config.platform list entries))) ∧
      (Fits config (movedBehindHead config.platform list entries) →
        moveEntriesToFront config entries false shuffle registry =
          .ok () (registry'.store config (movedBehindHead config.platform list entries)))) ∧
    ∀ check shuffles meanwhile registry registry₁ registry₂ serverEntries,
      getList config shuffles.embedded registry = .ok serverEntries registry₁ →
      (addresses serverEntries).Nodup →
      getList config shuffles.embeddedAgain (meanwhile registry₁) = .ok list registry₂ →
      entries = preferredServers check shuffles serverEntries →
      Fits config (movedBehindHead config.platform list entries) →
      entries = [] ∧ reorderServerList check config shuffles meanwhile registry =
        .ok () (meanwhile registry₁) ∨
      ∃ list', reorderServerList check config shuffles meanwhile registry =
          .ok () (registry₂.store config list') ∧ list'.head? = list.head? ∧
        outside serverAddress
            (addresses (current config.platform list entries)) list' =
          outside serverAddress
            (addresses (current config.platform list entries)) list := by
  refine ⟨fun shuffle registry registry' he hg => ⟨moveEntriesToFront_true hg hlist he,
      moveEntriesToFront_false hg hne hlist he⟩,?_⟩
  rintro check shuffles meanwhile registry registry₁ registry₂ serverEntries hf hnd ha rfl hfi
  have hr : reorderServerList check config shuffles meanwhile registry =
      (if preferredServers check shuffles serverEntries = [] then return ()
      else moveEntriesToFront config (preferredServers check shuffles serverEntries) false
        shuffles.embeddedAgain : RegistryM Unit) (meanwhile registry₁) := Hoare.bind_of_ok hf
  by_cases hem : preferredServers check shuffles serverEntries = []
  · refine .inl ⟨hem,?_⟩
    rw [hr,if_pos hem]
    rfl
  · refine .inr ⟨_,?_,head_movedBehindHead hne,outside_movedBehindHead hne⟩
    rw [hr,if_neg hem]
    exact moveEntriesToFront_false ha hne hlist (nodup_preferredServers check hnd) hfi

def storedEntry (address : String) : ServerEntry :=
  { sampleEntry address "cert" with
    capabilities := [ascii "SSH"], sshPort := 22, meekServerPort := -1 }

def storedThree : List ServerEntry := [storedEntry "a", storedEntry "b", storedEntry "c"]

def roomyConfig : ListConfig :=
  { sampleConfig with
    capacity := (encodeServerEntries referencePlatform (storedEntry "d" :: storedThree)).length }

def threeServers : Registry := .store roomyConfig ⟨none, none⟩ storedThree

theorem fits_of_subperm {list' : List ServerEntry} (hp : list'.Subperm list)
    (h : Fits config list) : Fits config list' := by
  obtain ⟨l,hl,hs⟩ := hp
  refine le_trans ?_ h
  calc (encodeServerEntries config.platform list').length
      = (encodeServerEntries config.platform l).length := (hl.flatMap_right _).length_eq.symm
    _ ≤ _ := (hs.flatMap _).length_le

theorem fits_roomyConfig (h : list.Subperm (storedEntry "d" :: storedThree)) :
    Fits roomyConfig list :=
  fits_of_subperm h le_rfl

theorem fits_storedThree : Fits roomyConfig storedThree :=
  fits_roomyConfig (sublist_cons_self ..).subperm

theorem getList_threeServers :
    getList roomyConfig .id threeServers = .ok storedThree threeServers := by
  have hr : getListFromSystem roomyConfig threeServers = .ok storedThree := by decide +kernel
  have hm : mergedList roomyConfig .id threeServers = storedThree := by decide +kernel
  have hw : writeListToSystem roomyConfig storedThree threeServers = threeServers :=
    writeListToSystem_of_fits fits_storedThree
  rw [getList_run,hm,hw,hr]

def lastResponds (entry : ServerEntry) : Reachability :=
  ⟨true, entry.serverAddress = ascii "c", 5⟩

theorem moved_entries_stored_three :
    moveEntriesToFront roomyConfig [storedEntry "c"] true .id threeServers = .ok ()
      (threeServers.store roomyConfig [storedEntry "c", storedEntry "a", storedEntry "b"]) ∧
    moveEntriesToFront roomyConfig [storedEntry "c"] false .id threeServers = .ok ()
      (threeServers.store roomyConfig [storedEntry "a", storedEntry "c", storedEntry "b"]) ∧
    ∃ list', reorderServerList lastResponds roomyConfig ⟨.id, .id, .id, .id⟩ id threeServers =
        .ok () (threeServers.store roomyConfig list') ∧ list'.head? = some (storedEntry "a") := by
  have hnd : (addresses storedThree).Nodup := by decide
  obtain ⟨hm,hr⟩ :=
    @moved_entries_stored roomyConfig storedThree [storedEntry "c"] nofun hnd
  have hfr : movedToFront roomyConfig.platform storedThree [storedEntry "c"] =
      [storedEntry "c",storedEntry "a",storedEntry "b"] := by decide +kernel
  have hb : movedBehindHead roomyConfig.platform storedThree [storedEntry "c"] =
      [storedEntry "a",storedEntry "c",storedEntry "b"] := by decide +kernel
  have hfi : ∀ list : List ServerEntry, list.Perm storedThree → Fits roomyConfig list :=
    fun list hpe => fits_of_subperm hpe.subperm fits_storedThree
  obtain ⟨ht,hf⟩ := hm .id threeServers threeServers (by decide) getList_threeServers
  rw [hfr] at ht
  rw [hb] at hf hr
  have hp : [storedEntry "c"] =
      preferredServers lastResponds ⟨.id,.id,.id,.id⟩ storedThree := by decide +kernel
  refine ⟨ht (hfi _ (by decide)),hf (hfi _ (by decide)),?_⟩
  rcases hr lastResponds ⟨.id,.id,.id,.id⟩ id threeServers threeServers threeServers
    storedThree getList_threeServers hnd getList_threeServers hp
    (hfi _ (by decide)) with ⟨hem,-⟩ | ⟨list',hrun,hh,-⟩
  · cases hem
  · exact ⟨list',hrun,hh⟩

theorem markServersFailed_stores {failed : List ServerEntry}
    (hget : getList config shuffle registry = .ok list registry') (hl : (addresses list).Nodup)
    (hf : Fits config (failedLast list failed)) :
    ∃ registry'', markServersFailed config failed shuffle registry = .ok () registry'' ∧
      Stores config registry'' (failedLast list failed) := by
  have hrun : markServersFailed config failed shuffle registry =
      (if list = [] ∨ failed = [] then return ()
      else if failed.any fun entry => entry.serverAddress ∈ addresses list then
        modify (writeListToSystem config (failedLast list failed))
      else return () : RegistryM Unit) registry' := by
    rw [markServersFailed,Hoare.bind_of_ok hget,foldl_markFailed hl]
    rfl
  by_cases hany : ∃ entry ∈ failed, entry.serverAddress ∈ addresses list
  · obtain ⟨entry,he,hk⟩ := hany
    have hw : ¬ (list = [] ∨ failed = []) := by
      rintro (rfl | rfl)
      · exact absurd hk not_mem_nil
      · exact absurd he not_mem_nil
    have hc : (failed.any fun entry => entry.serverAddress ∈ addresses list) = true :=
      any_eq_true.mpr ⟨entry,he,decide_eq_true hk⟩
    refine ⟨registry'.store config (failedLast list failed),?_,stores_store⟩
    rw [hrun,if_neg hw,if_pos hc,← writeListToSystem_of_fits hf]
    rfl
  · -- nothing is written, and the list is what `GetList` has stored
    have hu : ∀ entry ∈ failed, entry.serverAddress ∉ addresses list :=
      fun entry he hmem => hany ⟨entry,he,hmem⟩
    have hc : ¬ (failed.any fun entry => entry.serverAddress ∈ addresses list) = true := by
      simpa using hu
    rw [failedLast_eq_self hu] at hf ⊢
    refine ⟨registry',?_,stores_of_getList hget hf⟩
    rw [hrun,if_neg hc,ite_self]
    rfl

theorem addEntriesToList_stores {new : List Bytes} {se : Option ServerEntry}
    {d : List ServerEntry} {es : EntryShuffle} (hn : ¬ (new = [] ∧ se = none))
    (hd : new.mapM (parseServerEntry config.platform) = .ok d)
    (hg : getList config es registry = .ok list registry') (hl : (addresses list).Nodup) :
    ∃ list' n, Added list (shuffle.run (d ++ se.toList)) list' n ∧ (Fits config list' →
        addEntriesToList config new se shuffle es registry =
          .ok n (registry'.store config list')) := by
  refine ⟨_,_,added_foldl hl _,fun hf => ?_⟩
  rw [addEntriesToList,if_neg hn,hd,← writeListToSystem_of_fits hf]
  exact Hoare.bind_of_ok hg

/-- `MarkServersFailed` and `AddEntriesToList` lose nothing of the list. With nothing to add,
`AddEntriesToList` does not read it. -/
theorem edits_lose_nothing (config : ListConfig) {list : List ServerEntry}
    (hlist : (addresses list).Nodup) :
    (∀ failed shuffle registry registry', getList config shuffle registry = .ok list registry' →
      Fits config (failedLast list failed) →
      ∃ registry'', markServersFailed config failed shuffle registry = .ok () registry'' ∧
        Stores config registry'' (failedLast list failed)) ∧
    (∀ new serverEntry decoded shuffle embeddedShuffle registry registry',
      ¬ (new = [] ∧ serverEntry = none) →
      new.mapM (parseServerEntry config.platform) = .ok decoded →
      getList config embeddedShuffle registry = .ok list registry' →
      ∃ list' n, Added list (shuffle.run (decoded ++ serverEntry.toList)) list' n ∧
        (Fits config list' →
          addEntriesToList config new serverEntry shuffle embeddedShuffle registry =
            .ok n (registry'.store config list'))) ∧
    ∀ shuffle embeddedShuffle registry,
      addEntriesToList config [] none shuffle embeddedShuffle registry = .ok 0 registry := by
  refine ⟨fun failed shuffle registry registry' hg hf =>
    markServersFailed_stores hg hlist hf,?_,fun _ _ _ => rfl⟩
  intro new serverEntry decoded shuffle embeddedShuffle registry registry' hn hd hg
  exact addEntriesToList_stores hn hd hg hlist

/-- The second server is marked, and a fourth one is added. -/
theorem edits_lose_nothing_three :
    (∃ registry, markServersFailed roomyConfig [storedEntry "b"] .id threeServers =
        .ok () registry ∧
      Stores roomyConfig registry [storedEntry "a", storedEntry "c", storedEntry "b"]) ∧
    ∃ list' n, Added storedThree [storedEntry "d"] list' n ∧
      addEntriesToList roomyConfig [] (some (storedEntry "d")) .id .id threeServers =
        .ok n (threeServers.store roomyConfig list') := by
  obtain ⟨hm,ha,-⟩ := @edits_lose_nothing roomyConfig storedThree (by decide)
  have hl : failedLast storedThree [storedEntry "b"] =
      [storedEntry "a",storedEntry "c",storedEntry "b"] := by decide +kernel
  have hf : Fits roomyConfig [storedEntry "a",storedEntry "c",storedEntry "b"] :=
    fits_of_subperm (Perm.subperm (by decide)) fits_storedThree
  obtain ⟨list',n,had,hrun⟩ := ha [] (some (storedEntry "d")) [] .id .id threeServers threeServers
    (by simp) rfl getList_threeServers
  refine ⟨?_,list',n,had,hrun (fits_roomyConfig had.subperm)⟩
  rw [← hl] at hf ⊢
  exact hm [storedEntry "b"] .id threeServers threeServers getList_threeServers hf

end Calls

end Psiphon.Client
