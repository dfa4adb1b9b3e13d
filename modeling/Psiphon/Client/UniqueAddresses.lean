import Psiphon.Client.ServerEntryText
import Psiphon.Client.ServerList
import Psiphon.Lib.Hoare
import Psiphon.Lib.Keyed
import Psiphon.Lib.Runs

/-!
# One entry for each address

Every operation of `ServerList` keeps the addresses of the stored list pairwise different.
-/

namespace Psiphon.Client

open List Option Hoare
open Json (Bytes Value ascii)

def addresses (list : List ServerEntry) : List Bytes := list.map ServerEntry.serverAddress

structure Good (list : List ServerEntry) : Prop where
  distinct : (addresses list).Nodup
  plain : ∀ entry ∈ list, space ∉ entry.serverAddress

theorem good_nil : Good [] := ⟨nodup_nil,nofun⟩

theorem Good.sublist {l l' : List ServerEntry} (h : Good l) (hs : l'.Sublist l) : Good l' :=
  ⟨h.distinct.sublist (hs.map _),fun entry hm => h.plain entry (hs.subset hm)⟩

theorem Good.of_perm {l l' : List ServerEntry} (h : Good l)
    (hp : (addresses l').Perm (addresses l)) : Good l' := by
  refine ⟨hp.nodup_iff.mpr h.distinct,fun entry hm => ?_⟩
  have hm' : entry.serverAddress ∈ addresses l := hp.subset (mem_map_of_mem hm)
  obtain ⟨o,ho,heq⟩ := mem_map.mp hm'
  exact heq ▸ h.plain o ho

theorem Good.cons {l : List ServerEntry} {entry : ServerEntry} (h : Good l)
    (hn : entry.serverAddress ∉ addresses l) (hp : space ∉ entry.serverAddress) :
    Good (entry :: l) :=
  ⟨nodup_cons.mpr ⟨hn,h.distinct⟩,forall_mem_cons.mpr ⟨hp,h.plain⟩⟩

/-! ### Editing a list -/

section Editing

variable {list list' others : List ServerEntry} {entry found : ServerEntry} {address : Bytes}
  {f : ServerEntry → ServerEntry} {i : ℕ}

theorem insertSecond_eq (entry : ServerEntry) (list : List ServerEntry) :
    insertSecond entry list = Keyed.insertSecond entry list := by
  cases list <;> rfl

theorem perm_insertSecond (entry : ServerEntry) (list : List ServerEntry) :
    (insertSecond entry list).Perm (entry :: list) := by
  rw [insertSecond_eq]
  exact Keyed.perm_insertSecond entry list

theorem Good.insertSecond (h : Good list) (hn : entry.serverAddress ∉ addresses list)
    (hp : space ∉ entry.serverAddress) : Good (insertSecond entry list) :=
  (h.cons hn hp).of_perm ((perm_insertSecond entry list).map _)

theorem replaceFirst_eq_none (h : replaceFirst address f list = none) :
    address ∉ addresses list := by
  induction list with
  | nil => exact not_mem_nil
  | cons entry rest ih =>
    rw [replaceFirst] at h
    split at h
    · cases h
    · rename_i hne
      exact not_mem_cons_of_ne_of_not_mem hne (ih (map_eq_none_iff.mp h))

theorem addresses_replaceFirst (hf : ∀ e, e.serverAddress = address → (f e).serverAddress = address)
    (h : replaceFirst address f list = some list') : addresses list' = addresses list := by
  induction list generalizing list' with
  | nil => cases h
  | cons entry rest ih =>
    rw [replaceFirst] at h
    split at h
    · rename_i heq
      cases h
      simp [addresses,heq,hf entry heq.symm]
    · obtain ⟨rest',hr,rfl⟩ := map_eq_some_iff.mp h
      simpa [addresses] using ih hr

theorem takeOut_eq_none (h : takeOut address list = none) : address ∉ addresses list := by
  induction list with
  | nil => exact not_mem_nil
  | cons entry rest ih =>
    rw [takeOut] at h
    split at h
    · cases h
    · rename_i hne
      exact not_mem_cons_of_ne_of_not_mem hne (ih (map_eq_none_iff.mp h))

theorem takeOut_eq_some (h : takeOut address list = some (found, i, others)) :
    found.serverAddress = address ∧ list.Perm (found :: others) := by
  induction list generalizing found i others with
  | nil => cases h
  | cons entry rest ih =>
    rw [takeOut] at h
    split at h
    · rename_i heq
      cases h
      exact ⟨heq.symm,.rfl⟩
    · obtain ⟨⟨found',i',others'⟩,hr,heq⟩ := map_eq_some_iff.mp h
      cases heq
      obtain ⟨ha,hp⟩ := ih hr
      exact ⟨ha,(hp.cons entry).trans (List.Perm.swap _ _ _)⟩

theorem Good.mergeEmbedded (h : Good list) (hp : space ∉ entry.serverAddress) :
    Good (mergeEmbedded list entry) := by
  rw [Client.mergeEmbedded]
  cases hr : replaceFirst entry.serverAddress _ list with
  | none => exact h.insertSecond (replaceFirst_eq_none hr) hp
  | some list' =>
    refine h.of_perm (List.Perm.of_eq (addresses_replaceFirst (fun e he => ?_) hr))
    split
    · rfl
    · exact he

theorem Good.addDecoded {s : List ServerEntry × ℕ} (h : Good s.1)
    (hp : space ∉ entry.serverAddress) : Good (addDecoded s entry).1 := by
  rw [Client.addDecoded]
  cases hr : replaceFirst entry.serverAddress _ s.1 with
  | none => exact h.insertSecond (replaceFirst_eq_none hr) hp
  | some list' =>
    exact h.of_perm (List.Perm.of_eq (addresses_replaceFirst (fun _ _ => rfl) hr))

theorem Good.moveEntry {p : Platform} {vf : Bool} (h : Good list)
    (hp : space ∉ entry.serverAddress) : Good (moveEntry p vf list entry) := by
  rw [Client.moveEntry]
  cases ht : takeOut entry.serverAddress list with
  | none =>
    have hn := takeOut_eq_none ht
    simp only
    split
    · exact h.cons hn hp
    · exact h.insertSecond hn hp
  | some r =>
    obtain ⟨found,i,others⟩ := r
    obtain ⟨ha,hpe⟩ := takeOut_eq_some ht
    have hm : (addresses (entry :: others)).Perm (addresses list) := by
      have := (hpe.map ServerEntry.serverAddress).symm
      rwa [map_cons,ha] at this
    simp only
    split
    · exact h
    · split
      · exact h.of_perm hm
      · exact h.of_perm (((perm_insertSecond entry others).map _).trans hm)

theorem Good.markFailed {s : List ServerEntry × Bool} (h : Good s.1) :
    Good (markFailed s entry).1 := by
  rw [Client.markFailed]
  cases ht : takeOut entry.serverAddress s.1 with
  | none => exact h
  | some r =>
    obtain ⟨found,i,others⟩ := r
    have hp : (others ++ [found]).Perm s.1 :=
      (perm_append_singleton found others).trans (takeOut_eq_some ht).2.symm
    exact h.of_perm (hp.map _)

theorem foldl_good {σ : Type} (lo : σ → List ServerEntry) {step : σ → ServerEntry → σ}
    {P : ServerEntry → Prop} (hs : ∀ s entry, Good (lo s) → P entry → Good (lo (step s entry)))
    {entries : List ServerEntry} (hen : ∀ entry ∈ entries, P entry) {s : σ}
    (h : Good (lo s)) : Good (lo (entries.foldl step s)) := by
  induction entries generalizing s with
  | nil => exact h
  | cons entry entries ih =>
    exact ih (fun e he => hen e (.tail _ he)) (hs s entry h (hen entry (.head _)))

end Editing

/-! ### The stored list -/

section Stored

variable {config : ListConfig} {registry : Registry} {list : List ServerEntry}

/-- The stored list has no two entries with one address. -/
def Unique (config : ListConfig) (registry : Registry) : Prop :=
  ∀ list, getListFromSystem config registry = .ok list → (addresses list).Nodup

theorem plain_of_parse {text : Bytes} (h : parseServerEntries config.platform text = .ok list) :
    ∀ entry ∈ list, space ∉ entry.serverAddress := by
  obtain ⟨entries,he,hl⟩ := Fallible.bind_eq_ok_iff.mp h
  cases hl
  intro entry hm
  obtain ⟨line,-,hli⟩ := Fallible.exists_of_mem_mapM he (mem_of_mem_filter hm)
  exact space_notMem_of_parseServerEntry hli

theorem Unique.good (h : Unique config registry)
    (hl : getListFromSystem config registry = .ok list) : Good list := by
  refine ⟨h list hl,?_⟩
  rw [getListFromSystem] at hl
  split at hl
  · cases hl
    exact nofun
  · exact plain_of_parse hl

theorem nodup_of_parse_encode (h : Good list) {read : List ServerEntry}
    (hr : parseServerEntries config.platform (encodeServerEntries config.platform list) =
      .ok read) : (addresses read).Nodup := by
  rw [parseServerEntries_encode] at hr
  obtain ⟨all,hall,hf⟩ := Fallible.bind_eq_ok_iff.mp hr
  cases hf
  have hs : addresses all = addresses list := by
    have hfo := Fallible.forall₂_of_mapM_eq_ok hall
    clear hall hr
    induction hfo with
    | nil => rfl
    | cons he _ ih =>
      have hp := forall_mem_cons.mp h.plain
      have ha := serverAddress_of_fromText_toText hp.1 he
      have hre := ih ⟨(nodup_cons.mp h.distinct).2,hp.2⟩
      simp only [addresses,map_cons] at hre ⊢
      rw [ha,hre]
  have hnd : (addresses all).Nodup := hs ▸ h.distinct
  exact hnd.sublist (filter_sublist.map _)

theorem Unique.write (h : Unique config registry) (hl : Good list) :
    Unique config (writeListToSystem config list registry) := by
  induction hn : list.length using Nat.strong_induction_on generalizing list with
  | _ n ih =>
    rw [writeListToSystem]
    split
    · exact fun read hr => nodup_of_parse_encode hl hr
    · split
      · refine ih _ ?_ (hl.sublist (take_sublist _ _)) rfl
        rw [length_take]
        omega
      · exact h

end Stored

/-! ### Calls -/

section Calls

variable {config : ListConfig}

def mergedList (config : ListConfig) (shuffle : EntryShuffle) (registry : Registry) :
    List ServerEntry :=
  (match parseServerEntries config.platform config.embeddedServerList with
    | .ok list => shuffle.run list
    | .error _ => []).foldl mergeEmbedded
      (if config.ignoreSystemServerList then []
      else match getListFromSystem config registry with
        | .ok list => list
        | .error _ => [])

theorem getList_run (config : ListConfig) (shuffle : EntryShuffle) (registry : Registry) :
    getList config shuffle registry =
      .ok (match getListFromSystem config
          (writeListToSystem config (mergedList config shuffle registry) registry) with
        | .ok stored => stored
        | .error _ => mergedList config shuffle registry)
        (writeListToSystem config (mergedList config shuffle registry) registry) := by
  show (match getListFromSystem config
      (writeListToSystem config (mergedList config shuffle registry) registry) with
    | .ok stored => (pure stored : RegistryM _)
    | .error _ => pure (mergedList config shuffle registry))
    (writeListToSystem config (mergedList config shuffle registry) registry) = _
  cases getListFromSystem config
    (writeListToSystem config (mergedList config shuffle registry) registry) <;> rfl

theorem good_merged {registry : Registry} (h : Unique config registry) (shuffle : EntryShuffle) :
    Good (mergedList config shuffle registry) := by
  refine foldl_good (fun list => list) (P := fun entry => space ∉ entry.serverAddress)
    (fun _ _ hl hp => hl.mergeEmbedded hp) ?_ ?_
  · split
    · rename_i list hl
      exact fun entry hm => plain_of_parse hl entry ((shuffle.perm list).subset hm)
    · exact nofun
  · split
    · exact good_nil
    · split
      · exact h.good ‹_›
      · exact good_nil

theorem getList_unique (shuffle : EntryShuffle) :
    Triple (Unique config) (getList config shuffle)
      (fun list registry => Unique config registry ∧ Good list) (fun _ _ => False) := by
  intro registry hr
  have hm := good_merged hr shuffle
  rw [getList_run]
  refine ⟨hr.write hm,?_⟩
  split
  · exact (hr.write hm).good ‹_›
  · exact hm

/-- `GetList` does not throw. -/
theorem getList_returns (shuffle : EntryShuffle) :
    Triple (fun _ => True) (getList config shuffle) (fun _ _ => True) (fun _ _ => False) := by
  intro registry _
  rw [getList_run]
  trivial

/-- A call that edits the list that `GetList` returned and writes it keeps the stored list
unique. -/
theorem edit_unique {α : Type} {shuffle : EntryShuffle} (edit : List ServerEntry → List ServerEntry)
    (a : List ServerEntry → α) (he : ∀ list, Good list → Good (edit list)) :
    Keeps (Unique config) (do
      let list ← getList config shuffle
      modify (writeListToSystem config (edit list)) return a list : RegistryM α) := by
  refine Triple.bind ((getList_unique shuffle).conseq (fun _ h => h) (fun _ _ h => h)
    fun _ _ h => h.elim) fun list => ?_
  refine Triple.bind (Q := fun _ => Unique config) (Triple.modify fun registry h => ?_)
    fun _ => Triple.skip
  exact h.1.write (he list h.2)

section Add

variable {new : List Bytes} {serverEntry : Option ServerEntry}
  {shuffle embeddedShuffle : EntryShuffle}

theorem addEntriesToList_unique (hp : ∀ entry ∈ serverEntry, space ∉ entry.serverAddress) :
    Keeps (Unique config)
      (addEntriesToList config new serverEntry shuffle embeddedShuffle) := by
  refine Triple.ite (fun _ => Triple.skip) fun _ => ?_
  cases hnew : new.mapM (parseServerEntry config.platform) with
  | error e => exact Triple.throw fun _ h => h
  | ok d =>
    have hd : ∀ entry ∈ shuffle.run (d ++ serverEntry.toList), space ∉ entry.serverAddress := by
      intro entry hmem
      rcases mem_append.mp ((shuffle.perm _).subset hmem) with hmem | hmem
      · obtain ⟨line,-,hl⟩ := Fallible.exists_of_mem_mapM hnew hmem
        exact space_notMem_of_parseServerEntry hl
      · exact hp entry (mem_toList.mp hmem)
    have hf : ∀ old, Good old →
        Good ((shuffle.run (d ++ serverEntry.toList)).foldl addDecoded (old, 0)).1 :=
      fun old hold => foldl_good Prod.fst (P := fun entry => space ∉ entry.serverAddress)
        (fun _ _ h he => h.addDecoded he) hd hold
    exact edit_unique _ (fun old => (List.foldl addDecoded (old, 0) _).2) hf

theorem addEntriesToList_throws (registry : Registry) :
    Triple (· = registry) (addEntriesToList config new serverEntry shuffle embeddedShuffle)
      (fun _ _ => True) (fun _ registry' => registry' = registry) := by
  refine Triple.ite (fun _ => Triple.pure fun _ _ => trivial) fun _ => ?_
  cases new.mapM (parseServerEntry config.platform) with
  | error e => exact Triple.throw fun _ h => h
  | ok decoded =>
    refine Triple.bind ((getList_returns embeddedShuffle).conseq (fun _ _ => trivial)
      (fun _ _ h => h) fun _ _ h => h.elim) fun old => ?_
    exact Triple.bind (Q := fun _ _ => True) (Triple.modify fun _ _ => trivial)
      fun _ => Triple.pure fun _ _ => trivial

end Add

theorem moveEntriesToFront_unique {entries : List ServerEntry} {vf : Bool}
    {shuffle : EntryShuffle} (hp : ∀ entry ∈ entries, space ∉ entry.serverAddress) :
    Keeps (Unique config) (moveEntriesToFront config entries vf shuffle) := by
  refine edit_unique _ (fun _ => ()) fun list hl => ?_
  exact foldl_good (fun list => list) (P := fun entry => space ∉ entry.serverAddress)
    (fun _ _ h he => h.moveEntry he)
    (fun entry hm => hp entry (mem_reverse.mp hm)) hl

theorem markServersFailed_unique {failed : List ServerEntry} {shuffle : EntryShuffle} :
    Keeps (Unique config) (markServersFailed config failed shuffle) := by
  refine Triple.bind ((getList_unique shuffle).conseq (fun _ h => h) (fun _ _ h => h)
    fun _ _ h => h.elim) fun list => ?_
  refine Triple.ite (fun _ => Triple.pure fun _ h => h.1) fun _ => ?_
  have hf : Good list → Good (failed.foldl markFailed (list, false)).1 := fun hl =>
    foldl_good Prod.fst (P := fun _ => True) (fun _ _ h _ => h.markFailed) (fun _ _ => trivial) hl
  refine Triple.ite (fun _ => Triple.modify fun registry h => ?_)
    fun _ => Triple.pure fun _ h => h.1
  exact h.1.write (hf h.2)

/-- The entries that a call is given have addresses without a space. -/
def ListCall.Plain : ListCall → Prop
  | .addEntriesToList _ serverEntry _ _ => ∀ entry ∈ serverEntry, space ∉ entry.serverAddress
  | .moveEntriesToFront entries _ _ => ∀ entry ∈ entries, space ∉ entry.serverAddress
  | .getList _ | .markServersFailed _ _ => True

theorem runListCall_unique {call : ListCall} (h : call.Plain) :
    Keeps (Unique config) (runListCall config call) := by
  have hr : ∀ {α : Type} {x : RegistryM α}, Keeps (Unique config) x →
      Keeps (Unique config)
        (do let _ ← x; return none : RegistryM (Option (List ServerEntry))) :=
    fun hx => Triple.bind hx fun _ => Triple.skip
  cases call with
  | getList shuffle =>
    refine Triple.bind (Q := fun _ => Unique config) ((getList_unique shuffle).conseq
      (fun _ h => h) (fun _ _ h => h.1) fun _ _ h => h.elim) fun _ => Triple.skip
  | addEntriesToList new serverEntry shuffle embeddedShuffle =>
    exact hr (addEntriesToList_unique h)
  | moveEntriesToFront entries veryFront shuffle => exact hr (moveEntriesToFront_unique h)
  | markServersFailed failed shuffle => exact hr markServersFailed_unique

theorem listStep_unique {registry registry' : Registry} {call : ListCall} (hca : call.Plain)
    (h : Unique config registry) (hs : listStep config registry call = some registry') :
    Unique config registry' := by
  have hc := runListCall_unique hca registry h
  rw [listStep] at hs
  cases hr : runListCall config call registry with
  | ok list registry'' =>
    rw [hr] at hc hs
    exact Option.some.inj hs ▸ hc
  | error e registry'' =>
    rw [hr] at hc hs
    exact Option.some.inj hs ▸ hc

/-- The registry value that the client starts with: none, or a list of entries whose addresses
are pairwise different and have no space. -/
def Starting (config : ListConfig) (registry : Registry) : Prop :=
  (registry.named <|> registry.unnamed) = none ∨
  ∃ entries, (registry.named <|> registry.unnamed) =
    some (encodeServerEntries config.platform entries) ∧ Good entries

theorem Starting.unique {registry : Registry} (h : Starting config registry) :
    Unique config registry := by
  intro list hl
  rw [getListFromSystem] at hl
  rcases h with hn | ⟨entries,hs,hg⟩
  · rw [hn] at hl
    cases hl
    exact nodup_nil
  · rw [hs] at hl
    exact nodup_of_parse_encode hg hl

/-- After any calls, the stored list and what `GetList` returns have pairwise different addresses,
and a call of `AddEntriesToList` that throws leaves the registry as it was. -/
theorem addresses_stay_unique {start registry : Registry} {calls : List ListCall}
    (hstart : Starting config start) (hcalls : ∀ call ∈ calls, call.Plain)
    (h : Runs.run (listStep config) start calls = some registry) :
    (∀ list, getListFromSystem config registry = .ok list → (addresses list).Nodup) ∧
    (∀ shuffle, ∃ list registry', getList config shuffle registry = .ok list registry' ∧
      (addresses list).Nodup) ∧
    ∀ new serverEntry shuffle embeddedShuffle e registry',
      addEntriesToList config new serverEntry shuffle embeddedShuffle registry =
        .error e registry' → registry' = registry := by
  have hu : Unique config registry :=
    Runs.run_invariant_along (fun _ _ _ hs hc hst => listStep_unique hc hs hst)
      hstart.unique (Runs.along_of_forall (fun call hmem _ => hcalls call hmem) start) h
  refine ⟨hu,fun shuffle => ?_,?_⟩
  · have hl := getList_unique shuffle registry hu
    cases hget : getList config shuffle registry with
    | ok list registry' =>
      rw [hget] at hl
      exact ⟨list,registry',rfl,hl.2.distinct⟩
    | error e registry' =>
      rw [hget] at hl
      exact hl.elim
  · intro new serverEntry shuffle embeddedShuffle e registry' he
    exact (addEntriesToList_throws registry).of_error rfl he

end Calls

def sampleConfig : ListConfig := ⟨referencePlatform, 100000, [], false⟩

def moved (first second : ServerEntry) : Registry :=
  ⟨some (encodeServerEntries referencePlatform [second, first]), none⟩

theorem addresses_stay_unique_two_entries :
    Runs.run (listStep sampleConfig) ⟨none, none⟩
        [.moveEntriesToFront [sampleEntry "a" "cert", sampleEntry "b" ""] false .id] =
      some (moved (sampleEntry "a" "cert") (sampleEntry "b" "")) ∧
    ∀ list, getListFromSystem sampleConfig (moved (sampleEntry "a" "cert") (sampleEntry "b" "")) =
      .ok list → (addresses list).Nodup := by
  refine ⟨by decide +kernel,(addresses_stay_unique (.inl rfl) (fun call hc => ?_)
    (show Runs.run (listStep sampleConfig) ⟨none,none⟩ [.moveEntriesToFront
      [sampleEntry "a" "cert",sampleEntry "b" ""] false .id] = _ by decide +kernel)).1⟩
  obtain rfl := mem_singleton.mp hc
  show ∀ entry ∈ [sampleEntry "a" "cert",sampleEntry "b" ""], space ∉ entry.serverAddress
  decide

/-- The address "a b" is stored in front of a space and read as "a". -/
theorem address_with_space_collides :
    Runs.run (listStep sampleConfig) ⟨none, none⟩
        [.moveEntriesToFront [sampleEntry "a" "cert", sampleEntry "a b" ""] false .id] =
      some (moved (sampleEntry "a" "cert") (sampleEntry "a b" "")) ∧
    (addresses [sampleEntry "a" "cert", sampleEntry "a b" ""]).Nodup ∧
    (getListFromSystem sampleConfig (moved (sampleEntry "a" "cert") (sampleEntry "a b" ""))).map
      addresses = .ok [ascii "a", ascii "a"] := by
  decide +kernel

end Psiphon.Client
