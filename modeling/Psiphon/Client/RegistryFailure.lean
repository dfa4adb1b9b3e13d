import Psiphon.Client.ListOrder

/-!
# Failures of the registry

`GetList` and `WriteListToSystem` over a registry whose reads and writes may fail.
-/

namespace Psiphon.Client

open List
open Json (Bytes Value ascii)

inductive WriteOutcome where
  | written
  /-- `REGISTRY_FAILURE_WRITE_TOO_LONG` -/
  | tooLong
  /-- `REGISTRY_FAILURE_NO_REASON` -/
  | failed
  deriving DecidableEq, Repr

/-- How the registry behaves. A value that is there and cannot be read as a string is none. -/
structure RegistryBehaviour where
  /-- `ReadRegistryStringValue` succeeds when there is a value. -/
  readable : Bool
  write : Bytes → WriteOutcome

namespace RegistryBehaviour

def limited (capacity : ℕ) : RegistryBehaviour :=
  ⟨true, fun value => if value.length ≤ capacity then .written else .tooLong⟩

def readOnly : RegistryBehaviour := ⟨true, fun _ => .failed⟩

variable (behaviour : RegistryBehaviour) (config : ListConfig)

/-- What can be read of the registry. -/
def visible (registry : Registry) : Registry :=
  if behaviour.readable then registry else ⟨none, none⟩

def getListFromSystem (registry : Registry) : Cpp (List ServerEntry) :=
  Client.getListFromSystem config (behaviour.visible registry)

def writeListToSystem (serverEntryList : List ServerEntry) (registry : Registry) : Registry :=
  match behaviour.write (encodeServerEntries config.platform serverEntryList) with
  | .written => registry.store config serverEntryList
  | .tooLong =>
    if serverEntryList.length / 2 > 1 then
      writeListToSystem (serverEntryList.take (serverEntryList.length / 2)) registry
    else registry
  | .failed => registry
termination_by serverEntryList.length
decreasing_by rw [List.length_take]; omega

def storedList (registry : Registry) : List ServerEntry :=
  match behaviour.getListFromSystem config registry with
  | .ok list => list
  | .error _ => []

def mergedList (shuffle : EntryShuffle) (registry : Registry) : List ServerEntry :=
  Client.mergedList config shuffle (behaviour.visible registry)

def getList (shuffle : EntryShuffle) (registry : Registry) : List ServerEntry × Registry :=
  let list := behaviour.mergedList config shuffle registry
  let registry := behaviour.writeListToSystem config list registry
  match behaviour.getListFromSystem config registry with
  | .ok stored => (stored, registry)
  | .error _ => (list, registry)

/-! ### The registry that only limits the length -/

theorem getListFromSystem_limited (c : ℕ) (registry : Registry) :
    (limited c).getListFromSystem config registry = Client.getListFromSystem config registry := rfl

theorem writeListToSystem_limited (list : List ServerEntry) (registry : Registry) :
    (limited config.capacity).writeListToSystem config list registry =
      Client.writeListToSystem config list registry := by
  induction hn : list.length using Nat.strong_induction_on generalizing list with
  | _ n ih =>
    rw [writeListToSystem,Client.writeListToSystem]
    by_cases hf : (encodeServerEntries config.platform list).length ≤ config.capacity
    · rw [show (limited config.capacity).write _ = .written from if_pos hf,if_pos hf]
      rfl
    · rw [show (limited config.capacity).write _ = .tooLong from if_neg hf,if_neg hf]
      simp only
      split
      · refine ih _ ?_ _ rfl
        rw [length_take]
        omega
      · rfl

/-- The model of the other modules is the one of a registry that only limits the length. -/
theorem getList_limited (shuffle : EntryShuffle) (registry : Registry) :
    Client.getList config shuffle registry =
      .ok ((limited config.capacity).getList config shuffle registry).1
        ((limited config.capacity).getList config shuffle registry).2 := by
  have hm : (limited config.capacity).mergedList config shuffle registry =
      Client.mergedList config shuffle registry := rfl
  rw [getList_run,getList,hm]
  simp only [writeListToSystem_limited,getListFromSystem_limited]
  cases Client.getListFromSystem config (Client.writeListToSystem config
    (Client.mergedList config shuffle registry) registry) <;> rfl

/-! ### What is written -/

/-- The list is tried, and halves of it as long as what is tried is too long, down to two entries;
and this one is written. -/
def Writes (list written : List ServerEntry) : Prop :=
  ∃ k, written = list.take (list.length / 2 ^ k) ∧ (k = 0 ∨ 1 < list.length / 2 ^ k) ∧
    (∀ j < k, behaviour.write (encodeServerEntries config.platform
      (list.take (list.length / 2 ^ j))) = .tooLong) ∧
    behaviour.write (encodeServerEntries config.platform written) = .written

variable {behaviour config} {list written : List ServerEntry}

theorem take_half (list : List ServerEntry) (k : ℕ) : list.take (list.length / 2 ^ (k + 1)) =
      (list.take (list.length / 2)).take ((list.take (list.length / 2)).length / 2 ^ k) := by
  have hl : min (list.length / 2) list.length = list.length / 2 := by omega
  rw [take_take,length_take,hl,min_eq_left (Nat.div_le_self _ _),Nat.div_div_eq_div_mul,pow_succ']

/-- One attempt of `WriteListToSystem`. -/
theorem writes_iff (list : List ServerEntry) : behaviour.Writes config list written ↔
    behaviour.write (encodeServerEntries config.platform list) = .written ∧ written = list ∨
    behaviour.write (encodeServerEntries config.platform list) = .tooLong ∧
      1 < list.length / 2 ∧ behaviour.Writes config (list.take (list.length / 2)) written := by
  have hl : (list.take (list.length / 2)).length = list.length / 2 := by
    rw [length_take]
    omega
  constructor
  · rintro ⟨k,rfl,hk,hlong,hw⟩
    cases k with
    | zero => exact .inl (by simpa using hw)
    | succ k =>
      have hd : list.length / 2 ^ (k + 1) = list.length / 2 / 2 ^ k := by
        rw [Nat.div_div_eq_div_mul,pow_succ']
      have hk : 1 < list.length / 2 / 2 ^ k := hd ▸ hk.resolve_left (Nat.succ_ne_zero k)
      refine .inr ⟨by simpa using hlong 0 (Nat.succ_pos k),
        hk.trans_le (Nat.div_le_self _ _),k,take_half list k,.inr (hl.symm ▸ hk),fun j hj => ?_,hw⟩
      rw [← take_half]
      exact hlong (j + 1) (Nat.succ_lt_succ hj)
  · rintro (⟨hw,rfl⟩ | ⟨hlong,hh,k,rfl,hk,hlong',hw⟩)
    · exact ⟨0,by simp,.inl rfl,nofun,hw⟩
    · rw [← take_half] at hw ⊢
      refine ⟨k + 1,rfl,.inr ?_,fun j hj => ?_,hw⟩
      · rw [pow_succ',← Nat.div_div_eq_div_mul]
        rcases hk with rfl | hk
        · simpa using hh
        · rwa [hl] at hk
      · cases j with
        | zero => simpa using hlong
        | succ j =>
          rw [take_half]
          exact hlong' j (Nat.succ_lt_succ_iff.mp hj)

variable (behaviour config) in
theorem writeListToSystem_spec (list : List ServerEntry) (registry : Registry) :
    (∃ written, behaviour.Writes config list written ∧
      behaviour.writeListToSystem config list registry = registry.store config written) ∨
    (∀ written, ¬ behaviour.Writes config list written) ∧
      behaviour.writeListToSystem config list registry = registry := by
  induction hn : list.length using Nat.strong_induction_on generalizing list with
  | _ n ih =>
    rw [writeListToSystem]
    simp only [writes_iff list]
    cases behaviour.write (encodeServerEntries config.platform list) with
    | written => simp
    | failed => simp
    | tooLong =>
      simp only
      split
      · rename_i hh
        simpa [hh] using ih _ (by rw [length_take]; omega) (list.take (list.length / 2)) rfl
      · rename_i hh
        simp [hh]

theorem Writes.isPrefix (h : behaviour.Writes config list written) :
    written <+: list ∧ (2 ≤ written.length ∨ written = list) := by
  obtain ⟨k,rfl,hk,-⟩ := h
  refine ⟨ take_prefix _ _,?_⟩
  rcases hk with rfl | hk
  · exact .inr (by simp)
  · rw [length_take]
    exact .inl (le_min hk (hk.trans_le (Nat.div_le_self _ _)))

/-- The stored value stays, or it becomes a part of the list with two entries or more, or all of
it. -/
theorem writeListToSystem_cases (list : List ServerEntry) (registry : Registry) :
    behaviour.writeListToSystem config list registry = registry ∨
      ∃ written, written <+: list ∧ (2 ≤ written.length ∨ written = list) ∧
        behaviour.writeListToSystem config list registry = registry.store config written := by
  obtain ⟨written,hw,hs⟩ | ⟨-,hs⟩ := writeListToSystem_spec behaviour config list registry
  · exact .inr ⟨written,hw.isPrefix.1,hw.isPrefix.2,hs⟩
  · exact .inl hs

/-! ### What is merged -/

section Merged

variable {list' embedded : List ServerEntry} {entry new : ServerEntry} {shuffle : EntryShuffle}
  {registry : Registry}

theorem mem_of_replaceFirst {a : Bytes} {f : ServerEntry → ServerEntry}
    (h : replaceFirst a f list = some list') (hm : entry ∈ list') :
    entry ∈ list ∨ ∃ old ∈ list, entry = f old := by
  induction list generalizing list' with
  | nil => cases h
  | cons first rest ih =>
    rw [replaceFirst] at h
    split at h
    · cases h
      rcases mem_cons.mp hm with rfl | hm
      · exact .inr ⟨first,(.head _),rfl⟩
      · exact .inl (.tail _ hm)
    · obtain ⟨rest',hr,rfl⟩ := Option.map_eq_some_iff.mp h
      rcases mem_cons.mp hm with rfl | hm
      · exact .inl (.head _)
      · rcases ih hr hm with hm | ⟨old,ho,rfl⟩
        · exact .inl (.tail _ hm)
        · exact .inr ⟨old,mem_cons_of_mem _ ho,rfl⟩

theorem mem_mergeEmbedded (h : entry ∈ mergeEmbedded list new) : entry ∈ list ∨ entry = new := by
  rw [mergeEmbedded] at h
  cases hr : replaceFirst new.serverAddress _ list with
  | none =>
    rw [hr] at h
    exact (mem_cons.mp ((perm_insertSecond new list).mem_iff.mp h)).symm
  | some list' =>
    rw [hr] at h
    rcases mem_of_replaceFirst hr h with hm | ⟨old,ho,rfl⟩
    · exact .inl hm
    · split
      · exact .inr rfl
      · exact .inl ho

theorem mergeEmbedded_ne_nil (list : List ServerEntry) (new : ServerEntry) :
    mergeEmbedded list new ≠ [] := by
  rw [mergeEmbedded]
  cases hr : replaceFirst new.serverAddress _ list with
  | none => exact fun hn => by cases list <;> cases hn
  | some list' =>
    rintro rfl
    cases list with
    | nil => cases hr
    | cons first rest =>
      rw [replaceFirst] at hr
      split at hr
      · cases hr
      · obtain ⟨rest',-,hn⟩ := Option.map_eq_some_iff.mp hr
        cases hn

theorem mem_foldl_mergeEmbedded (h : entry ∈ embedded.foldl mergeEmbedded list) :
    entry ∈ list ∨ entry ∈ embedded := by
  induction embedded generalizing list with
  | nil => exact .inl h
  | cons new embedded ih =>
    rcases ih h with hm | hm
    · rcases mem_mergeEmbedded hm with hm | rfl
      · exact .inl hm
      · exact .inr (.head _)
    · exact .inr (.tail _ hm)

theorem foldl_mergeEmbedded_ne_nil (h : embedded ≠ []) :
    embedded.foldl mergeEmbedded list ≠ [] := by
  induction embedded generalizing list with
  | nil => exact absurd rfl h
  | cons new embedded ih =>
    cases embedded with
    | nil => exact mergeEmbedded_ne_nil list new
    | cons second embedded => exact ih nofun

variable (hembedded : parseServerEntries config.platform config.embeddedServerList = .ok embedded)
include hembedded

theorem mem_mergedList (h : entry ∈ behaviour.mergedList config shuffle registry) :
    entry ∈ behaviour.storedList config registry ∨ entry ∈ embedded := by
  rw [mergedList,Client.mergedList,hembedded] at h
  rcases mem_foldl_mergeEmbedded h with hm | hm
  · split at hm
    · cases hm
    · exact .inl hm
  · exact .inr ((shuffle.perm embedded).mem_iff.mp hm)

theorem mergedList_ne_nil (hne : embedded ≠ []) :
    behaviour.mergedList config shuffle registry ≠ [] := by
  rw [mergedList,Client.mergedList,hembedded]
  refine foldl_mergeEmbedded_ne_nil fun hn => hne ?_
  exact nil_perm.mp (hn ▸ shuffle.perm embedded)

theorem wellRead_mergedList : ∀ entry ∈ behaviour.mergedList config shuffle registry,
    entry.WellRead ∧ entry.webServerCertificate ≠ ascii "None" := by
  intro entry he
  rcases mem_mergedList hembedded he with hm | hm
  · rw [storedList,getListFromSystem,Client.getListFromSystem] at hm
    cases hr : (behaviour.visible registry).named <|> (behaviour.visible registry).unnamed with
    | none =>
      rw [hr] at hm
      cases hm
    | some value =>
      rw [hr] at hm
      cases hp : parseServerEntries config.platform value with
      | ok list =>
        simp only [hp] at hm
        exact wellRead_of_parse hp entry hm
      | error e =>
        simp only [hp] at hm
        cases hm
  · exact wellRead_of_parse hembedded entry hm

end Merged

/-! ### What is returned -/

variable (behaviour config) in
/-- The entry is one of the stored or the embedded list, but for a port that was not
initialized. -/
def ComesFrom (registry : Registry) (embedded : List ServerEntry) (entry : ServerEntry) : Prop :=
  ∃ source, (source ∈ behaviour.storedList config registry ∨ source ∈ embedded) ∧
    (entry = source ∨ entry = source.settled)

variable (behaviour config) in
/-- `GetList` can read a list back: one that it wrote, or a value that was there and is corrupt or
has an entry. -/
def Serves (shuffle : EntryShuffle) (registry : Registry) : Prop :=
  behaviour.readable = true ∧
    ((∃ written, behaviour.Writes config (behaviour.mergedList config shuffle registry) written) ∨
      ∃ value, (registry.named <|> registry.unnamed) = some value ∧
        parseServerEntries config.platform value ≠ .ok [])

section Returned

variable {shuffle : EntryShuffle} {registry : Registry} {embedded : List ServerEntry}

theorem visible_of_readable (h : behaviour.readable = true) :
    behaviour.visible registry = registry := if_pos h

theorem getList_of_not_readable (h : behaviour.readable = false) :
    (behaviour.getList config shuffle registry).1 = [] := by
  simp [getList,getListFromSystem,visible,h,Client.getListFromSystem,pure,Except.pure]

/-- A list that was written is read back. -/
theorem getList_of_stored (hj : WritesJson config.platform)
    (hembedded : parseServerEntries config.platform config.embeddedServerList = .ok embedded)
    (hr : behaviour.readable = true)
    (hw : behaviour.Writes config (behaviour.mergedList config shuffle registry) written)
    (hs : behaviour.writeListToSystem config (behaviour.mergedList config shuffle registry)
      registry = registry.store config written) :
    (behaviour.getList config shuffle registry).1 = written.map .settled := by
  have hp := parseServerEntries_settled hj fun entry hmem =>
    wellRead_mergedList hembedded entry (hw.isPrefix.1.subset hmem)
  have hre : behaviour.getListFromSystem config (registry.store config written) =
      .ok (written.map .settled) := by
    rw [getListFromSystem,visible_of_readable hr]
    exact hp
  simp only [getList,hs,hre]

theorem getList_of_kept (hs : behaviour.writeListToSystem config
      (behaviour.mergedList config shuffle registry) registry = registry) :
    (behaviour.getList config shuffle registry).1 =
      match behaviour.getListFromSystem config registry with
      | .ok stored => stored
      | .error _ => behaviour.mergedList config shuffle registry := by
  simp only [getList,hs]
  split <;> rfl

/-- Whatever `GetList` returns comes from the stored or the embedded list. -/
theorem comesFrom_of_getList (hj : WritesJson config.platform)
    (hembedded : parseServerEntries config.platform config.embeddedServerList = .ok embedded) :
    ∀ entry ∈ (behaviour.getList config shuffle registry).1,
      behaviour.ComesFrom config registry embedded entry := by
  intro entry he
  obtain ⟨written,hw,hs⟩ | ⟨-,hs⟩ := writeListToSystem_spec behaviour config
    (behaviour.mergedList config shuffle registry) registry
  · cases hr : behaviour.readable with
    | true =>
      rw [getList_of_stored hj hembedded hr hw hs] at he
      obtain ⟨source,hso,rfl⟩ := mem_map.mp he
      exact ⟨source,mem_mergedList hembedded (hw.isPrefix.1.subset hso),.inr rfl⟩
    | false =>
      rw [getList_of_not_readable hr] at he
      cases he
  · rw [getList_of_kept hs] at he
    cases hre : behaviour.getListFromSystem config registry with
    | ok stored =>
      rw [hre] at he
      have hso : behaviour.storedList config registry = stored := by rw [storedList,hre]
      exact ⟨entry,.inl (hso ▸ he),.inl rfl⟩
    | error e =>
      rw [hre] at he
      exact ⟨entry,mem_mergedList hembedded he,.inl rfl⟩

theorem getList_ne_nil_iff (hj : WritesJson config.platform)
    (hembedded : parseServerEntries config.platform config.embeddedServerList = .ok embedded)
    (hne : embedded ≠ []) : (behaviour.getList config shuffle registry).1 ≠ [] ↔
      behaviour.Serves config shuffle registry := by
  have hm : behaviour.mergedList config shuffle registry ≠ [] :=
    mergedList_ne_nil hembedded hne
  cases hr : behaviour.readable with
  | false =>
    refine iff_of_false (fun hl => hl (getList_of_not_readable hr)) fun hs => ?_
    exact absurd (hr.symm.trans hs.1) nofun
  | true =>
    simp only [Serves,hr,true_and]
    obtain ⟨written,hw,hs⟩ | ⟨hn,hs⟩ := writeListToSystem_spec behaviour config
      (behaviour.mergedList config shuffle registry) registry
    · refine iff_of_true ?_ (.inl ⟨written,hw⟩)
      rw [getList_of_stored hj hembedded hr hw hs]
      obtain ⟨-,hlo | rfl⟩ := hw.isPrefix
      · rintro hn
        rw [map_eq_nil_iff.mp hn] at hlo
        simp at hlo
      · exact fun hn => hm (map_eq_nil_iff.mp hn)
    -- nothing is written, and what was stored is read again
    · rw [getList_of_kept hs,getListFromSystem,visible_of_readable hr,Client.getListFromSystem]
      cases hvalue : registry.named <|> registry.unnamed with
      | none => exact iff_of_false (fun hl => hl rfl) (by simp [hn])
      | some value =>
        cases hp : parseServerEntries config.platform value with
        | ok list => simp [hp,hn]
        | error e => simpa [hp,hn] using hm

/-- A registry problem hides the embedded servers exactly when `GetList` can read no list back.
`WriteListToSystem` leaves the old value or a list with two entries or more, or the whole one. -/
theorem registry_problem_hides_nothing_iff (hjson : WritesJson config.platform)
    (hembedded : parseServerEntries config.platform config.embeddedServerList = .ok embedded)
    (hne : embedded ≠ []) :
    ((behaviour.getList config shuffle registry).1 ≠ [] ∧
      (∀ entry ∈ (behaviour.getList config shuffle registry).1,
        behaviour.ComesFrom config registry embedded entry) ∧
      ∀ list stored, behaviour.writeListToSystem config list stored = stored ∨
        ∃ written, written <+: list ∧ (2 ≤ written.length ∨ written = list) ∧
          behaviour.writeListToSystem config list stored = stored.store config written) ↔
    behaviour.Serves config shuffle registry := by
  rw [← getList_ne_nil_iff hjson hembedded hne]
  exact ⟨And.left,fun hl => ⟨hl,comesFrom_of_getList hjson hembedded,writeListToSystem_cases⟩⟩

end Returned

def embeddedConfig : ListConfig :=
  { sampleConfig with
    embeddedServerList := encodeServerEntries referencePlatform [storedEntry "a"] }

theorem parse_embedded :
    parseServerEntries embeddedConfig.platform embeddedConfig.embeddedServerList =
    .ok [storedEntry "a"] := by decide +kernel

/-- Nothing can be written, and the list that was stored is returned. -/
theorem registry_problem_hides_nothing_readOnly :
    (readOnly.getList embeddedConfig .id
      ⟨some (encodeServerEntries referencePlatform [storedEntry "b"]), none⟩).1 ≠ [] := by
  refine ((registry_problem_hides_nothing_iff writesJson_reference parse_embedded nofun).mpr
    ⟨rfl,.inr ⟨_,rfl,?_⟩⟩).1
  have hp : parseServerEntries embeddedConfig.platform
      (encodeServerEntries referencePlatform [storedEntry "b"]) = .ok [storedEntry "b"] := by
    decide +kernel
  rw [hp]
  nofun

/-- Nothing is stored and nothing can be written: the embedded server is not returned. -/
theorem embedded_server_hidden :
    parseServerEntries embeddedConfig.platform embeddedConfig.embeddedServerList =
      .ok [storedEntry "a"] ∧
    (readOnly.getList embeddedConfig .id ⟨none, none⟩).1 = [] ∧
      (readOnly.getList embeddedConfig .id ⟨none, none⟩).2 = ⟨none, none⟩ := by
  refine ⟨parse_embedded,?_⟩
  decide +kernel

end RegistryBehaviour

end Psiphon.Client
