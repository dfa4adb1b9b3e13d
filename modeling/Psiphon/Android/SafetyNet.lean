import Psiphon.Lib.Runs
import Mathlib.Data.Int.Notation

/-!
# Attestations

`GoogleSafetyNetApiWrapper.java`. What a result belongs to is read from the fields when it arrives.
-/

namespace Psiphon.Android.SafetyNet

open List
open Runs (Along Through through_iff_along)

inductive Connection where
  | disconnected
  | connecting
  | connected
  deriving DecidableEq, Repr

/-- A server nonce, or `null`. -/
abbrev Nonce := Option String

/-! ### Decoding a nonce -/

/-- The value of a character in base 64; other bytes stay as they are. -/
def sextet (b : UInt8) : UInt8 :=
  if b = 61 then 0 -- the padding
  else if b = 47 then 63
  else if b = 43 then 62
  else if 48 ≤ b ∧ b ≤ 57 then b - 48 + 52
  else if 97 ≤ b ∧ b ≤ 122 then b - 97 + 26
  else if 65 ≤ b ∧ b ≤ 90 then b - 65
  else b

/-- The loop, with the number of bytes that `dest` still has to get. It throws where the data ends
before. -/
def decodeInto : List UInt8 → ℕ → Option (List UInt8)
  | _, 0 => some []
  | a :: b :: _, 1 => some [a <<< 2 ||| b >>> 4 &&& 3]
  | a :: b :: c :: _, 2 => some [a <<< 2 ||| b >>> 4 &&& 3, b <<< 4 ||| c >>> 2 &&& 15]
  | a :: b :: c :: d :: rest, n + 3 => (decodeInto rest n).map ([a <<< 2 ||| b >>> 4 &&& 3,
      b <<< 4 ||| c >>> 2 &&& 15, c <<< 6 ||| d &&& 63] ++ ·)
  | _, _ => none

/-- `Utils.Base64.decode`, which also throws when there is nothing but padding, and when there is so
much of it that the length of `dest` is negative. -/
def decode (data : List UInt8) : Option (List UInt8) :=
  let tail := (data.reverse.dropWhile (· = 61)).length
  if tail = 0 ∨ tail < data.length / 4 then none
  else decodeInto (data.map sextet) (tail - data.length / 4)

/-- `attest` is called with a nonce that is empty or can be decoded. -/
def Attestable : Nonce → Prop
  | none => True
  | some text => text = "" ∨ (decode (text.toList.flatMap String.utf8EncodeChar)).isSome = true

instance : ∀ nonce, Decidable (Attestable nonce)
  | none => inferInstanceAs (Decidable True)
  | some _ => inferInstanceAs (Decidable (_ ∨ _))

/-- A call of `attest`, with the `ttlSeconds` of the call of `verify` for which it was made. -/
structure Attest where
  nonce : Nonce
  ttlSeconds : ℤ
  deriving DecidableEq, Repr

/-- The payload is known by the call that it answers. The real time is not stored in the source. -/
structure CacheEntry where
  payload : Attest
  expirationTimestamp : ℤ
  cachedAt : ℤ
  deriving DecidableEq, Repr

abbrev CacheMap := List (Nonce × CacheEntry)

def maxCachedEntries : ℕ := 20

namespace CacheMap

def remove (cache : CacheMap) (nonce : Nonce) : CacheMap := cache.filter (·.1 ≠ nonce)

/-- An old entry is replaced in its place, and the eldest one removed if there are too many. -/
def put (cache : CacheMap) (nonce : Nonce) (entry : CacheEntry) : CacheMap :=
  if nonce ∈ cache.map Prod.fst then
    cache.map fun old => if old.1 = nonce then (nonce, entry) else old
  else if cache.length < maxCachedEntries then cache ++ [(nonce, entry)]
  else cache.tail ++ [(nonce, entry)]

end CacheMap

/-- Times are in milliseconds. -/
structure Wrapper where
  client : Connection
  /-- The calls of `attest` without a result. -/
  attests : List Attest
  checkInFlight : Bool
  lastServerNonce : Nonce
  lastTtlSeconds : ℤ
  cacheMap : CacheMap
  cacheFile : Option CacheMap
  elapsedRealtime : ℤ
  now : ℤ

inductive Action where
  | verify (serverNonce : Nonce) (ttlSeconds : ℤ) (resetCache unobfuscates : Bool)
  | disconnect
  | onConnected
  | onConnectionFailed
  /-- The result of the outstanding call at an index, and whether it is a valid one. -/
  | onResult (index : ℕ) (shouldCache : Bool)
  | saveCache
  | restart
  | reboot
  | wait (milliseconds : ℕ)
  deriving DecidableEq, Repr

namespace Wrapper

variable (s : Wrapper)

def setPayload (payload : Attest) (shouldCache : Bool) : Wrapper :=
  { s with
    cacheMap := if shouldCache then .put s.cacheMap s.lastServerNonce
      ⟨payload, s.elapsedRealtime + s.lastTtlSeconds * 1000, s.now⟩ else s.cacheMap
    checkInFlight := false }

/-- The entry whose payload is delivered, if one is. -/
def setPayloadFromCache (unobfuscates : Bool) : Option CacheEntry × Wrapper :=
  match s.cacheMap.lookup s.lastServerNonce with
  | none => (none, s)
  | some entry =>
    if s.elapsedRealtime > entry.expirationTimestamp then
      (none, { s with cacheMap := s.cacheMap.remove s.lastServerNonce })
    else if unobfuscates then (some entry, s.setPayload entry.payload false)
    else (none, s)

/-- `verify` as far as `setPayloadFromCache`, when no check is in flight. -/
def fromCache (serverNonce : Nonce) (ttlSeconds : ℤ) (resetCache unobfuscates : Bool) :
    Option CacheEntry × Wrapper :=
  { s with
    checkInFlight := true
    cacheMap := if resetCache then s.cacheMap.remove serverNonce else s.cacheMap
    lastServerNonce := serverNonce
    lastTtlSeconds := ttlSeconds }.setPayloadFromCache unobfuscates

/-- `connect` unless the client is connecting or connected. -/
def connect : Wrapper :=
  { s with client := if s.client = .disconnected then .connecting else s.client }

/-- The calls of `attest` after `doSafetyNetCheck`, which an exception of the decoding leaves. -/
def doSafetyNetCheck : List Attest :=
  if Attestable s.lastServerNonce then s.attests ++ [⟨s.lastServerNonce, s.lastTtlSeconds⟩]
  else s.attests

/-- A new process loads the file. -/
def restarted : Wrapper :=
  { s with
    client := .disconnected, attests := [], checkInFlight := false, lastServerNonce := none,
    lastTtlSeconds := 0, cacheMap := s.cacheFile.getD [] }

def step : Action → Option Wrapper
  | .verify serverNonce ttlSeconds resetCache unobfuscates =>
    if s.checkInFlight then some s
    else match s.fromCache serverNonce ttlSeconds resetCache unobfuscates with
      | (some _, s) => some s
      | (none, s) => some s.connect
  | .disconnect =>
    some { s with
      client := if s.client = .connected then .disconnected else s.client, checkInFlight := false }
  | .onConnected =>
    if s.client = .connecting then
      some { s with client := .connected, attests := s.doSafetyNetCheck }
    else none
  | .onConnectionFailed =>
    if s.client = .connecting then some { s with client := .disconnected, checkInFlight := false }
    else none
  | .onResult i shouldCache => s.attests[i]?.map fun attest =>
    { s with attests := s.attests.eraseIdx i }.setPayload attest shouldCache
  | .saveCache =>
    some { s with cacheFile := if s.cacheMap.isEmpty then s.cacheFile else s.cacheMap }
  | .restart => some s.restarted
  | .reboot => some { s.restarted with elapsedRealtime := 0 }
  | .wait milliseconds => some { s with
      elapsedRealtime := s.elapsedRealtime + milliseconds, now := s.now + milliseconds }

/-- The first process, without a file. -/
def initial (elapsedRealtime now : ℤ) : Wrapper :=
  ⟨.disconnected, [], false, none, 0, [], none, elapsedRealtime, now⟩

end Wrapper

variable {s s' : Wrapper} {a : Action}

/-! ### The check in flight -/

/-- A connection or a result will end the check. -/
def Wrapper.Finishing (s : Wrapper) : Prop :=
  s.checkInFlight = true → s.client = .connecting ∨ s.attests ≠ []

/-- The entry of a nonce that is not removed first, has not expired and can be read. -/
def Usable (s : Wrapper) (nonce : Nonce) (resetCache unobfuscates : Bool) : Prop :=
  resetCache = false ∧ unobfuscates = true ∧
    ∃ entry ∈ s.cacheMap.lookup nonce, s.elapsedRealtime ≤ entry.expirationTimestamp

instance (s : Wrapper) (nonce : Nonce) (resetCache unobfuscates : Bool) :
    Decidable (Usable s nonce resetCache unobfuscates) :=
  inferInstanceAs (Decidable (_ ∧ _))

/-- No call of `attest` is made, and either a call of `verify` finds nothing in the cache and the
client connected, or the nonce of the check cannot be decoded when the client gets connected. -/
def Blind (s : Wrapper) : Action → Prop
  | .verify serverNonce _ resetCache unobfuscates => s.attests = [] ∧ s.checkInFlight = false ∧
    ¬ Usable s serverNonce resetCache unobfuscates ∧ s.client = .connected
  | .onConnected => s.attests = [] ∧ s.checkInFlight = true ∧ ¬ Attestable s.lastServerNonce ∧
    s.client = .connecting
  | _ => False

instance (s : Wrapper) : ∀ a, Decidable (Blind s a)
  | .verify .. | .onConnected => inferInstanceAs (Decidable (_ ∧ _))
  | .disconnect | .onConnectionFailed | .onResult .. | .saveCache | .restart
  | .reboot | .wait _ => inferInstanceAs (Decidable False)

/-- What looking into the cache changes, and what it delivers. -/
structure FromCache (s : Wrapper) (t : Option CacheEntry × Wrapper) : Prop where
  client : t.2.client = s.client
  attests : t.2.attests = s.attests
  checkInFlight : t.2.checkInFlight = t.1.isNone
  cacheMap : t.2.cacheMap ⊆ s.cacheMap
  cacheFile : t.2.cacheFile = s.cacheFile
  elapsedRealtime : t.2.elapsedRealtime = s.elapsedRealtime
  now : t.2.now = s.now
  delivered : ∀ entry ∈ t.1, entry ∈ s.cacheMap.map Prod.snd ∧
    s.elapsedRealtime ≤ entry.expirationTimestamp

theorem fromCache_spec (s : Wrapper) (n : Nonce) (ttl : ℤ) (r u : Bool) :
    FromCache s (s.fromCache n ttl r u) := by
  have hsub : (if r then s.cacheMap.remove n else s.cacheMap) ⊆ s.cacheMap := by
    split_ifs
    · exact filter_subset_self _
    · exact .refl _
  rw [Wrapper.fromCache,Wrapper.setPayloadFromCache]
  generalize (if r then s.cacheMap.remove n else s.cacheMap) = cache at hsub ⊢
  dsimp only
  split
  · exact ⟨rfl,rfl,rfl,hsub,rfl,rfl,rfl,nofun⟩
  · rename_i e he
    split_ifs with hexp
    · exact ⟨rfl,rfl,rfl,Subset.trans (filter_subset_self _) hsub,rfl,rfl,rfl,nofun⟩
    · refine ⟨rfl,rfl,rfl,hsub,rfl,rfl,rfl,fun e' he' => ?_⟩
      cases he'
      obtain ⟨before,after,rfl,-⟩ := lookup_eq_some_iff.mp he
      exact ⟨mem_map_of_mem (hsub (mem_append_right _ (.head _))),Int.not_lt.mp hexp⟩
    · exact ⟨rfl,rfl,rfl,hsub,rfl,rfl,rfl,nofun⟩

theorem lookup_remove (cache : CacheMap) (n : Nonce) : (cache.remove n).lookup n = none := by
  refine lookup_eq_none_iff.mpr fun x hx => ?_
  exact bne_iff_ne.mpr (of_decide_eq_true (mem_filter.mp hx).2).symm

theorem fromCache_eq_none_iff {n : Nonce} (ttl : ℤ) {r u : Bool} :
    (s.fromCache n ttl r u).1 = none ↔ ¬ Usable s n r u := by
  cases r with
  | true => simp [Wrapper.fromCache,Wrapper.setPayloadFromCache,Usable,lookup_remove]
  | false =>
    cases he : s.cacheMap.lookup n with
    | none => simp [Wrapper.fromCache,Wrapper.setPayloadFromCache,Usable,he]
    | some e =>
      by_cases hexp : s.elapsedRealtime > e.expirationTimestamp
      · simp [Wrapper.fromCache,Wrapper.setPayloadFromCache,Usable,he,hexp]
      · cases u <;>
          simp [Wrapper.fromCache,Wrapper.setPayloadFromCache,Usable,he,hexp,Int.not_lt.mp hexp]

theorem finishing_step_iff (h : s.step a = some s') (hs : s.Finishing) :
    s'.Finishing ↔ ¬ Blind s a := by
  cases a with
  | verify n ttl r u =>
    have hspec := fromCache_spec s n ttl r u
    rw [Wrapper.step] at h
    rw [Blind,← fromCache_eq_none_iff ttl]
    split_ifs at h with hflight
    · cases h
      exact iff_of_true hs (by simp [hflight])
    · split at h
      · rename_i e t ht
        cases h
        rw [ht] at hspec
        refine iff_of_true (fun hin => ?_) (by simp [ht])
        exact absurd (hspec.checkInFlight.symm.trans hin) Bool.false_ne_true
      · rename_i t ht
        cases h
        rw [ht] at hspec
        -- the check starts, and a connection or an earlier call of `attest` has to end it
        have hiff : t.connect.Finishing ↔ t.connect.client = .connecting ∨ t.attests ≠ [] :=
          imp_iff_right hspec.checkInFlight
        have hc : t.client = s.client := hspec.client
        have ha : t.attests = s.attests := hspec.attests
        rw [hiff,Wrapper.connect,hc,ha]
        cases s.client <;> simp [hflight,ht]
  | onConnected =>
    rw [Wrapper.step] at h
    split_ifs at h with hc
    cases h
    rw [Wrapper.Finishing,Blind,Wrapper.doSafetyNetCheck]
    by_cases hd : Attestable s.lastServerNonce <;> simp [hc,hd]
    exact ⟨fun h ha => Bool.eq_false_iff.mpr fun hin => h hin ha,
      fun h hin ha => Bool.false_ne_true ((h ha).symm.trans hin)⟩
  | onConnectionFailed =>
    rw [Wrapper.step] at h
    split_ifs at h
    cases h
    exact iff_of_true (fun hin => absurd hin Bool.false_ne_true) id
  | onResult i cache =>
    obtain ⟨attest,-,rfl⟩ := Option.map_eq_some_iff.mp h
    exact iff_of_true (fun hin => absurd hin Bool.false_ne_true) id
  | disconnect | restart | reboot =>
    cases h
    exact iff_of_true (fun hin => absurd hin Bool.false_ne_true) id
  | saveCache | wait =>
    cases h
    exact iff_of_true hs id

/-- Something will end every check in flight exactly as long as no call finds the client connected
and no call of `attest` made, and no nonce fails to decode with nothing else to end its check. -/
theorem check_in_flight_finishes_iff (elapsedRealtime now : ℤ) (actions : List Action) :
    Through Wrapper.step Wrapper.Finishing (.initial elapsedRealtime now) actions ↔
      Along Wrapper.step (fun s a => ¬ Blind s a) (.initial elapsedRealtime now) actions := by
  refine through_iff_along (I := fun _ => True) (fun _ _ _ _ _ => trivial)
    (fun s a s' _ hs h => finishing_step_iff h hs) (fun s a h => ?_) trivial nofun
  cases a with
  | verify n ttl r u =>
    rw [Wrapper.step] at h
    split_ifs at h
    split at h <;> cases h
  | onConnected =>
    rw [Wrapper.step] at h
    split_ifs at h with hc
    exact fun hb => hc hb.2.2.2
  | _ => exact id

theorem check_in_flight_finishes_once : Through Wrapper.step Wrapper.Finishing (.initial 0 0)
    [.verify (some "bjE=") 60 false true, .onConnected, .onResult 0 true, .disconnect] :=
  (check_in_flight_finishes_iff 0 0 _).mpr (by decide)

/-- The client stays connected after the first result, and the second nonce is never attested. -/
theorem second_check_stuck : ∃ s, Runs.run Wrapper.step (.initial 0 0)
    [.verify (some "bjE=") 60 false true, .onConnected, .onResult 0 true,
      .verify (some "bjI=") 60 false true] = some s ∧ ¬ s.Finishing :=
  ⟨_,rfl,fun h => (h rfl).elim (fun hc => absurd hc (by decide)) fun ha => ha rfl⟩

/-! ### The cache -/

/-- The entries in memory and in the file. -/
def Wrapper.stored (s : Wrapper) : CacheMap := s.cacheMap ++ s.cacheFile.getD []

/-- Every entry has the payload of a call for its nonce. -/
def Wrapper.Belongs (s : Wrapper) : Prop := ∀ x ∈ s.stored, x.2.payload.nonce = x.1

/-- A result that is cached is for the last nonce. -/
def OwnNonce (s : Wrapper) : Action → Prop
  | .onResult i true => ∀ attest ∈ s.attests[i]?, attest.nonce = s.lastServerNonce
  | _ => True

/-- There is no reboot, and a result that is cached is for the last time to live. -/
def OwnTtl (s : Wrapper) : Action → Prop
  | .onResult i true => ∀ attest ∈ s.attests[i]?, attest.ttlSeconds = s.lastTtlSeconds
  | .reboot => False
  | _ => True

/-- A payload that is delivered from the cache is not older than its time to live. -/
def InTime (s : Wrapper) : Action → Prop
  | .verify serverNonce ttlSeconds resetCache unobfuscates => s.checkInFlight = false →
    ∀ entry ∈ (s.fromCache serverNonce ttlSeconds resetCache unobfuscates).1,
      s.now - entry.cachedAt ≤ entry.payload.ttlSeconds * 1000
  | _ => True

/-- No entry can be delivered after its time to live. -/
def Wrapper.Lives (s : Wrapper) : Prop :=
  ∀ x ∈ s.stored, x.2.expirationTimestamp + (s.now - s.elapsedRealtime) ≤
    x.2.cachedAt + x.2.payload.ttlSeconds * 1000

theorem mem_put {cache : CacheMap} {n : Nonce} {e : CacheEntry} {x : Nonce × CacheEntry}
    (h : x ∈ cache.put n e) : x ∈ cache ∨ x = (n, e) := by
  rw [CacheMap.put] at h
  split_ifs at h
  · obtain ⟨y,hy,rfl⟩ := mem_map.mp h
    split_ifs
    · exact .inr rfl
    · exact .inl hy
  · simpa using h
  · rcases mem_append.mp h with h | h
    · exact .inl (mem_of_mem_tail h)
    · exact .inr (mem_singleton.mp h)

theorem self_mem_put (cache : CacheMap) (n : Nonce) (e : CacheEntry) : (n, e) ∈ cache.put n e := by
  rw [CacheMap.put]
  split_ifs with hn
  · obtain ⟨y,hy,rfl⟩ := mem_map.mp hn
    exact mem_map.mpr ⟨y,hy,if_pos rfl⟩
  · simp
  · simp

/-- The entry of a result that is cached now. -/
def Wrapper.newEntry (s : Wrapper) (attest : Attest) : Nonce × CacheEntry :=
  (s.lastServerNonce, ⟨attest, s.elapsedRealtime + s.lastTtlSeconds * 1000, s.now⟩)

/-- A step stores nothing but the entry of a result, and only a reboot resets the clock. -/
theorem stored_step (h : s.step a = some s') :
    (∀ x ∈ s'.stored, x ∈ s.stored ∨ ∃ i, a = .onResult i true ∧ ∃ attest ∈ s.attests[i]?,
      x = s.newEntry attest) ∧
    (a ≠ .reboot → s'.now - s'.elapsedRealtime = s.now - s.elapsedRealtime) := by
  -- a new process has what the file has
  have hloaded : ∀ x ∈ s.restarted.stored, x ∈ s.stored := fun x hx =>
    mem_append_right _ ((mem_append.mp hx).elim id id)
  cases a with
  | verify n ttl r u =>
    have hspec := fromCache_spec s n ttl r u
    have hmem (x) (hx : x ∈ (s.fromCache n ttl r u).2.stored) : x ∈ s.stored := by
      rw [Wrapper.stored,hspec.cacheFile] at hx
      exact (mem_append.mp hx).elim (mem_append_left _ <| hspec.cacheMap ·) (mem_append_right _)
    rw [Wrapper.step] at h
    split_ifs at h
    · cases h
      exact ⟨fun x hx => .inl hx,fun _ => rfl⟩
    · split at h
      all_goals
        rename_i ht
        rw [ht] at hspec hmem
        cases h
        exact ⟨fun x hx => .inl (hmem x hx),fun _ =>
          congrArg₂ (· - ·) hspec.now hspec.elapsedRealtime⟩
  | onResult i cache =>
    obtain ⟨attest,ha,rfl⟩ := Option.map_eq_some_iff.mp h
    refine ⟨fun x hx => ?_,fun _ => rfl⟩
    cases cache with
    | false => exact .inl hx
    | true =>
      rcases mem_append.mp hx with hx | hx
      · rcases mem_put hx with hx | rfl
        · exact .inl (mem_append_left _ hx)
        · exact .inr ⟨i,rfl,attest,ha,rfl⟩
      · exact .inl (mem_append_right _ hx)
  | onConnected | onConnectionFailed =>
    rw [Wrapper.step] at h
    split_ifs at h
    cases h
    exact ⟨fun x hx => .inl hx,fun _ => rfl⟩
  | disconnect =>
    cases h
    exact ⟨fun x hx => .inl hx,fun _ => rfl⟩
  | saveCache =>
    cases h
    refine ⟨fun x hx => .inl ?_,fun _ => rfl⟩
    rcases mem_append.mp hx with hx | hx
    · exact mem_append_left _ hx
    · dsimp only at hx
      split_ifs at hx
      · exact mem_append_right _ hx
      · exact mem_append_left _ hx
  | restart =>
    cases h
    exact ⟨fun x hx => .inl (hloaded x hx),fun _ => rfl⟩
  | reboot =>
    cases h
    exact ⟨fun x hx => .inl (hloaded x hx),fun h => absurd rfl h⟩
  | wait ms =>
    cases h
    refine ⟨fun x hx => .inl hx,fun _ => ?_⟩
    dsimp only
    omega

theorem belongs_step_iff (h : s.step a = some s') (hs : s.Belongs) : s'.Belongs ↔ OwnNonce s a := by
  constructor
  · intro hs'
    cases a with
    | onResult i cache =>
      obtain ⟨attest,ha,rfl⟩ := Option.map_eq_some_iff.mp h
      cases cache with
      | false => trivial
      | true =>
        intro attest' ha'
        cases ha.symm.trans ha'
        exact hs' (s.newEntry attest) (mem_append_left _ (self_mem_put ..))
    | _ => trivial
  · intro hown x hx
    rcases (stored_step h).1 x hx with hx | ⟨i,rfl,attest,ha,rfl⟩
    · exact hs x hx
    · exact hown attest ha

theorem Wrapper.Lives.step (hs : s.Lives) (hown : OwnTtl s a) (h : s.step a = some s') :
    s'.Lives := by
  obtain ⟨hst,hclock⟩ := stored_step h
  intro x hx
  have hreboot : a ≠ .reboot := by
    rintro rfl
    exact hown
  rw [hclock hreboot]
  rcases hst x hx with hx | ⟨i,rfl,attest,ha,rfl⟩
  · exact hs x hx
  · have httl := hown attest ha
    dsimp only [Wrapper.newEntry]
    omega

theorem Wrapper.Lives.inTime (hs : s.Lives) : InTime s a := by
  cases a with
  | verify n ttl r u =>
    intro _ e he
    obtain ⟨hmem,hexp⟩ := (fromCache_spec s n ttl r u).delivered e he
    obtain ⟨x,hx,rfl⟩ := mem_map.mp hmem
    have hlives := hs x (mem_append_left _ hx)
    omega
  | _ => trivial

/-- All entries belong to their nonces exactly as long as every cached result is for the last nonce.
They are delivered in time if it is for the last time to live and there is no reboot. -/
theorem attestations_belong_iff (elapsedRealtime now : ℤ) (actions : List Action) :
    (Through Wrapper.step Wrapper.Belongs (.initial elapsedRealtime now) actions ↔
      Along Wrapper.step OwnNonce (.initial elapsedRealtime now) actions) ∧
    (Along Wrapper.step OwnTtl (.initial elapsedRealtime now) actions →
      Along Wrapper.step InTime (.initial elapsedRealtime now) actions) := by
  constructor
  · refine through_iff_along (I := fun _ => True) (fun _ _ _ _ _ => trivial)
      (fun s a s' _ hs h => belongs_step_iff h hs) (fun s a h => ?_) trivial nofun
    cases a with
    | onResult i cache =>
      cases cache with
      | false => trivial
      | true =>
        intro attest ha
        rw [Wrapper.step,ha] at h
        cases h
    | _ => trivial
  · exact .of_invariant (I := Wrapper.Lives) (fun s a s' hs hown h => hs.step hown h)
      (fun s a hs _ => hs.inTime) nofun

theorem attestations_belong_sameNonce : Along Wrapper.step InTime (.initial 0 0)
    [.verify (some "bjE=") 60 false true, .onConnected, .onResult 0 true, .wait 1000,
      .verify (some "bjE=") 60 false true] :=
  (attestations_belong_iff 0 0 _).2 (by
    have hd : Attestable (some "bjE=") := by decide
    simp [Along,OwnTtl,Wrapper.step,Wrapper.fromCache,Wrapper.setPayloadFromCache,
      Wrapper.initial,Wrapper.connect,Wrapper.doSafetyNetCheck,hd])

/-- The result for a nonce is cached under the next one, and after a reboot a payload is delivered
that is older than its time to live. -/
theorem result_cached_for_other_nonce :
    (∃ s, Runs.run Wrapper.step (.initial 0 0)
      [.verify (some "bjE=") 60 false true, .onConnected, .disconnect,
        .verify (some "bjI=") 60 false true, .onResult 0 true] = some s ∧ ¬ s.Belongs) ∧
    ∃ s, Runs.run Wrapper.step (.initial 5000000 5000000)
      [.verify (some "bjE=") 60 false true, .onConnected, .onResult 0 true, .saveCache,
        .wait 1000000, .reboot] = some s ∧ ¬ InTime s (.verify (some "bjE=") 60 false true) := by
  refine ⟨⟨_,rfl,fun h => ?_⟩,_,rfl,fun h => ?_⟩
  · exact absurd (h _ (.head _)) (by decide)
  · exact absurd (h rfl _ rfl) (by decide)

end Psiphon.Android.SafetyNet
