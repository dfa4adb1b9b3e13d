import Psiphon.Responder.Blacklist
import Mathlib.Data.List.Count

/-!
# How often an address is answered

Two calls that find the same count both write the next one and both return `True`.
-/

namespace Psiphon.Responder

open List Function Option
open Runs (run Along run_invariant_along)

/-! ### Letter case -/

theorem toLower_eq_at {c : Char} : c.toLower = '@' ↔ c = '@' := by
  constructor
  · intro h
    obtain ⟨hl,-⟩ | ⟨hs,-⟩ := toLower_range c
    · rw [h] at hl
      exact absurd hl (by decide)
    · exact hs ▸ h
  · rintro rfl
    rfl

theorem domainOf_lower (address : Text) :
    domainOf (lower address) = (domainOf address).map lower := by
  have hmem : '@' ∈ lower address ↔ '@' ∈ address := by
    rw [lower,List.mem_map]
    refine ⟨fun ⟨c,hc,hl⟩ => toLower_eq_at.mp hl ▸ hc,fun h => ⟨'@',h,rfl⟩⟩
  have hs : (fun c : Char => decide (c ≠ '@')) ∘ Char.toLower = fun c => decide (c ≠ '@') := by
    funext c
    exact decide_eq_decide.mpr (not_congr toLower_eq_at)
  rw [domainOf,domainOf]
  by_cases h : '@' ∈ address
  · rw [if_pos h,if_pos (hmem.mpr h),map_some,lower,lower,← map_reverse,
      takeWhile_map,hs,map_reverse]
  · rw [if_neg h,if_neg (mt hmem.mp h)]
    rfl

variable {settings : Settings}

theorem hashAddr_of_lower {address address' : Text} (h : lower address = lower address') :
    hashAddr settings address = hashAddr settings address' := by rw [hashAddr,hashAddr,h]

/-- An operator has exempted the address, its domain in the settings or its domain in the table. -/
def Exempt (settings : Settings) (address : Text) : Prop :=
  isEmailWhitelisted settings address = true ∨ ∃ domain, domainOf address = some domain ∧
    (domain ∈ settings.blacklistExemptionDomains ∨ isDomainWhitelisted settings domain = true)

/-- The exemption of a domain in the settings does not depend on the letter case of the address. -/
def AnyCase (settings : Settings) (address : Text) : Prop :=
  ∀ variant domain, lower variant = lower address → domainOf variant = some domain →
    domain ∈ settings.blacklistExemptionDomains →
      ∃ domain', domainOf address = some domain' ∧ domain' ∈ settings.blacklistExemptionDomains

variable {address : Text}

theorem exempt_of_answer_true (h : verdict settings address = .answer true) :
    Exempt settings address := by
  rw [verdict] at h
  split at h
  · cases h
  · rename_i d hd
    split at h
    · cases h
    · split at h
      · rename_i he
        exact .inr ⟨d,hd,.inl (contains_iff_mem.mp he)⟩
      · split at h
        · cases h
        · split at h
          · rename_i hw
            obtain hem | hw := Bool.or_eq_true_iff.mp hw
            · exact .inl hem
            · exact .inr ⟨d,hd,.inr hw⟩
          · split at h <;> cases h

theorem exempt_of_lower {address v : Text} (hc : AnyCase settings address)
    (h : lower v = lower address) (he : Exempt settings v) : Exempt settings address := by
  obtain hemail | ⟨d,hd,hs | hwhite⟩ := he
  · refine .inl ?_
    rwa [isEmailWhitelisted,← hashAddr_of_lower h]
  · obtain ⟨d',hd',hm⟩ := hc v d h hd hs
    exact .inr ⟨d',hd',.inl hm⟩
  · have hdo : (domainOf address).map lower = some (lower d) := by
      rw [← domainOf_lower,← h,domainOf_lower,hd,map_some]
    obtain ⟨d',hd',hl⟩ := map_eq_some_iff.mp hdo
    refine .inr ⟨d',hd',.inr ?_⟩
    rwa [isDomainWhitelisted,hashAddr_of_lower hl]

namespace Adhoc

variable {s s' : Adhoc} {a : Action}

/-! ### The row counts the answers -/

/-- The calls that returned `True` because of the count in this row. -/
def granted (settings : Settings) (s : Adhoc) (hash : Text) : ℕ :=
  s.calls.countP fun call => hashAddr settings call.address = hash ∧
    call.point = .returned true ∧ verdict settings call.address = .counts

/-- A call that found a row commits while the row has the count that it read. -/
def Current (settings : Settings) (s : Adhoc) : Action → Prop
  | .query _ => True
  | .commit i =>
    match s.calls[i]? with
    | some ⟨address, .updating count⟩ =>
      (s.counts (hashAddr settings address)).map (· + 1) = some count
    | _ => True

instance (s : Adhoc) (a : Action) : Decidable (Current settings s a) := by
  cases a with
  | query => exact isTrue trivial
  | commit i =>
    rw [Current]
    split
    · infer_instance
    · exact isTrue trivial

structure Counted (settings : Settings) (s : Adhoc) : Prop where
  granted : ∀ hash, granted settings s hash = (s.counts hash).getD 0
  limit : ∀ hash, (s.counts hash).getD 0 ≤ settings.blacklistDailyLimit
  updating : ∀ call ∈ s.calls, ∀ count, call.point = .updating count →
    verdict settings call.address = .counts ∧ count ≤ settings.blacklistDailyLimit
  inserting : ∀ call ∈ s.calls, call.point = .inserting → verdict settings call.address = .counts
  returned : ∀ call ∈ s.calls, call.point = .returned true →
    verdict settings call.address = .counts ∨ verdict settings call.address = .answer true

theorem counted_cleared (settings : Settings) : Counted settings cleared :=
  ⟨fun _ => rfl,fun _ => Nat.zero_le _,fun _ h => (by cases h),fun _ h => (by cases h),
    fun _ h => (by cases h)⟩

theorem queried_cases (settings : Settings) (s : Adhoc) (address : Text) :
    queried settings s address = .raised ∨ queried settings s address = .returned false ∨
    verdict settings address = .answer true ∧ queried settings s address = .returned true ∨
    verdict settings address = .counts ∧ queried settings s address = .inserting ∨
    ∃ count, verdict settings address = .counts ∧ count < settings.blacklistDailyLimit ∧
      queried settings s address = .updating (count + 1) := by
  rw [queried]
  cases hverdict : verdict settings address with
  | raises => exact .inl rfl
  | answer allowed =>
    cases allowed with
    | false => exact .inr (.inl rfl)
    | true => exact .inr (.inr (.inl ⟨rfl,rfl⟩))
  | counts =>
    dsimp only
    cases s.counts (hashAddr settings address) with
    | none => exact .inr (.inr (.inr (.inl ⟨rfl,rfl⟩)))
    | some count =>
      rw [found]
      split
      · exact .inr (.inr (.inr (.inr ⟨count,rfl,‹_›,rfl⟩)))
      · exact .inr (.inl rfl)

theorem Counted.query (h : Counted settings s) (address : Text) :
    Counted settings { s with calls := s.calls ++ [⟨address,queried settings s address⟩] } := by
  have hc := queried_cases settings s address
  refine ⟨fun hash => ?_,h.limit,fun call hca count hp => ?_,fun call hca hp => ?_,
    fun call hca hp => ?_⟩
  · rw [← h.granted hash,Adhoc.granted,countP_append]
    -- An answer of `True` at once does not come from a count.
    have hnew : [(⟨address,queried settings s address⟩ : Call)].countP (fun call =>
        hashAddr settings call.address = hash ∧ call.point = .returned true ∧
          verdict settings call.address = .counts) = 0 := by
      obtain hq | hq | ⟨hv,hq⟩ | ⟨-,hq⟩ | ⟨count,-,-,hq⟩ := hc
      · simp [hq]
      · simp [hq]
      · simp [hv]
      · simp [hq]
      · simp [hq]
    rw [hnew]
    rfl
  · obtain hca | hca := mem_append.mp hca
    · exact h.updating call hca count hp
    · obtain rfl := mem_singleton.mp hca
      obtain hq | hq | ⟨-,hq⟩ | ⟨-,hq⟩ | ⟨found,hv,hlt,hq⟩ := hc
      · cases hq.symm.trans hp
      · cases hq.symm.trans hp
      · cases hq.symm.trans hp
      · cases hq.symm.trans hp
      · cases hq.symm.trans hp
        exact ⟨hv,hlt⟩
  · obtain hca | hca := mem_append.mp hca
    · exact h.inserting call hca hp
    · obtain rfl := mem_singleton.mp hca
      obtain hq | hq | ⟨-,hq⟩ | ⟨hv,-⟩ | ⟨found,-,-,hq⟩ := hc
      · cases hq.symm.trans hp
      · cases hq.symm.trans hp
      · cases hq.symm.trans hp
      · exact hv
      · cases hq.symm.trans hp
  · obtain hca | hca := mem_append.mp hca
    · exact h.returned call hca hp
    · obtain rfl := mem_singleton.mp hca
      obtain hq | hq | ⟨hv,-⟩ | ⟨-,hq⟩ | ⟨found,-,-,hq⟩ := hc
      · cases hq.symm.trans hp
      · cases hq.symm.trans hp
      · exact .inr hv
      · cases hq.symm.trans hp
      · cases hq.symm.trans hp

theorem granted_set {i : ℕ} {p : Point} (hi : s.calls[i]? = some ⟨address,p⟩)
    (hp : p ≠ .returned true) (hv : verdict settings address = .counts)
    (c : Text → Option ℕ) (allowed : Bool) (hash : Text) :
    granted settings ⟨c,s.calls.set i ⟨address,.returned allowed⟩⟩ hash =
      granted settings s hash +
        if allowed = true ∧ hashAddr settings address = hash then 1 else 0 := by
  obtain ⟨hlt,hg⟩ := List.getElem?_eq_some_iff.mp hi
  rw [granted,countP_set hlt,hg]
  cases allowed <;> simp [granted,hp,hv]

theorem mem_set {c : List Call} {i : ℕ} {new call : Call} (h : call ∈ c.set i new) :
    call = new ∨ call ∈ c := (mem_or_eq_of_mem_set h).symm

/-- A call that returns `True` raises the count of its row by one, up to the limit. -/
theorem Counted.grant (h : Counted settings s) {i : ℕ} {p : Point} {count : ℕ}
    (hi : s.calls[i]? = some ⟨address,p⟩) (hp : p ≠ .returned true)
    (hv : verdict settings address = .counts)
    (hc : count = (s.counts (hashAddr settings address)).getD 0 + 1)
    (hl : count ≤ settings.blacklistDailyLimit) :
    Counted settings ⟨Function.update s.counts (hashAddr settings address) (some count),
      s.calls.set i ⟨address,.returned true⟩⟩ := by
  refine ⟨fun hash => ?_,fun hash => ?_,fun call hca n hn => ?_,fun call hca hn => ?_,
    fun call hca hn => ?_⟩
  · rw [granted_set hi hp hv,h.granted]
    dsimp only
    by_cases hh : hash = hashAddr settings address
    · subst hh
      rw [if_pos ⟨rfl,rfl⟩,update_self,getD_some,hc]
    · rw [if_neg fun hs => hh hs.2.symm,update_of_ne hh]
      rfl
  · dsimp only
    by_cases hh : hash = hashAddr settings address
    · subst hh
      rw [update_self]
      exact hl
    · rw [update_of_ne hh]
      exact h.limit hash
  · obtain rfl | hca := mem_set hca
    · cases hn
    · exact h.updating call hca n hn
  · obtain rfl | hca := mem_set hca
    · cases hn
    · exact h.inserting call hca hn
  · obtain rfl | hca := mem_set hca
    · exact .inl hv
    · exact h.returned call hca hn

theorem Counted.refuse (h : Counted settings s) {i : ℕ} {p : Point}
    (hi : s.calls[i]? = some ⟨address,p⟩) (hp : p ≠ .returned true)
    (hv : verdict settings address = .counts) :
    Counted settings { s with calls := s.calls.set i ⟨address,.returned false⟩ } := by
  refine ⟨fun hash => ?_,h.limit,fun call hc n hn => ?_,fun call hc hn => ?_, fun call hc hn => ?_⟩
  · rw [granted_set hi hp hv,h.granted,if_neg fun hs => Bool.false_ne_true hs.1]
    rfl
  · obtain rfl | hc := mem_set hc
    · cases hn
    · exact h.updating call hc n hn
  · obtain rfl | hc := mem_set hc
    · cases hn
    · exact h.inserting call hc hn
  · obtain rfl | hc := mem_set hc
    · cases hn
    · exact h.returned call hc hn

theorem Counted.step (hp : 0 < settings.blacklistDailyLimit) (h : Counted settings s)
    (hc : Current settings s a) (hs : step settings s a = some s') : Counted settings s' := by
  cases a with
  | query address =>
    cases hs
    exact h.query address
  | commit i =>
    rw [Adhoc.step] at hs
    split at hs
    · rename_i address hi
      have hv := h.inserting _ (mem_of_getElem? hi) rfl
      dsimp only at hs
      split at hs
      · cases hs
        exact h.refuse hi (by simp) hv
      · rename_i hn
        cases hs
        exact h.grant hi (by simp) hv (by rw [hn]; rfl) hp
    · rename_i address count hi
      obtain ⟨hv,hl⟩ := h.updating _ (mem_of_getElem? hi) count rfl
      cases hs
      rw [Current,hi] at hc
      obtain ⟨old,ho,rfl⟩ := map_eq_some_iff.mp hc
      exact h.grant hi (by simp) hv (by rw [ho]; rfl) hl
    · cases hs

/-- In every run in which each commit finds the count that its call read, an address that is not
exempt is answered at most as often as the limit says. -/
theorem allowed_le_of_current (hpositive : 0 < settings.blacklistDailyLimit) {actions : List Action}
    (hcurrent : Along (Adhoc.step settings) (Current settings) cleared actions)
    (hrun : run (Adhoc.step settings) cleared actions = some s) {address : Text}
    (hexempt : ¬ Exempt settings address) (hcase : AnyCase settings address) :
    s.allowed address ≤ settings.blacklistDailyLimit := by
  have hco : Counted settings s :=
    run_invariant_along (fun _ _ _ h hc hs => .step hpositive h hc hs)
      (counted_cleared settings) hcurrent hrun
  have hle : s.allowed address ≤ granted settings s (hashAddr settings address) := by
    refine countP_mono_left fun call hca ha => ?_
    obtain ⟨hl,hr⟩ := of_decide_eq_true ha
    refine decide_eq_true ⟨hashAddr_of_lower hl,hr,?_⟩
    obtain hv | han := hco.returned call hca hr
    · exact hv
    · exact absurd (exempt_of_lower hcase hl (exempt_of_answer_true han)) hexempt
  calc s.allowed address
    _ ≤ granted settings s (hashAddr settings address) := hle
    _ = (s.counts (hashAddr settings address)).getD 0 := hco.granted _
    _ ≤ settings.blacklistDailyLimit := hco.limit _

def twoADay : Settings := ⟨[], [], 2, id, [], [], [], []⟩

def requester : Text := "user@example.com".toList

theorem not_exempt_requester : ¬ Exempt twoADay requester := by
  rintro (h | ⟨domain,-,h | h⟩)
  · cases h
  · cases h
  · cases h

def inTurn : List Action :=
  [.query requester, .commit 0, .query "USER@example.com".toList, .commit 1, .query requester]

theorem allowed_inTurn : ∃ s, run (Adhoc.step twoADay) cleared inTurn = some s ∧
    s.calls.length = 3 ∧ s.allowed requester ≤ 2 := by
  have hc : Along (Adhoc.step twoADay) (Current twoADay) cleared inTurn := by decide +kernel
  refine ⟨_,(some_get (by decide +kernel)).symm,by decide +kernel,?_⟩
  exact allowed_le_of_current (by decide) hc (some_get _).symm not_exempt_requester
    fun _ _ _ _ h => (by cases h)

/-- After a first answer two requests come at the same time: both find the count 1. -/
def atOnce : List Action :=
  [.query requester, .commit 0, .query requester, .query requester, .commit 1, .commit 2]

theorem allowed_atOnce : ∃ s, run (Adhoc.step twoADay) cleared atOnce = some s ∧
    ¬ Exempt twoADay requester ∧ s.allowed requester = 3 ∧ twoADay.blacklistDailyLimit = 2 := by
  have ha : (run (Adhoc.step twoADay) cleared atOnce).map (fun s => s.allowed requester) =
      some 3 := by decide +kernel
  obtain ⟨s,hr,ha⟩ := map_eq_some_iff.mp ha
  exact ⟨s,hr,not_exempt_requester,ha,rfl⟩

end Adhoc

end Psiphon.Responder
