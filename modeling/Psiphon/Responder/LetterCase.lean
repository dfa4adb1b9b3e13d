import Psiphon.Responder.DailyLimit

/-!
# Letter case in the limits of the mail responder

The tables hold hashes of lower-case text. The lists in the settings are compared with the domain as
the sender spells it.
-/

namespace Psiphon.Responder

open Option Adhoc

/-- The hash is added unless its row is there. -/
def addHash (hashes : List Text) (hash : Text) : List Text :=
  if hashes.contains hash then hashes else hashes ++ [hash]

def addToBlacklist (settings : Settings) (entry : Text) : Settings :=
  let hash := hashAddr settings entry
  if '@' ∈ entry then { settings with blacklistEmail := addHash settings.blacklistEmail hash }
  else { settings with blacklistDomain := addHash settings.blacklistDomain hash }

def addToWhitelist (settings : Settings) (entry : Text) : Settings :=
  let hash := hashAddr settings entry
  if '@' ∈ entry then { settings with whitelistEmail := addHash settings.whitelistEmail hash }
  else { settings with whitelistDomain := addHash settings.whitelistDomain hash }

/-- `check_and_add` without another call at the same time: its answer, unless it raises, and the
rows of `blacklist_adhoc` after it. -/
def checkAndAdd (settings : Settings) (counts : Text → Option ℕ) (address : Text) :
    Option Bool × (Text → Option ℕ) :=
  match queried settings ⟨counts, []⟩ address with
  | .raised => (none, counts)
  | .returned allowed => (some allowed, counts)
  | .inserting => (some true, Function.update counts (hashAddr settings address) (some 1))
  | .updating count => (some true, Function.update counts (hashAddr settings address) (some count))

/-- The answer of the lists in the settings. -/
def listed (settings : Settings) (domain : Text) : Option Bool :=
  if settings.blacklistExemptionDomains.contains domain then some true
  else if settings.blacklistedDomains.contains domain then some false
  else none

/-- The same tables, and no lists. -/
def Settings.unlisted (settings : Settings) : Settings :=
  { settings with blacklistExemptionDomains := [], blacklistedDomains := [] }

def Settings.InLowerCase (settings : Settings) : Prop :=
  ∀ domain ∈ settings.blacklistExemptionDomains ++ settings.blacklistedDomains,
    lower domain = domain

variable {settings : Settings} {counts : Text → Option ℕ} {address address' domain domain' : Text}

/-- A call that commits before any other runs as `checkAndAdd` says. -/
theorem run_checkAndAdd (s : Adhoc) (address : Text) : ∃ a : List Adhoc.Action,
    a ∈ [[.query address],[.query address,.commit s.calls.length]] ∧
      ∃ p, Runs.run (step settings) s a =
        some ⟨(checkAndAdd settings s.counts address).2,s.calls ++ [⟨address,p⟩]⟩ ∧
      (p = .raised ∧ (checkAndAdd settings s.counts address).1 = none ∨
        ∃ allowed, p = .returned allowed ∧
          (checkAndAdd settings s.counts address).1 = some allowed) := by
  have hq : queried settings ⟨s.counts,[]⟩ address = queried settings s address := rfl
  rw [checkAndAdd,hq]
  cases hp : queried settings s address with
  | raised => exact ⟨_,.head _,_,by simp [Runs.run,step,hp],.inl ⟨rfl,rfl⟩⟩
  | returned allowed =>
    exact ⟨_,.head _,_,by simp [Runs.run,step,hp],.inr ⟨allowed,rfl,rfl⟩⟩
  | inserting =>
    -- a call that inserts has found no row
    have hn : s.counts (hashAddr settings address) = none := by
      rw [queried] at hp
      split at hp <;> try cases hp
      cases hc : s.counts (hashAddr settings address) with
      | none => rfl
      | some count =>
        rw [hc,found] at hp
        split_ifs at hp
    exact ⟨_,.tail _ (.head _),_,by simp [Runs.run,step,hp,hn],.inr ⟨true,rfl,rfl⟩⟩
  | updating count =>
    exact ⟨_,.tail _ (.head _),_,by simp [Runs.run,step,hp],.inr ⟨true,rfl,rfl⟩⟩

/-! ### The lists and the tables -/

theorem checkAndAdd_nil (hd : domainOf address = some []) :
    checkAndAdd settings counts address = (some false,counts) := by
  simp [checkAndAdd,queried,verdict,hd]

theorem checkAndAdd_eq (hd : domainOf address = some domain) (hne : domain ≠ []) :
    checkAndAdd settings counts address = ((listed settings domain).map fun allowed =>
      (some allowed,counts)).getD (checkAndAdd settings.unlisted counts address) := by
  have hv : verdict settings address = ((listed settings domain).map .answer).getD
      (verdict settings.unlisted address) := by
    simp only [verdict,hd,hne,if_false,listed,Settings.unlisted]
    split_ifs <;> simp_all [isEmailWhitelisted,isDomainWhitelisted,isEmailBlacklisted,
      isDomainBlacklisted,hashAddr]
  rw [checkAndAdd,checkAndAdd,queried,queried,hv]
  cases listed settings domain <;> rfl

/-- Without the lists only the hashes of lower-case text decide. -/
theorem checkAndAdd_unlisted (hc : lower address = lower address') :
    checkAndAdd settings.unlisted counts address =
      checkAndAdd settings.unlisted counts address' := by
  have hh : hashAddr settings.unlisted address = hashAddr settings.unlisted address' :=
    hashAddr_of_lower hc
  have hd : (domainOf address).map lower = (domainOf address').map lower := by
    rw [← domainOf_lower,← domainOf_lower,hc]
  have hv : verdict settings.unlisted address = verdict settings.unlisted address' := by
    rw [verdict,verdict]
    cases ha : domainOf address with
    | none => rw [map_eq_none_iff.mp (hd.symm.trans (by rw [ha]; rfl))]
    | some domain =>
      rw [ha,map_some] at hd
      obtain ⟨domain',hb,hl⟩ := map_eq_some_iff.mp hd.symm
      have hn : domain = [] ↔ domain' = [] := by
        rw [← List.map_eq_nil_iff (f := Char.toLower),← lower,← hl,lower,List.map_eq_nil_iff]
      simp only [hb,isEmailWhitelisted,isEmailBlacklisted,isDomainWhitelisted,isDomainBlacklisted,
        hh,hashAddr_of_lower hl.symm,hn]
      rfl
  rw [checkAndAdd,checkAndAdd,queried,queried,hv,hh]

theorem listed_eq (hl : settings.InLowerCase) (domain : Text) :
    listed settings domain =
      if lower domain = domain then listed settings (lower domain) else none := by
  split_ifs with h
  · rw [h]
  · have hn : domain ∉ settings.blacklistExemptionDomains ++ settings.blacklistedDomains :=
      fun hm => h (hl domain hm)
    rw [List.mem_append,not_or] at hn
    simp [listed,hn]

/-! ### What the tables say -/

def Whitelisted (settings : Settings) (address domain : Text) : Prop :=
  isEmailWhitelisted settings address = true ∨ isDomainWhitelisted settings domain = true

/-- The address or its domain is in a table, or the address has used up its requests. -/
def Refused (settings : Settings) (counts : Text → Option ℕ) (address domain : Text) : Prop :=
  (isEmailBlacklisted settings address = true ∨ isDomainBlacklisted settings domain = true) ∨
    ∃ count, counts (hashAddr settings address) = some count ∧ settings.blacklistDailyLimit ≤ count

/-- The tables say of the address what the lists say of its domain in lower case. -/
structure TablesAgree (settings : Settings) (counts : Text → Option ℕ) (address domain : Text) :
    Prop where
  exempt : lower domain ∈ settings.blacklistExemptionDomains → Whitelisted settings address domain
  refused : lower domain ∉ settings.blacklistExemptionDomains →
    lower domain ∈ settings.blacklistedDomains →
      ¬ Whitelisted settings address domain ∧ Refused settings counts address domain

/-- Without the lists the rows stay as they are for the addresses that the tables decide. -/
theorem checkAndAdd_unlisted_iff (hd : domainOf address = some domain) (hne : domain ≠ [])
    (allowed : Bool) : checkAndAdd settings.unlisted counts address = (some allowed,counts) ↔
      if allowed then Whitelisted settings address domain
      else ¬ Whitelisted settings address domain ∧ Refused settings counts address domain := by
  have hv : verdict settings.unlisted address =
      if isEmailWhitelisted settings address || isDomainWhitelisted settings domain then
        .answer true
      else if isEmailBlacklisted settings address || isDomainBlacklisted settings domain then
        .answer false
      else .counts := by
    simp only [verdict,hd,if_neg hne]
    rfl
  have hh : hashAddr settings.unlisted address = hashAddr settings address := rfl
  rw [checkAndAdd,queried,hv,hh,Whitelisted,Refused,← Bool.or_eq_true,← Bool.or_eq_true]
  cases isEmailWhitelisted settings address || isDomainWhitelisted settings domain with
  | true => cases allowed <;> simp
  | false =>
    cases isEmailBlacklisted settings address || isDomainBlacklisted settings domain with
    | true => cases allowed <;> simp
    | false =>
      cases hc : counts (hashAddr settings address) with
      | none => cases allowed <;> simp [found,hc]
      | some count =>
        by_cases hl : count < settings.unlisted.blacklistDailyLimit
        · have hn : ¬ settings.blacklistDailyLimit ≤ count := Nat.not_le.mpr hl
          cases allowed <;> simp [found,hl,hc,hn]
        · have hn : settings.blacklistDailyLimit ≤ count := Nat.not_lt.mp hl
          cases allowed <;> simp [found,hl,hc,hn]

theorem tablesAgree_iff (hd : domainOf address = some domain) (hne : domain ≠ []) :
    TablesAgree settings counts address domain ↔ ∀ allowed,
      listed settings (lower domain) = some allowed →
        checkAndAdd settings.unlisted counts address = (some allowed,counts) := by
  simp only [checkAndAdd_unlisted_iff hd hne,listed,List.contains_iff_mem]
  constructor
  · intro h allowed hl
    split_ifs at hl with he hb <;> cases hl
    · exact h.exempt he
    · exact h.refused he hb
  · exact fun h => ⟨fun he => h true (by simp [he]),fun he hb => h false (by simp [he,hb])⟩

theorem contains_addHash (hashes : List Text) (hash : Text) :
    (addHash hashes hash).contains hash = true := by
  unfold addHash
  split_ifs with ho
  · exact ho
  · simp

section Added

variable {entry : Text} (hat : '@' ∉ entry) (hen : lower domain = lower entry)

include hat hen

theorem isDomainBlacklisted_add :
    isDomainBlacklisted (addToBlacklist settings entry) domain = true := by
  rw [addToBlacklist,if_neg hat,isDomainBlacklisted]
  show List.contains _ (hashAddr settings domain) = true
  rw [hashAddr_of_lower hen]
  exact contains_addHash ..

theorem isDomainWhitelisted_add :
    isDomainWhitelisted (addToWhitelist settings entry) domain = true := by
  rw [addToWhitelist,if_neg hat,isDomainWhitelisted]
  show List.contains _ (hashAddr settings domain) = true
  rw [hashAddr_of_lower hen]
  exact contains_addHash ..

theorem checkAndAdd_addToBlacklist (hd : domainOf address = some domain)
    (he : ¬ Exempt settings address) :
    checkAndAdd (addToBlacklist settings entry) counts address = (some false,counts) := by
  simp only [Exempt,not_or,not_exists,not_and] at he
  obtain ⟨hemail,hli⟩ := he
  have hb : isDomainBlacklisted (addToBlacklist settings entry) domain = true :=
    isDomainBlacklisted_add hat hen
  have hv : verdict (addToBlacklist settings entry) address = .answer false := by
    simp only [verdict,hd,hb,Bool.or_true,if_true]
    simp only [addToBlacklist,if_neg hat]
    split_ifs with hnil hex hbl hor
    all_goals simp_all [isEmailWhitelisted,isDomainWhitelisted,hashAddr]
  rw [checkAndAdd,queried,hv]

theorem checkAndAdd_addToWhitelist (hd : domainOf address = some domain) (hne : domain ≠ [])
    (hl : domain ∉ settings.blacklistedDomains) :
    checkAndAdd (addToWhitelist settings entry) counts address = (some true,counts) := by
  have hw : isDomainWhitelisted (addToWhitelist settings entry) domain = true :=
    isDomainWhitelisted_add hat hen
  have hb : domain ∉ (addToWhitelist settings entry).blacklistedDomains := by
    rwa [addToWhitelist,if_neg hat]
  have hv : verdict (addToWhitelist settings entry) address = .answer true := by
    simp [verdict,hd,hne,hw,hb]
  rw [checkAndAdd,queried,hv]

end Added

/-- Two spellings of an address get the same answer and rows exactly when both or neither of their
domains are in lower case, or the tables say what the lists say. A domain that was added to a table
is refused, or answered, in every spelling. -/
theorem check_ignores_case_iff (settings : Settings) (counts : Text → Option ℕ)
    (address address' domain domain' : Text) (hlists : settings.InLowerCase)
    (hcase : lower address = lower address') (hdomain : domainOf address = some domain)
    (hdomain' : domainOf address' = some domain') :
    (checkAndAdd settings counts address = checkAndAdd settings counts address' ↔
      (lower domain = domain ↔ lower domain' = domain') ∨ domain = [] ∨
        TablesAgree settings counts address domain) ∧
    ∀ entry, '@' ∉ entry → lower domain = lower entry →
      (¬ Exempt settings address →
        checkAndAdd (addToBlacklist settings entry) counts address = (some false, counts)) ∧
      (domain ≠ [] → domain ∉ settings.blacklistedDomains →
        checkAndAdd (addToWhitelist settings entry) counts address = (some true, counts)) := by
  have hl : lower domain = lower domain' := by
    have hbo : some (lower domain) = some (lower domain') := by
      rw [← map_some,← hdomain,← domainOf_lower,hcase,domainOf_lower,hdomain',map_some]
    exact Option.some.inj hbo
  constructor
  · by_cases hne : domain = []
    · have hnil : domain' = [] := by simpa [lower,hne] using hl
      subst hne hnil
      simp [checkAndAdd_nil hdomain,checkAndAdd_nil hdomain']
    · have hne' : domain' ≠ [] := fun h => hne (by simpa [lower,h] using hl)
      rw [tablesAgree_iff hdomain hne,checkAndAdd_eq hdomain hne,checkAndAdd_eq hdomain' hne',
        ← checkAndAdd_unlisted hcase,listed_eq hlists domain,listed_eq hlists domain',← hl]
      -- the lists decide for the spelling in lower case alone, otherwise the tables do
      generalize checkAndAdd settings.unlisted counts address = answer
      have hiff (p q : Prop) [Decidable p] [Decidable q] : ∀ x : Option Bool,
          ((if p then x else none).map fun allowed => (some allowed,counts)).getD answer =
            ((if q then x else none).map fun allowed => (some allowed,counts)).getD answer ↔
          (p ↔ q) ∨ ∀ allowed, x = some allowed → answer = (some allowed,counts) := by
        by_cases hp : p <;> by_cases hq : q <;> rintro (_ | allowed) <;> simp [hp,hq,eq_comm]
      rw [hiff]
      simp [hne]
  · exact fun entry hat hen => ⟨checkAndAdd_addToBlacklist hat hen hdomain,
      checkAndAdd_addToWhitelist hat hen hdomain⟩

theorem check_ignores_case_upperUser :
    checkAndAdd twoADay (fun _ => none) "USER@example.com".toList =
      checkAndAdd twoADay (fun _ => none) requester :=
  (check_ignores_case_iff twoADay (fun _ => none) "USER@example.com".toList requester
    "example.com".toList "example.com".toList (by simp [Settings.InLowerCase,twoADay])
    (by decide) (by decide) (by decide)).1.mpr (.inl .rfl)

/-- A domain that the settings refuse is answered in capital letters. -/
theorem listed_domain_answered_in_capitals :
    let settings := { twoADay with blacklistedDomains := ["example.com".toList] }
    (checkAndAdd settings (fun _ => none) requester).1 = some false ∧
      (checkAndAdd settings (fun _ => none) "user@EXAMPLE.com".toList).1 = some true := by
  decide

end Psiphon.Responder
