import Psiphon.Lib.Runs

/-!
# The blacklist of the mail responder

`check_and_add` of `blacklist.py`. Every call reads the row of the address, computes, and writes
when it commits.
-/

namespace Psiphon.Responder

abbrev Text := List Char

/-- `text.lower()` of a byte string -/
def lower (text : Text) : Text := text.map Char.toLower

theorem toLower_range (c : Char) : 97 ≤ c.toLower.toNat ∧ c.toLower.toNat ≤ 122 ∨
    c.toLower = c ∧ ¬ (65 ≤ c.toNat ∧ c.toNat ≤ 90) := by
  unfold Char.toLower
  split
  · next hu =>
    have hlow : 65 ≤ c.val.toNat := UInt32.le_iff_toNat_le.mp hu.1
    have hhigh : c.val.toNat ≤ 90 := UInt32.le_iff_toNat_le.mp hu.2
    have hval : (c.val + 32).toNat = c.val.toNat + 32 := by
      rw [UInt32.toNat_add,show (32 : UInt32).toNat = 32 from rfl]
      omega
    refine .inl ?_
    show 97 ≤ (c.val + 32).toNat ∧ (c.val + 32).toNat ≤ 122
    omega
  · next hu =>
    exact .inr ⟨rfl,fun h => hu ⟨UInt32.le_iff_toNat_le.mpr h.1,UInt32.le_iff_toNat_le.mpr h.2⟩⟩

/-- `settings.py`, and the tables that only an operator changes. -/
structure Settings where
  blacklistExemptionDomains : List Text
  blacklistedDomains : List Text
  blacklistDailyLimit : ℕ
  sha1 : Text → Text
  whitelistEmail : List Text
  whitelistDomain : List Text
  blacklistEmail : List Text
  blacklistDomain : List Text

variable (settings : Settings)

def hashAddr (address : Text) : Text := settings.sha1 (lower address)

/-- `email_addr[email_addr.rindex('@') + 1:]`, unless `rindex` raises -/
def domainOf (address : Text) : Option Text :=
  if '@' ∈ address then some (address.reverse.takeWhile (· ≠ '@')).reverse else none

/-- How a call comes to its answer. -/
inductive Verdict where
  /-- `rindex` raises a `ValueError`. -/
  | raises
  | answer (allowed : Bool)
  /-- The number of requests decides. -/
  | counts
  deriving DecidableEq, Repr

def isEmailWhitelisted (address : Text) : Bool :=
  settings.whitelistEmail.contains (hashAddr settings address)

def isDomainWhitelisted (domain : Text) : Bool :=
  settings.whitelistDomain.contains (hashAddr settings domain)

def isEmailBlacklisted (address : Text) : Bool :=
  settings.blacklistEmail.contains (hashAddr settings address)

def isDomainBlacklisted (domain : Text) : Bool :=
  settings.blacklistDomain.contains (hashAddr settings domain)

/-- `check_and_add` before its query for the number of requests. -/
def verdict (address : Text) : Verdict :=
  match domainOf address with
  | none => .raises
  | some domain =>
    if domain = [] then .answer false
    else if settings.blacklistExemptionDomains.contains domain then .answer true
    else if settings.blacklistedDomains.contains domain then .answer false
    else if isEmailWhitelisted settings address || isDomainWhitelisted settings domain then
      .answer true
    else if isEmailBlacklisted settings address || isDomainBlacklisted settings domain then
      .answer false
    else .counts

inductive Point where
  | returned (allowed : Bool)
  | raised
  /-- Before the commit of a new row. -/
  | inserting
  /-- Before the commit of this count. -/
  | updating (count : ℕ)
  deriving DecidableEq, Repr

structure Call where
  address : Text
  point : Point
  deriving DecidableEq, Repr

/-- The table `blacklist_adhoc` and the calls since it was cleared. -/
structure Adhoc where
  counts : Text → Option ℕ
  calls : List Call

namespace Adhoc

def cleared : Adhoc := ⟨fun _ => none, []⟩

inductive Action where
  /-- A process calls `check_and_add`, up to its query. -/
  | query (address : Text)
  /-- The call with this number commits. -/
  | commit (i : ℕ)

/-- The row of the address, as the call finds it. -/
def found (limit : ℕ) : Option ℕ → Point
  | none => .inserting
  | some count => if count < limit then .updating (count + 1) else .returned false

def queried (s : Adhoc) (address : Text) : Point :=
  match verdict settings address with
  | .raises => .raised
  | .answer allowed => .returned allowed
  | .counts => found settings.blacklistDailyLimit (s.counts (hashAddr settings address))

def step (s : Adhoc) : Action → Option Adhoc
  | .query address => some { s with calls := s.calls ++ [⟨address, queried settings s address⟩] }
  | .commit i =>
    match s.calls[i]? with
    | some ⟨address, .inserting⟩ =>
      let hash := hashAddr settings address
      match s.counts hash with
      -- The `IntegrityError` of a second row with the key.
      | some _ => some { s with calls := s.calls.set i ⟨address, .returned false⟩ }
      | none => some ⟨Function.update s.counts hash (some 1),
          s.calls.set i ⟨address, .returned true⟩⟩
    | some ⟨address, .updating count⟩ =>
      some ⟨Function.update s.counts (hashAddr settings address) (some count),
        s.calls.set i ⟨address, .returned true⟩⟩
    | _ => none

/-- The calls for the address, in whatever letter case, that returned `True`. -/
def allowed (s : Adhoc) (address : Text) : ℕ :=
  s.calls.countP fun call => lower call.address = lower address ∧ call.point = .returned true

end Adhoc

end Psiphon.Responder
