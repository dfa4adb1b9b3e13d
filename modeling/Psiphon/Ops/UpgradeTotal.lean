import Mathlib.Tactic.IntervalCases
import Psiphon.Ops.UpgradeSlots

/-!
# Upgrading from every version

Step `0.10` gives old servers today's capabilities, which lack the key that step `0.11` moves; step
`0.20` leaves out the hosts that wait for their removal.
-/

namespace Psiphon.Ops.Upgrade

open List

/-! ### Versions of the schema -/

/-- The version that added the attribute; 0 when no step did. -/
def Attribute.since : Attribute → ℕ
  | clientVersions | deployBuildsRequiredForCampaigns | linodeApiKey => 0
  | providerRanks | elastichostsAccounts => 1
  | speedTestUrls => 5
  | remoteServerListSigningKeyPair => 7
  | feedbackEncryptionKeyPair => 12
  | feedbackUploadInfo => 14
  | upgradePackageSigningKeyPair => 17
  | defaultEmailAutoresponderAccount => 18
  | deployWebsiteRequiredForSponsors => 22
  | automationBucket => 23
  | digitaloceanAccount => 24
  | discoveryStrategyValueHmacKey => 26
  | androidHomeTabUrlExclusions => 28
  | alternateMeekFrontingAddresses => 29
  | routesSigningKeyPair => 30
  | alternateMeekFrontingAddressesRegex => 33
  | meekFrontingDisableSNI => 35
  | vpsnetAccount => 36
  | linodeTcsBaseRootPassword | linodeTcsBaseHostPublicKey | tcsTrafficRulesSet
  | tcsPsiphondConfigValues => 37
  | tcsOslConfig => 38
  | defaultSponsorId => 39
  | deployPaveOslsRequiredForPropagationChannels => 42
  | alternateS3BucketDomains => 45

def Collection.since : Collection → ℕ
  | deletedHosts | deletedServers => 9
  | hostsToRemoveFromProviders => 19
  | _ => 0

def Field.since : Field → ℕ
  | sshObfuscatedPort | sshObfuscatedKey => 2
  | provider => 3
  | pageViewRegexes | httpsRequestRegexes => 4
  | newDiscoveryServersCount | newPropagationServersCount | maxDiscoveryServerAgeInDays
  | maxPropagationServerAgeInDays => 6
  | datacenterName => 9
  | internalIpAddress => 10
  | languages => 13
  | isPermanent => 15
  | customDownloadSite => 16
  | region => 20
  | propagatorManagedUpgrades => 21
  | websiteBanner | websiteBannerLink => 22
  | alternateSshObfuscatedPorts => 25
  | meekServerPort | meekServerObfuscatedKey | meekServerFrontingDomain | meekServerFrontingHost
  | meekCookieEncryptionPublicKey | meekCookieEncryptionPrivateKey => 26
  | mobileHomePages => 27
  | platforms => 31
  | useDataFromSponsorId => 32
  | alternateMeekServerFrontingHosts => 35
  | isTCS | tcsSshPrivateKey => 37
  | alternateS3BucketName => 41
  | oslIds | oslDiscoveryDateRange => 43
  | tcsType => 44
  | _ => 0

def CapabilityKey.since : CapabilityKey → ℕ
  | handshake | vpn | ssh | sshPlus => 10
  | ossh => 11
  | frontedMeek | unfrontedMeek => 26
  | sshApiRequests => 37
  | unfrontedMeekSessionTicket => 40

/-- The keys that capabilities of the version have. The key `SSH+` of version `0.10` is not
among them: whether the servers have it is part of the question. -/
def keysAt (v : ℕ) : List CapabilityKey := copiedKeys.filter fun key => key.since ≤ v

/-- A database with exactly the attributes, collections and fields of version `v`, and without
a Linode API key. -/
structure AtVersion (v : ℕ) (db : Database) : Prop where
  version_eq : db.version = v
  le : v ≤ classVersion
  attributes : ∀ a, (db.attributes a).isSome ↔ a.since ≤ v
  collections : ∀ c, (db.records c).isSome ↔ c.since ≤ v
  fields : ∀ c entries, db.records c = some entries → ∀ e ∈ entries, ∀ f ∈ c.fields,
    (e.fields f).isSome ↔ f.since ≤ v
  capabilities : ∀ c entries, c.holdsServers = true → db.records c = some entries →
    ∀ e ∈ entries, e.capabilities.isSome ↔ 10 ≤ v
  keys : ∀ c, c.holdsServers = true → HasKeys db c (keysAt v)
  keyEmpty : KeyEmpty db

/-- A database in which nothing of the current schema is missing. -/
structure Current (db : Database) : Prop where
  version_eq : db.version = classVersion
  attributes : ∀ a, (db.attributes a).isSome
  fields : ∀ c, ∃ entries, db.records c = some entries ∧
    ∀ e ∈ entries, ∀ f ∈ c.fields, (e.fields f).isSome
  capabilities : ∀ c entries, c.holdsServers = true → db.records c = some entries →
    ∀ e ∈ entries, e.capabilities.isSome
  keys : ∀ c, c.holdsServers = true → HasKeys db c copiedKeys

def Slot.valid : Slot → Bool
  | name _ | collection _ => true
  | field c f => f ∈ c.fields
  | capabilities c => c.holdsServers

/-- The region of a host that waits for its removal: the field that step `0.20` forgets. -/
def forgotten : Slot := .field .hostsToRemoveFromProviders .region

/-- The step that assigns the slot. The forgotten one is set when its collection is created. -/
def Slot.due : Slot → ℕ
  | name a => a.since
  | collection c => c.since
  | field .hostsToRemoveFromProviders .region => 19
  | field c f => max c.since f.since
  | capabilities c => max c.since 10

theorem eq_of_holdsServers {c : Collection} (h : c.holdsServers = true) :
    c = .servers ∨ c = .deletedServers := by
  simpa [Collection.holdsServers] using h

/-! ### Lists of statements -/

variable {s : Statement}

section Statements

variable {env : Env} {db db' : Database}

def runAll (env : Env) (statements : List Statement) (db : Database) : Py Database :=
  statements.foldlM (fun db statement => statement.run env db) db

variable {l : List Statement}

theorem runAll_cons_eq_ok_iff :
    runAll env (s :: l) db = .ok db' ↔
      ∃ mid, s.run env db = .ok mid ∧ runAll env l mid = .ok db' := by
  rw [runAll,foldlM_cons,bind_eq_ok_iff]
  rfl

def SparesKey (l : List Statement) : Prop := ∀ s ∈ l, s.assigns (.name .linodeApiKey) = false

theorem SparesKey.head (h : SparesKey (s :: l)) : s.assigns (.name .linodeApiKey) = false :=
  h s (.head _)

theorem SparesKey.tail (h : SparesKey (s :: l)) : SparesKey l :=
  fun t ht => h t (mem_cons_of_mem s ht)

theorem keyEmpty_runAll (hsp : SparesKey l) (hk : KeyEmpty db) (h : runAll env l db = .ok db') :
    KeyEmpty db' := by
  induction l generalizing db with
  | nil => cases h; exact hk
  | cons s l ih =>
    obtain ⟨mid,hs,hl⟩ := runAll_cons_eq_ok_iff.mp h
    exact ih hsp.tail (keyEmpty_run hk hs hsp.head) hl

theorem present_runAll_iff (hsp : SparesKey l) (hk : KeyEmpty db)
    (h : runAll env l db = .ok db') (slot : Slot) :
    Present db' slot ↔ (∃ s ∈ l, s.assigns slot = true) ∨ Present db slot := by
  induction l generalizing db with
  | nil => cases h; simp
  | cons s l ih =>
    obtain ⟨mid,hs,hl⟩ := runAll_cons_eq_ok_iff.mp h
    rw [ih hsp.tail (keyEmpty_run hk hs hsp.head) hl,present_run_iff hk hs]
    simp only [mem_cons,exists_eq_or_imp]
    rw [or_left_comm,or_assoc]

def Statement.renames : Statement → Bool
  | .forEach _ _ .renameSshPlus => true
  | _ => false

theorem runAll_ok (hsp : SparesKey l) (hk : KeyEmpty db)
    (hn : ∀ s ∈ l, ∀ slot ∈ s.needs, Present db slot) (hp : ∀ s ∈ l, s.renames = false) :
    ∃ db', runAll env l db = .ok db' := by
  induction l generalizing db with
  | nil => exact ⟨db,rfl⟩
  | cons s l ih =>
    obtain ⟨mid,hs⟩ : ∃ mid, s.run env db = .ok mid :=
      run_ok hk (hn s (.head _)) fun c body hr => by
        have := hp s (.head _)
        subst hr
        cases this
    obtain ⟨db',hl⟩ := ih hsp.tail (keyEmpty_run hk hs hsp.head)
      (fun t ht slot hsl => (present_run_iff hk hs slot).mpr
        (.inr (hn t (mem_cons_of_mem s ht) slot hsl)))
      fun t ht => hp t (mem_cons_of_mem s ht)
    exact ⟨db',runAll_cons_eq_ok_iff.mpr ⟨mid,hs,hl⟩⟩

theorem size_runAll (hsp : SparesKey l) (hk : KeyEmpty db) (h : runAll env l db = .ok db')
    {c : Collection} (hc : ∀ s ∈ l, s.assigns (.collection c) = false) :
    size db' c = size db c := by
  induction l generalizing db with
  | nil => cases h; rfl
  | cons s l ih =>
    obtain ⟨mid,hs,hl⟩ := runAll_cons_eq_ok_iff.mp h
    rw [ih hsp.tail (keyEmpty_run hk hs hsp.head) hl
      fun t ht => hc t (mem_cons_of_mem s ht),size_run hk hs,
      if_neg (by simp [hc s mem_cons_self])]

def Unpopulated (db : Database) (c : Collection) : Prop := size db c = none ∨ size db c = some 0

theorem unpopulated_runAll (hsp : SparesKey l) (hk : KeyEmpty db)
    (h : runAll env l db = .ok db') {c : Collection} (hc : Unpopulated db c) :
    Unpopulated db' c := by
  induction l generalizing db with
  | nil => cases h; exact hc
  | cons s l ih =>
    obtain ⟨mid,hs,hl⟩ := runAll_cons_eq_ok_iff.mp h
    refine ih hsp.tail (keyEmpty_run hk hs hsp.head) hl ?_
    rw [Unpopulated,size_run hk hs]
    split
    · exact .inr rfl
    · exact hc

theorem hasKeys_runAll (hsp : SparesKey l) (hkey : KeyEmpty db) (h : runAll env l db = .ok db')
    {c : Collection} {keys : List CapabilityKey} (hk : HasKeys db c keys)
    (hsh : .handshake ∈ keys) (hp : .sshPlus ∉ keys) (ha : ∀ s ∈ l, .sshPlus ∉ s.addsKeys c) :
    HasKeys db' c (keys ++ l.flatMap fun s => s.addsKeys c) := by
  induction l generalizing db keys with
  | nil => cases h; simpa using hk
  | cons s l ih =>
    obtain ⟨mid,hs,hl⟩ := runAll_cons_eq_ok_iff.mp h
    rw [flatMap_cons,← append_assoc]
    refine ih hsp.tail (keyEmpty_run hkey hs hsp.head) hl
      (hasKeys_run hkey hs hk hsh hp) (mem_append_left _ hsh) ?_
      fun t ht => ha t (mem_cons_of_mem s ht)
    rw [mem_append,not_or]
    exact ⟨hp,ha s (.head _)⟩

end Statements

/-! ### What the steps are checked for -/

variable {n : ℕ}

section Steps

variable (env : Env)

/-- No statement of the step assigns the API key, adds the key `SSH+` or needs a slot that an
earlier step has not set. -/
def stepChecked (n : ℕ) : Bool :=
  (statements env n).all fun s => !s.assigns (.name .linodeApiKey) &&
    s.needs.all (fun slot => slot.valid && decide (slot.due < n)) &&
    !(s.addsKeys .servers).contains .sshPlus && !(s.addsKeys .deletedServers).contains .sshPlus

theorem stepChecked_eq_true (hpos : 0 < n) (hn : n ≤ classVersion) : stepChecked env n = true := by
  unfold classVersion at hn
  interval_cases n <;> rfl

theorem attribute_assigned (a : Attribute) :
    a.since = 0 ∨ (statements env a.since).any (fun s => s.assigns (.name a)) = true := by
  cases a <;> first | exact .inl rfl | exact .inr rfl

theorem collection_assigned (c : Collection) :
    c.since = 0 ∨ (statements env c.since).any (fun s => s.assigns (.collection c)) = true := by
  cases c <;> first | exact .inl rfl | exact .inr rfl

theorem field_assigned (c : Collection) : (c.fields.all fun f => (Slot.field c f).due == 0 ||
      (statements env (Slot.field c f).due).any (fun s => s.assigns (.field c f))) = true := by
  cases c <;> rfl

theorem sparesKey_statements (hp : 0 < n) (hn : n ≤ classVersion) :
    SparesKey (statements env n) := by
  intro s hs
  have := all_eq_true.mp (stepChecked_eq_true env hp hn) s hs
  simp only [Bool.and_eq_true,Bool.not_eq_true'] at this
  exact this.1.1.1

theorem needs_statements (hp : 0 < n) (hn : n ≤ classVersion) (hs : s ∈ statements env n)
    {slot : Slot} (hsl : slot ∈ s.needs) : slot.valid = true ∧ slot.due < n := by
  have := all_eq_true.mp (stepChecked_eq_true env hp hn) s hs
  simp only [Bool.and_eq_true,all_eq_true,decide_eq_true_eq] at this
  exact this.1.1.2 slot hsl

theorem sshPlus_not_mem_addsKeys (hp : 0 < n) (hn : n ≤ classVersion) (hs : s ∈ statements env n)
    {c : Collection} (hc : c.holdsServers = true) : .sshPlus ∉ s.addsKeys c := by
  have := all_eq_true.mp (stepChecked_eq_true env hp hn) s hs
  simp only [Bool.and_eq_true,Bool.not_eq_true',contains_eq_mem,decide_eq_false_iff_not] at this
  rcases eq_of_holdsServers hc with rfl | rfl
  · exact this.1.2
  · exact this.2

/-- The only step that renames a key is `0.11`. -/
theorem renames_statements (hpos : 0 < n) (hn : n ≤ classVersion) (h11 : n ≠ 11) :
    (statements env n).all (fun s => !s.renames) = true := by
  unfold classVersion at hn
  interval_cases n <;> first | rfl | exact absurd rfl h11

/-- Every slot of the current schema is assigned by the step in which it is due. -/
theorem assigned_when_due {slot : Slot} (hv : slot.valid = true) (hd : slot.due ≠ 0) :
    ∃ s ∈ statements env slot.due, s.assigns slot = true := by
  rw [← any_eq_true]
  cases slot with
  | name a => exact (attribute_assigned env a).resolve_left hd
  | collection c => exact (collection_assigned env c).resolve_left hd
  | field c f =>
    have := all_eq_true.mp (field_assigned env c) f (by simpa [Slot.valid] using hv)
    rw [Bool.or_eq_true,beq_iff_eq] at this
    exact this.resolve_left hd
  | capabilities c => rcases eq_of_holdsServers hv with rfl | rfl <;> rfl

/-- From version `0.10` on, every step adds the keys of its version. -/
theorem keysAt_succ (h10 : 10 ≤ n) (hn : n < classVersion) {c : Collection}
    (hc : c.holdsServers = true) : ((keysAt (n + 1)).all fun key => (keysAt n).contains key ||
      ((statements env (n + 1)).flatMap fun s => s.addsKeys c).contains key) = true := by
  unfold classVersion at hn
  rcases eq_of_holdsServers hc with rfl | rfl <;> interval_cases n <;> rfl

end Steps

/-! ### One step -/

section Step

variable {env : Env} {db db' : Database}

theorem upgradeTo_eq_ok_iff (hv : db.version < n) : upgradeTo env n db = .ok db' ↔
      ∃ mid, runAll env (statements env n) db = .ok mid ∧ db' = { mid with version := n } := by
  rw [upgradeTo,if_pos hv,bind_eq_ok_iff]
  simp only [pure_eq_ok,Except.ok.injEq,eq_comm (a := db')]
  rfl

theorem upgradeSteps_of_le (h : n ≤ db.version) : upgradeSteps env n db = .ok db := by
  induction n with
  | zero => rfl
  | succ n ih =>
    rw [upgradeSteps,ih (by omega),ok_bind,upgradeTo,if_neg (by omega)]
    rfl

def AllHaveSshPlus (db : Database) (c : Collection) : Prop :=
  ∀ entries, db.records c = some entries → ∀ e ∈ entries, HasSshPlus e.capabilities

variable {entries : List Entry}

theorem Unpopulated.eq_nil {c : Collection} (h : Unpopulated db c)
    (he : db.records c = some entries) : entries = [] := by
  rcases h with h | h
  · simp [size,he] at h
  · simpa [size,he] using h

/-- What holds between two steps of an upgrade that succeeds. -/
structure Inv (n : ℕ) (db : Database) : Prop where
  version_eq : db.version = n
  keyEmpty : KeyEmpty db
  present : ∀ slot : Slot, slot.valid = true → slot.due ≤ n → Present db slot
  servers : (∀ c : Collection, c.holdsServers = true → Unpopulated db c) ∨
    (10 ≤ n ∧ (n = 10 → ∀ c : Collection, c.holdsServers = true → AllHaveSshPlus db c) ∧
      ∀ c : Collection, c.holdsServers = true → HasKeys db c (keysAt n))

theorem Inv.allHaveSshPlus (h : Inv 10 db) {c : Collection} (hc : c.holdsServers = true) :
    AllHaveSshPlus db c := by
  rcases h.servers with hem | ⟨-,hp,-⟩
  · intro entries hen e he
    rw [(hem c hc).eq_nil hen] at he
    cases he
  · exact hp rfl c hc

theorem runAll_rename_ok (h : Inv 10 db) : ∃ mid, runAll env (statements env 11) db = .ok mid := by
  have hn : ∀ s ∈ statements env 11, ∀ slot ∈ s.needs, Present db slot := by
    intro s hs slot hsl
    have := needs_statements env (n := 11) (by decide) (by decide) hs hsl
    exact h.present slot this.1 (by omega)
  obtain ⟨mid,hmid⟩ :
      ∃ mid, (Statement.forEach .servers [] .renameSshPlus).run env db = .ok mid := by
    refine run_ok h.keyEmpty (hn _ (.head _)) ?_
    intro c body hr
    cases hr
    exact h.allHaveSshPlus rfl
  have hkey := keyEmpty_run h.keyEmpty hmid rfl
  obtain ⟨db',hdb'⟩ : ∃ db',
      (Statement.forEach .deletedServers [] .renameSshPlus).run env mid = .ok db' := by
    refine run_ok hkey (fun slot hsl => ?_) ?_
    · exact (present_run_iff h.keyEmpty hmid slot).mpr (.inr (hn _ (by simp [statements]) slot hsl))
    · intro c body hr
      cases hr
      -- the first loop is over another collection
      obtain ⟨_,_,_,_,rfl⟩ := run_forEach_eq_ok hmid
      intro entries he
      exact h.allHaveSshPlus rfl entries he
  refine ⟨db',runAll_cons_eq_ok_iff.mpr ⟨mid,hmid,runAll_cons_eq_ok_iff.mpr ⟨db',hdb',rfl⟩⟩⟩

theorem runAll_step_ok (hn : n < classVersion) (h : Inv n db) :
    ∃ mid, runAll env (statements env (n + 1)) db = .ok mid := by
  by_cases h10 : n = 10
  · subst h10
    exact runAll_rename_ok h
  · refine runAll_ok (sparesKey_statements env (by omega) (by omega)) h.keyEmpty ?_ ?_
    · intro s hs slot hsl
      have := needs_statements env (by omega) (by omega) hs hsl
      exact h.present slot this.1 (by omega)
    · intro s hs
      have := all_eq_true.mp (renames_statements env (by omega) (by omega) (by omega)) s hs
      simpa using this

theorem inv_step (hn : n < classVersion) (h : Inv n db) :
    ∃ db', upgradeTo env (n + 1) db = .ok db' ∧ Inv (n + 1) db' := by
  obtain ⟨mid,hmid⟩ := runAll_step_ok hn h
  have hsp := sparesKey_statements env (n := n + 1) (by omega) (by omega)
  have hkey : KeyEmpty mid := keyEmpty_runAll hsp h.keyEmpty hmid
  refine ⟨{ mid with version := n + 1 },
    (upgradeTo_eq_ok_iff (by rw [h.version_eq]; omega)).mpr ⟨mid,hmid,rfl⟩,rfl,hkey,?_,?_⟩
  · intro slot hv hdue
    show Present mid slot
    rw [present_runAll_iff hsp h.keyEmpty hmid]
    by_cases hnow : slot.due = n + 1
    · exact .inl (hnow ▸ assigned_when_due env hv (by omega))
    · exact .inr (h.present slot hv (by omega))
  · rcases h.servers with hem | ⟨h10,-,hk⟩
    · exact .inl fun c hc => unpopulated_runAll hsp h.keyEmpty hmid (hem c hc)
    · refine .inr ⟨by omega,fun h9 => absurd h9 (by omega),fun c hc => ?_⟩
      have hall : HasKeys mid c _ := hasKeys_runAll hsp h.keyEmpty hmid (hk c hc)
        (mem_filter.mpr ⟨by decide,decide_eq_true h10⟩)
        (fun hmem => absurd (mem_filter.mp hmem).1 (by decide))
        fun s hs => sshPlus_not_mem_addsKeys env (by omega) (by omega) hs hc
      intro entries hen e he d hd key hkey
      have hst := all_eq_true.mp (keysAt_succ env h10 hn hc) key hkey
      simp only [Bool.or_eq_true,contains_iff_mem] at hst
      exact hall entries hen e he d hd key (mem_append.mpr hst)

theorem inv_upgradeSteps {v n : ℕ} (h : Inv v db) (hv : v ≤ n) (hn : n ≤ classVersion) :
    ∃ db', upgradeSteps env n db = .ok db' ∧ Inv n db' := by
  induction n, hv using Nat.le_induction with
  | base => exact ⟨db,upgradeSteps_of_le h.version_eq.ge,h⟩
  | succ n hle ih =>
    obtain ⟨mid,hm,hi⟩ := ih (by omega)
    obtain ⟨db',hdb',hi'⟩ : ∃ db', upgradeTo env (n + 1) mid = .ok db' ∧ Inv (n + 1) db' :=
      inv_step (by omega) hi
    exact ⟨db',by rw [upgradeSteps,hm,ok_bind,hdb'],hi'⟩

theorem Inv.current (h : Inv classVersion db) : Current db := by
  have hp : ∀ slot : Slot, slot.valid = true → slot.due ≤ classVersion → Present db slot :=
    h.present
  refine ⟨h.version_eq,fun a => ?_,fun c => ?_,fun c entries hc hen e he => ?_,fun c hc => ?_⟩
  · exact hp (.name a) rfl (by cases a <;> decide)
  · obtain ⟨entries,hen⟩ := Option.isSome_iff_exists.mp
      (hp (.collection c) rfl (by cases c <;> decide))
    refine ⟨entries,hen,fun e he f hf => ?_⟩
    have hd : (Slot.field c f).due ≤ classVersion := by
      revert f
      cases c <;> decide
    obtain ⟨entries',hen',ha⟩ := hp (.field c f) (by simpa [Slot.valid] using hf) hd
    obtain rfl : entries' = entries := by simpa [hen] using hen'.symm
    exact ha e he
  · obtain ⟨entries',hen',ha⟩ := hp (.capabilities c) hc (by cases c <;> decide)
    obtain rfl : entries' = entries := by simpa [hen] using hen'.symm
    exact ha e he
  · rcases h.servers with hem | ⟨-,-,hk⟩
    · intro entries hen e he
      rw [(hem c hc).eq_nil hen] at he
      cases he
    · exact hk c hc

/-! ### Upgrades that fail -/

/-- A property of a successful upgrade between its steps. -/
theorem upgradeSteps_induction {P : ℕ → Database → Prop} {v n : ℕ} (hve : db.version = v)
    (hkey : KeyEmpty db) (hv : v ≤ n) (hn : n ≤ classVersion) (h₀ : P v db)
    (hst : ∀ m mid mid', v ≤ m → m < n → KeyEmpty mid → P m mid →
      runAll env (statements env (m + 1)) mid = .ok mid' → P (m + 1) { mid' with version := m + 1 })
    (h : upgradeSteps env n db = .ok db') : db'.version = n ∧ KeyEmpty db' ∧ P n db' := by
  induction n, hv using Nat.le_induction generalizing db' with
  | base =>
    rw [upgradeSteps_of_le hve.ge] at h
    cases h
    exact ⟨hve,hkey,h₀⟩
  | succ n hle ih =>
    rw [upgradeSteps,bind_eq_ok_iff] at h
    obtain ⟨mid,hmid,h⟩ := h
    obtain ⟨hver,hkey',hP⟩ := ih (by omega)
      (fun m mid mid' hm hmn => hst m mid mid' hm (by omega)) hmid
    obtain ⟨mid',hrun,rfl⟩ := (upgradeTo_eq_ok_iff (by omega)).mp h
    have hs := sparesKey_statements env (n := n + 1) (by omega) hn
    have hkey'' : KeyEmpty mid' := keyEmpty_runAll hs hkey' hrun
    exact ⟨rfl,hkey'',hst n mid mid' hle (by omega) hkey' hP hrun⟩

/-- After step `0.19` nothing assigns the forgotten field. -/
theorem forgotten_not_assigned (env : Env) (h20 : 20 ≤ n) (hn : n ≤ classVersion) :
    (statements env n).all (fun s => !s.assigns forgotten) = true := by
  unfold classVersion at hn
  interval_cases n <;> rfl

/-- No step creates the collection of servers, and only step `0.9` that of deleted servers. -/
theorem servers_not_created (env : Env) (hpos : 0 < n) (hn : n ≤ classVersion) {c : Collection}
    (hc : c.holdsServers = true) (h9 : c = .servers ∨ n ≠ 9) :
    ∀ s ∈ statements env n, s.assigns (.collection c) = false := by
  have hall : (statements env n).all (fun s => !s.assigns (.collection c)) = true := by
    unfold classVersion at hn
    rcases eq_of_holdsServers hc with rfl | rfl
    · interval_cases n <;> rfl
    · have h9 : n ≠ 9 := h9.resolve_left (by decide)
      interval_cases n <;> first | rfl | exact absurd rfl h9
  intro s hs
  simpa using all_eq_true.mp hall s hs

/-- A host that waits for its removal since version `0.19` never gets a region. -/
theorem present_forgotten_of_upgrade (hv : db.version = 19) (hkey : KeyEmpty db)
    (h : upgrade env db = .ok db') (hp : Present db' forgotten) : Present db forgotten := by
  refine (upgradeSteps_induction (P := fun _ d => Present d forgotten → Present db forgotten)
    hv hkey (by decide) le_rfl id ?_ h).2.2 hp
  intro m mid mid' hm hmn hk hP hr hmid'
  have hsp := sparesKey_statements env (n := m + 1) (by omega) (by omega)
  rcases (present_runAll_iff hsp hk hr forgotten).mp hmid' with ⟨s,hs,ha⟩ | hmid
  · have := all_eq_true.mp (forgotten_not_assigned env (n := m + 1) (by omega) (by omega)) s hs
    simp [ha] at this
  · exact hP hmid

theorem allHaveSshPlus_of_run {c : Collection}
    (h : (Statement.forEach c [] .renameSshPlus).run env db = .ok db') : AllHaveSshPlus db c := by
  obtain ⟨entries,entries',hen,hr,-⟩ := run_forEach_eq_ok h
  intro entries'' hen'' e he
  obtain rfl : entries = entries'' := by simpa [hen] using hen''
  clear hen hen'' h
  induction hr with
  | nil => cases he
  | cons hrun _ ih =>
    rcases mem_cons.mp he with rfl | he
    · exact run_renameSshPlus_ok_iff.mp ⟨_,(entryRun_eq_ok hrun).2⟩
    · exact ih he

theorem no_sshPlus_of_run {c : Collection} {body : List (Records.Assignment Field Value)}
    (h : (Statement.forEach c body .create).run env db = .ok db')
    (hen : db'.records c = some entries) {e : Entry} (he : e ∈ entries) :
    ¬ HasSshPlus e.capabilities := by
  obtain ⟨old,new,-,hr,rfl⟩ := run_forEach_eq_ok h
  rw [setRecords_same] at hen
  cases hen
  obtain ⟨e₀,-,hrun⟩ := exists_of_forall₂_mem hr he
  have hc := (entryRun_eq_ok hrun).2
  rintro ⟨d,hd,hp⟩
  rw [hd] at hc
  cases hc
  cases hp

theorem upgradeSteps_shorter {m n : ℕ} (hmn : m ≤ n) (h : upgradeSteps env n db = .ok db') :
    ∃ mid, upgradeSteps env m db = .ok mid := by
  induction n, hmn using Nat.le_induction generalizing db' with
  | base => exact ⟨db',h⟩
  | succ n _ ih =>
    rw [upgradeSteps,bind_eq_ok_iff] at h
    obtain ⟨mid,hm,-⟩ := h
    exact ih hm

/-- When step `0.11` is behind an upgrade, both kinds of servers had the key before it. -/
theorem allHaveSshPlus_of_rename (h : runAll env (statements env 11) db = .ok db')
    {c : Collection} (hc : c.holdsServers = true) : AllHaveSshPlus db c := by
  obtain ⟨mid,hs,h⟩ := runAll_cons_eq_ok_iff.mp h
  obtain ⟨mid',hd,-⟩ := runAll_cons_eq_ok_iff.mp h
  rcases eq_of_holdsServers hc with rfl | rfl
  · exact allHaveSshPlus_of_run hs
  · have := allHaveSshPlus_of_run hd
    obtain ⟨_,_,_,_,rfl⟩ := run_forEach_eq_ok hs
    intro entries hentries
    exact this entries (by rwa [setRecords_of_ne (by decide)])

theorem no_sshPlus_of_create (h : runAll env (statements env 10) db = .ok db') {c : Collection}
    (hc : c.holdsServers = true) (hen : db'.records c = some entries) {e : Entry}
    (he : e ∈ entries) : ¬ HasSshPlus e.capabilities := by
  obtain ⟨mid,hs,h⟩ := runAll_cons_eq_ok_iff.mp h
  obtain ⟨mid',hd,hn⟩ := runAll_cons_eq_ok_iff.mp h
  cases hn
  rcases eq_of_holdsServers hc with rfl | rfl
  · obtain ⟨_,_,_,_,rfl⟩ := run_forEach_eq_ok hd
    exact no_sshPlus_of_run hs hen he
  · exact no_sshPlus_of_run hd hen he

end Step

/-! ### The condition -/

/-- Before version `0.11` every server still has the key `SSH+`, which only servers of version
`0.10` can have; and at version `0.19` no host waits for its removal. -/
structure Upgradable (v : ℕ) (db : Database) : Prop where
  servers : v ≤ 10 → ∀ c : Collection, c.holdsServers = true → ∀ entries,
    db.records c = some entries → ∀ e ∈ entries, v = 10 ∧ HasSshPlus e.capabilities
  hosts : v = 19 → db.records .hostsToRemoveFromProviders = some []

section Condition

variable {env : Env} {db db' : Database} {v : ℕ}

theorem due_field {c : Collection} {f : Field} (h : .field c f ≠ forgotten) :
    (Slot.field c f).due = max c.since f.since := by
  unfold Slot.due
  split <;> simp_all [forgotten]

theorem AtVersion.inv (h : AtVersion v db) (hup : Upgradable v db) : Inv v db := by
  refine ⟨h.version_eq,h.keyEmpty,?_,?_⟩
  · intro slot hva hdue
    cases slot with
    | name a => exact (h.attributes a).mpr hdue
    | collection c => exact (h.collections c).mpr hdue
    | field c f =>
      have hf : f ∈ c.fields := by simpa [Slot.valid] using hva
      by_cases hfo : .field c f = forgotten
      · cases hfo
        have h19 : 19 ≤ v := hdue
        rcases h19.eq_or_lt with h19 | h20
        · exact ⟨[],hup.hosts h19.symm,by simp⟩
        · obtain ⟨entries,hen⟩ := Option.isSome_iff_exists.mp
            ((h.collections .hostsToRemoveFromProviders).mpr h19)
          exact ⟨entries,hen,fun e he => (h.fields _ entries hen e he _ hf).mpr h20⟩
      · rw [due_field hfo] at hdue
        obtain ⟨entries,hen⟩ := Option.isSome_iff_exists.mp
          ((h.collections c).mpr (le_trans (le_max_left _ _) hdue))
        exact ⟨entries,hen,fun e he =>
          (h.fields c entries hen e he f hf).mpr (le_trans (le_max_right _ _) hdue)⟩
    | capabilities c =>
      obtain ⟨entries,hen⟩ := Option.isSome_iff_exists.mp
        ((h.collections c).mpr (le_trans (le_max_left _ _) hdue))
      exact ⟨entries,hen,fun e he =>
        (h.capabilities c entries hva hen e he).mpr (le_trans (le_max_right _ _) hdue)⟩
  · by_cases h10 : 10 ≤ v
    · exact .inr ⟨h10,fun hv c hc entries hen e he =>
        (hup.servers hv.le c hc entries hen e he).2,h.keys⟩
    · refine .inl fun c hc => ?_
      cases hen : db.records c with
      | none => exact .inl (by simp [size,hen])
      | some entries =>
        have hnil : entries = [] := by
          refine eq_nil_iff_forall_not_mem.mpr fun e he => ?_
          have := (hup.servers (by omega) c hc entries hen e he).1
          omega
        exact .inr (by simp [size,hen,hnil])

/-- An upgrade from a version before `0.10` meets no servers. -/
theorem unpopulated_of_upgrade (h : AtVersion v db) (hv : v ≤ 9) (hup : upgrade env db = .ok db')
    {c : Collection} (hc : c.holdsServers = true) : Unpopulated db c := by
  by_cases hsi : c.since ≤ v
  case neg =>
    have hn : db.records c = none := by
      simpa using mt (h.collections c).mp hsi
    exact .inl (by simp [size,hn])
  obtain ⟨db₁₁,h₁₁⟩ := upgradeSteps_shorter (m := 11) (by decide) hup
  rw [upgradeSteps,bind_eq_ok_iff] at h₁₁
  obtain ⟨db₁₀,h₁₀,h₁₁⟩ := h₁₁
  have h₁₀' := h₁₀
  rw [upgradeSteps,bind_eq_ok_iff] at h₁₀'
  obtain ⟨db₉,h₉,h₁₀'⟩ := h₁₀'
  -- no step before `0.10` changes the number of servers
  obtain ⟨hver₉,hkey₉,hsize⟩ := upgradeSteps_induction (P := fun _ d => size d c = size db c)
    h.version_eq h.keyEmpty hv (by decide) rfl
    (fun m mid mid' hm hmn hkey hP hrun => by
      have hs := sparesKey_statements env (n := m + 1) (by omega) (by simp [classVersion]; omega)
      have hcr : c = .servers ∨ m + 1 ≠ 9 := by
        rcases eq_of_holdsServers hc with rfl | rfl
        · exact .inl rfl
        · have : 9 ≤ v := hsi
          exact .inr (by omega)
      exact (size_runAll hs hkey hrun (servers_not_created env (by omega)
        (by simp [classVersion]; omega) hc hcr)).trans hP) h₉
  obtain ⟨mid₁₀,hrun₁₀,rfl⟩ := (upgradeTo_eq_ok_iff (by omega)).mp h₁₀'
  obtain ⟨mid₁₁,hrun₁₁,-⟩ := (upgradeTo_eq_ok_iff (by simp)).mp h₁₁
  have hs₁₀ := sparesKey_statements env (n := 10) (by decide) (by decide)
  have hsize₁₀ : size mid₁₀ c = size db₉ c :=
    size_runAll hs₁₀ hkey₉ hrun₁₀
      (servers_not_created env (by decide) (by decide) hc (.inr (by decide)))
  rw [Unpopulated,← hsize,← hsize₁₀]
  cases hen : mid₁₀.records c with
  | none => exact .inl (by simp [size,hen])
  | some entries =>
    have hnil : entries = [] := eq_nil_iff_forall_not_mem.mpr fun e he =>
      no_sshPlus_of_create hrun₁₀ hc hen he (allHaveSshPlus_of_rename hrun₁₁ hc entries hen e he)
    exact .inr (by simp [size,hen,hnil])

theorem upgradable_of_upgrade (h : AtVersion v db) (hup : upgrade env db = .ok db')
    (hcu : Current db') : Upgradable v db := by
  refine ⟨fun hv c hc entries hen e he => ?_,fun hv => ?_⟩
  · rcases hv.lt_or_eq with hv | rfl
    · have := (unpopulated_of_upgrade h (by omega) hup hc).eq_nil hen
      rw [this] at he
      cases he
    · obtain ⟨db₁₁,h₁₁⟩ := upgradeSteps_shorter (m := 11) (by decide) hup
      rw [upgradeSteps,upgradeSteps_of_le h.version_eq.ge,ok_bind] at h₁₁
      obtain ⟨mid,hr,-⟩ := (upgradeTo_eq_ok_iff (by rw [h.version_eq]; decide)).mp h₁₁
      exact ⟨rfl,allHaveSshPlus_of_rename hr hc entries hen e he⟩
  · subst hv
    have hp : Present db' forgotten := by
      obtain ⟨entries,hen,ha⟩ := hcu.fields .hostsToRemoveFromProviders
      exact ⟨entries,hen,fun e he => ha e he .region (by decide)⟩
    obtain ⟨entries,hen,ha⟩ :=
      present_forgotten_of_upgrade h.version_eq h.keyEmpty hup hp
    -- a record of the version has no region, so there is no record
    have hn : entries = [] := eq_nil_iff_forall_not_mem.mpr fun e he =>
      absurd ((h.fields _ entries hen e he .region (by decide)).mp (ha e he)) (by decide)
    rw [hen,hn]

/-- From a database of any version, `upgrade` reaches the current schema, where it does nothing
more, exactly when the database is upgradable. -/
theorem upgrade_total_iff (h : AtVersion v db) (env : Env) :
    (∃ db', upgrade env db = .ok db' ∧ Current db' ∧ ∀ env', upgrade env' db' = .ok db') ↔
      Upgradable v db := by
  constructor
  · rintro ⟨db',hup,hc,-⟩
    exact upgradable_of_upgrade h hup hc
  · intro hup
    obtain ⟨db',hdb',hi⟩ : ∃ db', upgradeSteps env classVersion db = .ok db' ∧
        Inv classVersion db' := inv_upgradeSteps (h.inv hup) h.le le_rfl
    exact ⟨db',hdb',hi.current,fun env' => upgradeSteps_of_le hi.version_eq.ge⟩

end Condition

/-! ### Databases of a version -/

def plainFields (c : Collection) (v : ℕ) : Records.Record Field Value := fun f =>
  if f ∈ c.fields ∧ f.since ≤ v then some .none else none

def plainDatabase (v : ℕ) (records : Collection → List Entry) : Database where
  version := v
  attributes := fun a => if a.since ≤ v then some .none else none
  records := fun c => if c.since ≤ v then some (records c) else none

theorem plainDatabase_atVersion {v : ℕ} {r : Collection → List Entry} (hv : v ≤ classVersion)
    (hfi : ∀ c, ∀ e ∈ r c, e.fields = plainFields c v)
    (hca : ∀ c, c.holdsServers = true → ∀ e ∈ r c, (e.capabilities.isSome ↔ 10 ≤ v) ∧
      ∀ d, e.capabilities = some (some d) → ∀ key ∈ keysAt v, (d key).isSome) :
    AtVersion v (plainDatabase v r) := by
  have hr : ∀ c entries, (plainDatabase v r).records c = some entries → entries = r c := by
    intro c entries h
    simp only [plainDatabase,Option.ite_none_right_eq_some,Option.some.injEq] at h
    exact h.2.symm
  refine ⟨rfl,hv,fun a => ?_,fun c => ?_,fun c entries h e he f hf => ?_,
    fun c entries hc h e he => ?_,fun c hc entries h e he => ?_,⟨.none,rfl,rfl⟩⟩
  · by_cases ha : a.since ≤ v <;> simp [plainDatabase,ha]
  · by_cases hc : c.since ≤ v <;> simp [plainDatabase,hc]
  · rw [hr c entries h] at he
    rw [hfi c e he]
    by_cases hs : f.since ≤ v <;> simp [plainFields,hf,hs]
  · rw [hr c entries h] at he
    exact (hca c hc e he).1
  · rw [hr c entries h] at he
    exact (hca c hc e he).2

def oneServer (v : ℕ) (capabilities : CapabilitiesField) : Collection → List Entry
  | .servers => [⟨plainFields .servers v, capabilities⟩]
  | _ => []

theorem oneServer_atVersion {v : ℕ} {capabilities : CapabilitiesField} (hv : v ≤ classVersion)
    (hs : capabilities.isSome ↔ 10 ≤ v)
    (hk : ∀ d, capabilities = some (some d) → ∀ key ∈ keysAt v, (d key).isSome) :
    AtVersion v (plainDatabase v (oneServer v capabilities)) := by
  refine plainDatabase_atVersion hv (fun c e he => ?_) fun c hc e he => ?_
  · cases c <;> simp only [oneServer,mem_singleton,not_mem_nil] at he
    rw [he]
  · rcases eq_of_holdsServers hc with rfl | rfl
    · simp only [oneServer,mem_singleton] at he
      rw [he]
      exact ⟨hs,hk⟩
    · cases he

def idleEnv : Env := ⟨"key", fun _ => none, .error .external⟩

def capabilitiesAt11 : CapabilityDict := fun key => if key ∈ keysAt 11 then some true else none

theorem upgrade_total_from_11 :
    ∃ db', upgrade idleEnv (plainDatabase 11 (oneServer 11 (some (some capabilitiesAt11)))) =
      .ok db' ∧
      Current db' ∧ ∀ env', upgrade env' db' = .ok db' := by
  have hat : AtVersion 11 (plainDatabase 11 (oneServer 11 (some (some capabilitiesAt11)))) := by
    refine oneServer_atVersion (by decide) (by decide) fun d hd key hk => ?_
    cases hd
    simp [capabilitiesAt11,hk]
  exact (upgrade_total_iff hat idleEnv).mpr
    ⟨fun h => absurd h (by decide),fun h => absurd h (by decide)⟩

def oneHostToRemove (v : ℕ) : Collection → List Entry
  | .hostsToRemoveFromProviders => [⟨plainFields .hostsToRemoveFromProviders v, none⟩]
  | _ => []

/-- A server of version `0.9` makes the upgrade fail with a `KeyError`; a host that waits for its
removal at version `0.19` ends without a region. -/
theorem upgrade_fails_from_9_and_19 :
    (AtVersion 9 (plainDatabase 9 (oneServer 9 none)) ∧
      upgrade idleEnv (plainDatabase 9 (oneServer 9 none)) = .error .keyError) ∧
    (AtVersion 19 (plainDatabase 19 (oneHostToRemove 19)) ∧
      ∀ db', upgrade idleEnv (plainDatabase 19 (oneHostToRemove 19)) = .ok db' →
        ¬ Current db') := by
  have h19 : AtVersion 19 (plainDatabase 19 (oneHostToRemove 19)) := by
    refine plainDatabase_atVersion (by decide) (fun c e he => ?_) fun c hc e he => ?_
    · cases c <;> simp only [oneHostToRemove,mem_singleton,not_mem_nil] at he
      rw [he]
    · rcases eq_of_holdsServers hc with rfl | rfl <;> cases he
  refine ⟨⟨oneServer_atVersion (by decide) (by decide) nofun,rfl⟩,h19,fun db' hup hcu => ?_⟩
  have hn := (upgradable_of_upgrade h19 hup hcu).hosts rfl
  simp [plainDatabase,Collection.since,oneHostToRemove] at hn

end Psiphon.Ops.Upgrade
