import Psiphon.Client.UserSettings

/-!
# What the settings are after they were saved

The credentials of the upstream proxy through their packed text, and `FromJson` as a whole.
-/

namespace Psiphon.Client.Settings

open List Cut Hoare
open Json (Bytes ascii)

variable {parse : Bytes → Option JsonValue} {writes : Name → Bool} {text : Bytes} {store : Store}
  {json : JsonValue} {username password domain hostname : Bytes}

/-! ### The packed text -/

/-- The getters return the parts of the packed text. -/
def Unpacks (username password domain hostname : Bytes) : Prop :=
  let text := authenticatedHostname username password domain hostname
  usernameOf text = username ∧ passwordOf text = password ∧ domainOf text = domain ∧
    hostnameOf text = hostname

/-- The separators do not occur before their places. Without a domain there is no place for a
backslash. -/
def Separable (username password domain hostname : Bytes) : Prop :=
  (atSign ∉ domain ∧ atSign ∉ username ∧ atSign ∉ password) ∧ (colon ∉ domain ∧ colon ∉ username) ∧
    (domain ≠ [] → backslash ∉ domain) ∧
    (domain = [] → backslash ∉ username ∧ backslash ∉ password ∧ backslash ∉ hostname)

instance Separable.decidable : Decidable (Separable username password domain hostname) :=
  inferInstanceAs (Decidable (_ ∧ _))

section Packed

variable {name : Bytes}

theorem hostnameOf_eq_iff {c : Bytes} :
    hostnameOf (c ++ atSign :: hostname) = hostname ↔ atSign ∉ c := by
  obtain ⟨before,rest,hc,hr⟩ := exists_cut_append atSign c hostname
  rw [← hr,hostnameOf,hc]

theorem passwordOf_eq_iff (hat : atSign ∉ name ++ colon :: password) :
    passwordOf (name ++ colon :: password ++ atSign :: hostname) = password ↔ colon ∉ name := by
  obtain ⟨before,rest,hc,hr⟩ := exists_cut_append colon name password
  rw [← hr,passwordOf,cut_append hat]
  simp only [hc]

theorem usernameOf_eq (hat : atSign ∉ name ++ colon :: password) (hc : colon ∉ name) :
    usernameOf (name ++ colon :: password ++ atSign :: hostname) = withoutDomain name := by
  rw [usernameOf,cut_append hat]
  simp only [cut_append hc]

theorem cut_rest_eq_self_iff {sep : UInt8} : ((cut sep name).elim name Prod.snd) = name ↔
    sep ∉ name := by
  rw [← cut_eq_none_iff]
  cases hc : cut sep name with
  | none => simp
  | some p =>
    obtain ⟨-,heq⟩ := cut_eq_some_iff.mp hc
    refine iff_of_false (fun hr => ?_) (by simp)
    have hl := congrArg List.length (heq.symm.trans hr.symm)
    simp only [length_append,length_cons,Option.elim_some] at hl
    omega

theorem withoutDomain_eq_self_iff : withoutDomain name = name ↔ backslash ∉ name := by
  rw [← cut_rest_eq_self_iff,withoutDomain]
  cases cut backslash name <;> rfl

theorem hostnameOf_eq_self_iff : hostnameOf name = name ↔ atSign ∉ name := by
  rw [← cut_rest_eq_self_iff,hostnameOf]
  cases cut atSign name <;> rfl

theorem domainOf_eq_iff (hd : backslash ∉ domain) : domainOf name = domain ↔
    (domain = [] ∧ backslash ∉ name) ∨ ∃ rest, name = domain ++ backslash :: rest := by
  rw [domainOf]
  cases hc : cut backslash name with
  | none =>
    have hn := cut_eq_none_iff.mp hc
    have hx : ¬ ∃ rest, name = domain ++ backslash :: rest := by
      rintro ⟨rest,rfl⟩
      simp at hn
    simp [hn,hx,eq_comm]
  | some parts =>
    obtain ⟨hb,rfl⟩ := cut_eq_some_iff.mp hc
    simp only [mem_append,mem_cons,true_or,or_true,not_true_eq_false,and_false,false_or]
    constructor
    · rintro rfl
      exact ⟨_,rfl⟩
    · rintro ⟨rest,hr⟩
      have hcut := cut_append hd rest
      rw [← hr,hc] at hcut
      rw [Option.some.inj hcut]

theorem withoutDomain_eq_iff :
    withoutDomain (domain ++ backslash :: username) = username ↔ backslash ∉ domain := by
  obtain ⟨before,rest,hc,hr⟩ := exists_cut_append backslash domain username
  rw [← hr,withoutDomain,hc]

theorem domainOf_eq_nil_iff (hne : name ≠ []) (hn : backslash ∉ name) {rest : Bytes} :
    domainOf (name ++ rest) = [] ↔ backslash ∉ rest := by
  rw [domainOf,cut_append_of_notMem hn]
  cases hc : cut backslash rest with
  | none => simpa using cut_eq_none_iff.mp hc
  | some parts =>
    refine iff_of_false (by simp [hne]) fun hnot => ?_
    rw [cut_eq_none_iff.mpr hnot] at hc
    cases hc

theorem unpacks_iff (hu : username ≠ []) (hp : password ≠ []) :
    Unpacks username password domain hostname ↔ Separable username password domain hostname := by
  have hl : username.length > 0 ∧ password.length > 0 :=
    ⟨length_pos_of_ne_nil hu,length_pos_of_ne_nil hp⟩
  have hcol : atSign ≠ colon := by decide
  have hco : backslash ≠ colon := by decide
  have hatB : backslash ≠ atSign := by decide
  rw [Unpacks,authenticatedHostname,if_pos hl]
  by_cases hd : domain = []
  · subst hd
    simp only [length_nil,gt_iff_lt,lt_irrefl,if_false,hostnameOf_eq_iff]
    constructor
    · rintro ⟨hus,hpa,hdo,hat⟩
      have hcolon := (passwordOf_eq_iff hat).mp hpa
      rw [usernameOf_eq hat hcolon,withoutDomain_eq_self_iff] at hus
      rw [append_assoc,domainOf_eq_nil_iff hu hus] at hdo
      simp only [mem_append,mem_cons,not_or] at hat hdo
      exact ⟨⟨not_mem_nil,hat.1,hat.2.2⟩,⟨not_mem_nil,hcolon⟩,absurd rfl,
        fun _ => ⟨hus,hdo.1.2,hdo.2.2⟩⟩
    · rintro ⟨⟨-,hatU,ha⟩,⟨-,hcolon⟩,-,hback⟩
      obtain ⟨hb,hba,hbac⟩ := hback rfl
      have hat : atSign ∉ username ++ colon :: password := by simp [hatU,ha,hcol]
      rw [usernameOf_eq hat hcolon,withoutDomain_eq_self_iff,passwordOf_eq_iff hat,
        append_assoc,domainOf_eq_nil_iff hu hb]
      exact ⟨hb,hcolon,by simp [hba,hbac,hco,hatB],hat⟩
  · simp only [gt_iff_lt,length_pos_of_ne_nil hd,if_true,hostnameOf_eq_iff]
    have hs : ∀ c, c ≠ backslash → (c ∉ domain ++ backslash :: username ↔
        c ∉ domain ∧ c ∉ username) := by
      intro c hc
      simp [hc]
    constructor
    · rintro ⟨hus,hpa,-,hat⟩
      have hcolon := (passwordOf_eq_iff hat).mp hpa
      rw [usernameOf_eq hat hcolon,withoutDomain_eq_iff] at hus
      rw [hs _ hco.symm] at hcolon
      rw [mem_append,not_or,hs _ hatB.symm,mem_cons,not_or] at hat
      exact ⟨⟨hat.1.1,hat.1.2,hat.2.2⟩,hcolon,fun _ => hus,fun h => absurd h hd⟩
    · rintro ⟨⟨hatD,hatU,ha⟩,hcolon,hback,-⟩
      have hat : atSign ∉ domain ++ backslash :: username ++ colon :: password := by
        rw [mem_append,not_or,hs _ hatB.symm,mem_cons,not_or]
        exact ⟨⟨hatD,hatU⟩,hcol,ha⟩
      have hcolon' := (hs _ hco.symm).mpr hcolon
      rw [usernameOf_eq hat hcolon',withoutDomain_eq_iff,passwordOf_eq_iff hat]
      refine ⟨hback hd,hcolon',?_,hat⟩
      simp only [domainOf,append_assoc,cons_append,cut_append (hback hd)]

end Packed

/-! ### A run of `FromJson` -/

section Run

def okOr {α : Type} (default : α) : Cpp α → α
  | .ok a => a
  | .error _ => default

@[simp] theorem okOr_ok {α : Type} (d a : α) : okOr d (.ok a) = a := rfl

variable (json : JsonValue)

def number (key : String) : UInt32 := okOr 0 (readUInt json key (.int 0))

def string (key : String) : Bytes := okOr [] (readString json key)

def chosenTransport : Bytes :=
  if okOr 0 (readUInt json "VPN" (.bool true)) ≠ 0 then transportVpn else transportDefault

def packed : Bytes :=
  authenticatedHostname (string json "UpstreamProxyUsername") (string json "UpstreamProxyPassword")
    (string json "UpstreamProxyDomain") (string json "UpstreamProxyHostname")

def writtenValue : Name → RegistryValue
  | .splitTunnel => .dword (number json "SplitTunnel")
  | .disableTimeouts => .dword (number json "DisableTimeouts")
  | .transport => .sz (chosenTransport json)
  | .httpProxyPort => .dword (number json "LocalHttpProxyPort")
  | .socksProxyPort => .dword (number json "LocalSocksProxyPort")
  | .egressRegion => .sz (string json "EgressRegion")
  | .skipUpstreamProxy => .dword (number json "SkipUpstreamProxy")
  | .upstreamProxyHostname => .sz (packed json)
  | .upstreamProxyPort => .dword (number json "UpstreamProxyPort")
  | .systrayMinimize => .dword (number json "SystrayMinimize")

/-- What is given for a setting can be converted. -/
def reads (name : Name) : Bool := (given json name).isOk

/-- The store after some settings were saved. -/
def storedAt (writes : Name → Bool) (store : Store) (names : List Name) (name : Name) :
    Option RegistryValue :=
  if name ∈ names ∧ writes name = true then some (writtenValue json name) else store name

variable {json} {name : Name} {names : List Name}

theorem bind_pure_of_isOk {α : Type} {read : Cpp α} {f : α → RegistryValue} (d : α)
    (h : (read >>= fun a => pure (f a) : Cpp RegistryValue).isOk = true) :
    (read >>= fun a => pure (f a) : Cpp RegistryValue) = .ok (f (okOr d read)) := by
  cases read with
  | ok a => rfl
  | error e => cases h

@[simp] theorem written_of_ne {name o : Name} (h : o ≠ name) (value : RegistryValue) :
    written writes store name value o = store o := by
  rw [written]
  split
  · exact Function.update_of_ne h ..
  · rfl

@[simp] theorem written_self (name : Name) (value : RegistryValue) :
    written writes store name value name = if writes name then some value else store name := by
  cases hwrites : writes name <;> simp [written,hwrites]

theorem given_of_reads (h : reads json name = true) :
    given json name = .ok (writtenValue json name) := by
  cases name with
  | upstreamProxyHostname =>
    rw [reads,given] at h
    rw [given,writtenValue,packed,string,string,string,string]
    cases hu : readString json "UpstreamProxyUsername" with
    | error e => rw [hu] at h; cases h
    | ok username =>
      cases hp : readString json "UpstreamProxyPassword" with
      | error e => rw [hu,hp] at h; cases h
      | ok password =>
        cases hd : readString json "UpstreamProxyDomain" with
        | error e => rw [hu,hp,hd] at h; cases h
        | ok domain =>
          rw [hu,hp,hd] at h
          exact bind_pure_of_isOk [] h
  | egressRegion => exact bind_pure_of_isOk [] h
  | _ => exact bind_pure_of_isOk 0 h

theorem save_of_reads (h : reads json name = true) (s : Saving) :
    save writes json name s = .ok () ⟨written writes s.store name (writtenValue json name),
      s.changed || differs s.store name (writtenValue json name)⟩ := by
  rw [save,given_of_reads h]
  rfl

theorem save_of_not_reads (h : reads json name = false) (s : Saving) :
    ∃ e, save writes json name s = .error e s := by
  rw [reads] at h
  rw [save]
  cases hg : given json name with
  | ok value => rw [hg] at h; cases h
  | error e => exact ⟨e,rfl⟩

theorem storedAt_nil (store : Store) : storedAt json writes store [] = store := by
  funext name
  simp [storedAt]

theorem storedAt_cons (hn : name ∉ names) (store : Store) :
    storedAt json writes (written writes store name (writtenValue json name)) names =
      storedAt json writes store (name :: names) := by
  funext other
  by_cases ho : other = name
  · subst ho
    simp [storedAt,hn]
  · simp [storedAt,ho]

/-- A comparison depends on the setting alone. -/
theorem differs_congr {store' : Store} (h : store name = store' name) (value : RegistryValue) :
    differs store name value = differs store' name value := by
  have hn (d) : getSettingDword store name d = getSettingDword store' name d := by
    rw [getSettingDword,getSettingDword,h]
  have hs (d) : getSettingString store name d = getSettingString store' name d := by
    rw [getSettingString,getSettingString,h]
  cases name <;> cases value <;>
    simp only [differs,splitTunnel,disableTimeouts,transport,localHttpProxyPort,localSocksProxyPort,
      upstreamProxyAuthenticatedHostname,upstreamProxyPort,skipUpstreamProxy,egressRegion,flag,port,
      hn,hs]

theorem any_differs_written (hn : name ∉ names) (value : RegistryValue) :
    (names.any fun n => differs (written writes store name value) n (writtenValue json n)) =
      names.any fun n => differs store n (writtenValue json n) := by
  rw [Bool.eq_iff_iff,any_eq_true,any_eq_true]
  refine exists_congr fun n => and_congr_right fun hmem => ?_
  rw [differs_congr (written_of_ne ?_ value)]
  rintro rfl
  exact hn hmem

theorem forM_save_of_reads (hd : names.Nodup) (h : ∀ name ∈ names, reads json name = true)
    (s : Saving) : names.forM (save writes json) s = .ok () ⟨storedAt json writes s.store names,
      s.changed || names.any fun name => differs s.store name (writtenValue json name)⟩ := by
  induction names generalizing s with
  | nil => simp [storedAt_nil,pure,EStateM.pure]
  | cons name names ih =>
    rw [forall_mem_cons] at h
    rw [nodup_cons] at hd
    refine bind_eq_ok_iff.mpr ⟨_,_,save_of_reads h.1 s,?_⟩
    rw [ih hd.2 h.2,storedAt_cons hd.1,any_differs_written hd.1,any_cons,Bool.or_assoc]

variable (writes) in
/-- What comes before the first setting that cannot be read is written. -/
theorem forM_save_of_not_reads (hd : names.Nodup) (h : ∃ name ∈ names, reads json name = false)
    (s : Saving) : ∃ e changed, names.forM (save writes json) s =
      .error e ⟨storedAt json writes s.store (names.takeWhile (reads json)), changed⟩ := by
  induction names generalizing s with
  | nil => simp at h
  | cons name names ih =>
    rw [nodup_cons] at hd
    cases hr : reads json name with
    | false =>
      obtain ⟨e,he⟩ := save_of_not_reads hr s
      rw [takeWhile_cons_of_neg (by simp [hr])]
      exact ⟨e,s.changed,bind_of_error (by rwa [storedAt_nil])⟩
    | true =>
      have hrest : ∃ n ∈ names, reads json n = false := by simpa [hr] using h
      obtain ⟨e,changed,he⟩ := ih hd.2 hrest ⟨written writes s.store name (writtenValue json name),
        s.changed || differs s.store name (writtenValue json name)⟩
      rw [storedAt_cons fun hm => hd.1 (takeWhile_subset _ hm)] at he
      rw [takeWhile_cons_of_pos hr]
      exact ⟨e,changed,(bind_of_ok (save_of_reads hr s)).trans he⟩

variable (json) in
def stored (writes : Name → Bool) (store : Store) : Store := storedAt json writes store saveOrder

variable (json) in
def differsAny (store : Store) : Bool :=
  saveOrder.any fun name => differs store name (writtenValue json name)

theorem nodup_saveOrder : saveOrder.Nodup := by decide

theorem mem_saveOrder (name : Name) : name ∈ saveOrder := by cases name <;> decide

theorem fromJson_of_reads (hp : parse text = some json) (h : ∀ name, reads json name = true) :
    fromJson parse writes text store = ⟨stored json writes store,true,differsAny json store⟩ := by
  rw [fromJson,hp]
  simp only [saveAll,forM_save_of_reads nodup_saveOrder fun name _ => h name]
  rfl

theorem fromJson_of_not_reads (hp : parse text = some json)
    (h : ¬ ∀ name, reads json name = true) : fromJson parse writes text store =
      ⟨storedAt json writes store (saveOrder.takeWhile (reads json)),false,false⟩ := by
  obtain ⟨name,hn⟩ := not_forall.mp h
  obtain ⟨e,changed,he⟩ := forM_save_of_not_reads writes nodup_saveOrder
    ⟨name,mem_saveOrder name,Bool.eq_false_iff.mpr hn⟩ ⟨store,false⟩
  rw [fromJson,hp]
  simp only [saveAll,he]

/-- `FromJson` succeeds exactly when every value can be converted. -/
theorem fromJson_success_iff (hp : parse text = some json) :
    (fromJson parse writes text store).success = true ↔ ∀ name, reads json name = true := by
  by_cases h : ∀ name, reads json name = true
  · simp [fromJson_of_reads hp h,h]
  · simp [fromJson_of_not_reads hp h,h]

end Run

/-! ### The credentials of the upstream proxy -/

theorem asUInt_ofFlag (b : Bool) : (ofFlag b).asUInt = .ok (if b then 1 else 0) := by
  cases b <;> rfl

theorem asString_str (text : Bytes) : JsonValue.asString (.str text) = .ok text := rfl

theorem asUInt_ofPort (port : UInt32) : (ofPort port).asUInt = .ok port := by
  have hb : (0 : ℤ) ≤ port.toNat ∧ (port.toNat : ℤ) < 2 ^ 32 := by
    have := port.toNat_lt
    omega
  rw [ofPort,JsonValue.asUInt,if_pos hb,Int.toNat_natCast,UInt32.ofNat_toNat]
  rfl

theorem reads_toJson (store : Store) (name : Name) : reads (toJson store) name = true := by
  have hp : readUInt (toJson store) "LocalHttpProxyPort" (.int 0) = .ok (localHttpProxyPort store) ∧
      readUInt (toJson store) "LocalSocksProxyPort" (.int 0) = .ok (localSocksProxyPort store) ∧
      readUInt (toJson store) "UpstreamProxyPort" (.int 0) = .ok (upstreamProxyPort store) := by
    simp [readUInt,toJson,JsonValue.get,lookup_cons,asUInt_ofPort]
  have hg : ∃ value, given (toJson store) name = .ok value := by
    cases name
    case httpProxyPort | socksProxyPort | upstreamProxyPort =>
      simp [given,hp,Fallible.pure_eq_ok]
    all_goals
      simp [given,readUInt,readString,toJson,JsonValue.get,lookup_cons,asUInt_ofFlag,asString_str,
        Fallible.pure_eq_ok]
  obtain ⟨value,hg⟩ := hg
  rw [reads,hg]
  rfl

theorem packed_toJson (store : Store) : packed (toJson store) =
    authenticatedHostname (upstreamProxyUsername store) (upstreamProxyPassword store)
      (upstreamProxyDomain store) (upstreamProxyHostname store) := by
  simp [packed,string,readString,toJson,JsonValue.get,lookup_cons,asString_str]

theorem transport_eq_or (store : Store) :
    transport store = transportVpn ∨ transport store = transportDefault := by
  unfold transport
  dsimp only
  split
  · exact .inr rfl
  · next h => exact .inl (not_not.mp h)

theorem differs_toJson (h : packed (toJson store) = upstreamProxyAuthenticatedHostname store) :
    differsAny (toJson store) store = false := by
  have ht : chosenTransport (toJson store) = transport store := by
    have hne : transportDefault ≠ transportVpn := by decide
    rcases transport_eq_or store with heq | heq <;>
      simp [chosenTransport,readUInt,toJson,JsonValue.get,lookup_cons,asUInt_ofFlag,heq,hne]
  refine any_eq_false.mpr fun name _ => Bool.not_eq_true _ ▸ ?_
  cases name
  case transport => simp [differs,writtenValue,ht]
  case upstreamProxyHostname => simp [differs,writtenValue,h]
  all_goals
    simp [differs,writtenValue,number,string,readUInt,readString,toJson,JsonValue.get,lookup_cons,
      asUInt_ofFlag,asUInt_ofPort,asString_str]

structure GivesCredentials (json : JsonValue) (username password domain hostname : Bytes) :
    Prop where
  username : readString json "UpstreamProxyUsername" = .ok username
  password : readString json "UpstreamProxyPassword" = .ok password
  domain : readString json "UpstreamProxyDomain" = .ok domain
  hostname : readString json "UpstreamProxyHostname" = .ok hostname

/-- The getters return the credentials, and saving what `ToJson` reports changes nothing. -/
def CredentialsKept (parse : Bytes → Option JsonValue) (writes : Name → Bool) (store : Store)
    (username password domain hostname : Bytes) : Prop :=
  (upstreamProxyUsername store = username ∧ upstreamProxyPassword store = password ∧
    upstreamProxyDomain store = domain ∧ upstreamProxyHostname store = hostname) ∧
  ∀ text, parse text = some (toJson store) →
    let saved := fromJson parse writes text store
    saved.success = true ∧ saved.reconnectRequired = false ∧
      upstreamProxyAuthenticatedHostname saved.store = upstreamProxyAuthenticatedHostname store

theorem authenticatedHostname_stored (json : JsonValue) (store : Store)
    (h : writes .upstreamProxyHostname = true) :
    upstreamProxyAuthenticatedHostname (stored json writes store) = packed json := by
  simp [upstreamProxyAuthenticatedHostname,getSettingString,stored,storedAt,mem_saveOrder,
    writtenValue,h]

/-- Credentials that were saved are kept exactly if they can be told apart in the packed text. -/
theorem credentials_kept_iff_separable (hu : username ≠ []) (hp : password ≠ [])
    (hwrite : writes .upstreamProxyHostname = true) (hparse : parse text = some json)
    (hgives : GivesCredentials json username password domain hostname)
    (hsuccess : (fromJson parse writes text store).success = true) :
    CredentialsKept parse writes (fromJson parse writes text store).store username password domain
      hostname ↔ Separable username password domain hostname := by
  rw [fromJson_of_reads hparse ((fromJson_success_iff hparse).mp hsuccess),
    ← unpacks_iff hu hp]
  have hs := authenticatedHostname_stored json store hwrite
  simp only [packed,string,hgives.username,hgives.password,hgives.domain,hgives.hostname,
    okOr_ok] at hs
  generalize stored json writes store = s at hs
  rw [CredentialsKept,Unpacks,upstreamProxyUsername,upstreamProxyPassword,upstreamProxyDomain,
    upstreamProxyHostname,hs]
  refine ⟨fun h => h.1,fun h => ⟨h,fun again ha => ?_⟩⟩
  obtain ⟨hus,hpas,hd,hh⟩ := h
  have hpa : packed (toJson s) = upstreamProxyAuthenticatedHostname s := by
    rw [packed_toJson,upstreamProxyUsername,upstreamProxyPassword,upstreamProxyDomain,
      upstreamProxyHostname,hs,hus,hpas,hd,hh]
  rw [fromJson_of_reads ha (reads_toJson s)]
  exact ⟨rfl,differs_toJson hpa, (authenticatedHostname_stored _ s hwrite).trans (hpa.trans hs)⟩

def credentialsJson (username password domain hostname : String) : JsonValue := .obj [
  ("UpstreamProxyUsername", .str (ascii username)),
  ("UpstreamProxyPassword", .str (ascii password)),
  ("UpstreamProxyDomain", .str (ascii domain)),
  ("UpstreamProxyHostname", .str (ascii hostname))]

def allWritten : Name → Bool := fun _ => true

def noSettings : Store := fun _ => none

/-- The settings after the text was saved that has no byte, and what `ToJson` then makes of them. -/
def savedWith (json : JsonValue) : Store :=
  (fromJson (fun _ => some json) allWritten [] noSettings).store

/-- The empty text stands for the credentials, and any other for what `ToJson` reports. -/
def readerOf (json : JsonValue) (text : Bytes) : Option JsonValue :=
  if text = [] then some json else some (toJson (savedWith json))

theorem credentials_kept_with_domain :
    CredentialsKept (readerOf (credentialsJson "user" "a:b" "corp" "proxy")) allWritten
      (savedWith (credentialsJson "user" "a:b" "corp" "proxy"))
      (ascii "user") (ascii "a:b") (ascii "corp") (ascii "proxy") := by
  have hs : Separable (ascii "user") (ascii "a:b") (ascii "corp") (ascii "proxy") := by
    decide +kernel
  exact (@credentials_kept_iff_separable (readerOf _) allWritten [] noSettings _ _ _ _ _
    (by decide) (by decide) rfl rfl ⟨rfl,rfl,rfl,rfl⟩ (by decide +kernel)).mpr hs

/-- A user name that has the domain in it comes back without it. -/
theorem credentials_split_at_backslash :
    let saved := fromJson (fun _ => some (credentialsJson "corp\\user" "secret" "" "proxy"))
      allWritten [] noSettings
    saved.success = true ∧ upstreamProxyUsername saved.store = ascii "user" ∧
      upstreamProxyDomain saved.store = ascii "corp" := by
  decide +kernel

/-! ### All settings -/

/-- What the getters return, apart from the one for which no reconnect is needed. -/
structure Getters where
  splitTunnel : Bool
  disableTimeouts : Bool
  transport : Bytes
  localHttpProxyPort : UInt32
  localSocksProxyPort : UInt32
  upstreamProxyUsername : Bytes
  upstreamProxyPassword : Bytes
  upstreamProxyDomain : Bytes
  upstreamProxyHostname : Bytes
  upstreamProxyPort : UInt32
  skipUpstreamProxy : Bool
  egressRegion : Bytes
  deriving DecidableEq

def getters (s : Store) : Getters :=
  ⟨splitTunnel s, disableTimeouts s, transport s, localHttpProxyPort s, localSocksProxyPort s,
    upstreamProxyUsername s, upstreamProxyPassword s, upstreamProxyDomain s,
    upstreamProxyHostname s, upstreamProxyPort s, skipUpstreamProxy s, egressRegion s⟩

section Given

variable (json : JsonValue)

/-- The value that the text gives, or the one that `ToJson` lists under `defaults`. -/
def listed (key : String) : Cpp JsonValue := json.get key ((defaults.lookup key).getD .null)

def listedUInt (key : String) : UInt32 := okOr 0 (listed json key >>= JsonValue.asUInt)

def listedFlag (key : String) : Bool := listedUInt json key ≠ 0

/-- A number that is no port counts as the default. -/
def listedPort (key : String) : UInt32 :=
  if listedUInt json key > maxPort then 0 else listedUInt json key

def listedString (key : String) : Bytes := okOr [] (listed json key >>= JsonValue.asString)

/-- What the getters should return after the text was saved. -/
def listedGetters : Getters where
  splitTunnel := listedFlag json "SplitTunnel"
  disableTimeouts := listedFlag json "DisableTimeouts"
  transport := if listedFlag json "VPN" then transportVpn else transportDefault
  localHttpProxyPort := listedPort json "LocalHttpProxyPort"
  localSocksProxyPort := listedPort json "LocalSocksProxyPort"
  upstreamProxyUsername := listedString json "UpstreamProxyUsername"
  upstreamProxyPassword := listedString json "UpstreamProxyPassword"
  upstreamProxyDomain := listedString json "UpstreamProxyDomain"
  upstreamProxyHostname := listedString json "UpstreamProxyHostname"
  upstreamProxyPort := listedPort json "UpstreamProxyPort"
  skipUpstreamProxy := listedFlag json "SkipUpstreamProxy"
  egressRegion := listedString json "EgressRegion"

/-- The credentials have none of the separators. -/
def Clean : Prop :=
  ∀ key ∈ ["UpstreamProxyUsername", "UpstreamProxyPassword", "UpstreamProxyDomain"],
    atSign ∉ string json key ∧ colon ∉ string json key ∧ backslash ∉ string json key

end Given

/-- Saving is all or nothing, and reports changes exactly. -/
def SavesExactly (parse : Bytes → Option JsonValue) (writes : Name → Bool) (text : Bytes)
    (store : Store) : Prop :=
  let saved := fromJson parse writes text store
  (saved.success = false → saved.store = store) ∧
    ∀ json, parse text = some json → saved.success = true → (∀ name, writes name = true) →
      Clean json → getters saved.store = listedGetters json ∧
        (saved.reconnectRequired = true ↔ getters saved.store ≠ getters store)

/-- Credentials without separators can be read back: a user name and a password, or neither and a
host name that can stand alone. -/
def ReadBack (username password domain hostname : Bytes) : Prop :=
  (username ≠ [] ∧ password ≠ [] ∧ (domain = [] → backslash ∉ hostname)) ∨
    (username = [] ∧ password = [] ∧ atSign ∉ hostname ∧
      ((domain = [] ∧ backslash ∉ hostname) ∨ ∃ rest, hostname = domain ++ backslash :: rest))

/-- The transport is named and the credentials can be read back. Where all getters return the given
values already, the ports are ports and the stored text is the packed one. -/
structure Exact (store : Store) (json : JsonValue) : Prop where
  vpn : ∃ members value, json = .obj members ∧ members.lookup "VPN" = some value
  credentials : ReadBack (string json "UpstreamProxyUsername") (string json "UpstreamProxyPassword")
    (string json "UpstreamProxyDomain") (string json "UpstreamProxyHostname")
  unchanged : getters store = listedGetters json →
    (∀ key ∈ ["LocalHttpProxyPort", "LocalSocksProxyPort", "UpstreamProxyPort"],
      number json key ≤ maxPort) ∧
    packed json = upstreamProxyAuthenticatedHostname store

theorem unpacks_iff_readBack (hu : atSign ∉ username ∧ colon ∉ username ∧ backslash ∉ username)
    (hp : atSign ∉ password ∧ colon ∉ password ∧ backslash ∉ password)
    (hd : atSign ∉ domain ∧ colon ∉ domain ∧ backslash ∉ domain) :
    Unpacks username password domain hostname ↔ ReadBack username password domain hostname := by
  by_cases hne : username ≠ [] ∧ password ≠ []
  · rw [unpacks_iff hne.1 hne.2,Separable,ReadBack]
    simp [hu,hp,hd,hne]
  · have hl : ¬(username.length > 0 ∧ password.length > 0) := by
      simpa [length_pos_iff] using hne
    rw [Unpacks,ReadBack,authenticatedHostname,if_neg hl,← domainOf_eq_iff hd.2.2,
      hostnameOf_eq_self_iff]
    by_cases hat : atSign ∈ hostname
    · simp [hat]
      tauto
    · have hc := cut_eq_none_iff.mpr hat
      simp only [usernameOf,passwordOf,hc]
      tauto

theorem listedUInt_eq (json : JsonValue) :
    ∀ key ∈ ["SplitTunnel", "DisableTimeouts", "LocalHttpProxyPort", "LocalSocksProxyPort",
      "UpstreamProxyPort", "SkipUpstreamProxy"], listedUInt json key = number json key := by
  simp [listedUInt,number,readUInt,listed,defaults,lookup_cons]

theorem listedString_eq (json : JsonValue) :
    ∀ key ∈ ["UpstreamProxyUsername", "UpstreamProxyPassword", "UpstreamProxyDomain",
      "UpstreamProxyHostname", "EgressRegion"], listedString json key = string json key := by
  simp [listedString,string,readString,listed,defaults,lookup_cons]

section Exact

variable (hreads : ∀ name, reads json name = true)
include hreads

/-- The transport is the listed one exactly when the text names it. -/
theorem chosenTransport_iff :
    chosenTransport json = (if listedFlag json "VPN" then transportVpn else transportDefault) ↔
      ∃ members value, json = .obj members ∧ members.lookup "VPN" = some value := by
  have hr := hreads .transport
  have hne : transportVpn ≠ transportDefault := by decide
  have hdef : (defaults.lookup "VPN").getD .null = .int 0 := by simp [defaults,lookup_cons]
  rw [chosenTransport,listedFlag,listedUInt,listed,hdef,readUInt]
  cases json with
  | null => simp [JsonValue.get,JsonValue.asUInt,Fallible.pure_eq_ok,hne]
  | obj members =>
    cases hl : members.lookup "VPN" with
    | none => simp [JsonValue.get,JsonValue.asUInt,Fallible.pure_eq_ok,hne,hl]
    | some value => simp [JsonValue.get,hl]
  | _ => cases hr

variable (hwrites : ∀ name, writes name = true)
include hwrites

theorem getters_stored_iff : getters (stored json writes store) = listedGetters json ↔
    (∃ members value, json = .obj members ∧ members.lookup "VPN" = some value) ∧
      Unpacks (string json "UpstreamProxyUsername") (string json "UpstreamProxyPassword")
        (string json "UpstreamProxyDomain") (string json "UpstreamProxyHostname") := by
  have ht : transport (stored json writes store) = chosenTransport json := by
    simp only [transport,getSettingString,stored,storedAt,mem_saveOrder,hwrites,true_and,if_true,
      writtenValue,chosenTransport]
    split <;> simp
  have hs := authenticatedHostname_stored json store (hwrites .upstreamProxyHostname)
  rw [← chosenTransport_iff hreads,getters,listedGetters,Getters.mk.injEq,ht]
  simp only [splitTunnel,disableTimeouts,localHttpProxyPort,localSocksProxyPort,
    upstreamProxyUsername,upstreamProxyPassword,upstreamProxyDomain,upstreamProxyHostname,
    upstreamProxyPort,skipUpstreamProxy,egressRegion,flag,port,getSettingDword,getSettingString,
    stored,storedAt,mem_saveOrder,hwrites,true_and,if_true,writtenValue]
  have hn := listedUInt_eq json
  have hst := listedString_eq json
  simp only [forall_mem_cons] at hn hst
  simp only [upstreamProxyAuthenticatedHostname,getSettingString,storedAt,mem_saveOrder,hwrites,
    true_and,if_true,writtenValue,listedFlag,listedPort,hn,hst,Unpacks,packed,and_true]

/-- Where the getters return what is listed, nothing differs exactly when they did so before, for
ports and for the packed text. -/
theorem differsAny_eq_false_iff (h : getters (stored json writes store) = listedGetters json) :
    differsAny json store = false ↔ getters store = listedGetters json ∧
      (∀ key ∈ ["LocalHttpProxyPort", "LocalSocksProxyPort", "UpstreamProxyPort"],
        number json key ≤ maxPort) ∧
      packed json = upstreamProxyAuthenticatedHostname store := by
  obtain ⟨hv,hu,hp,hd,hh⟩ := (getters_stored_iff hreads hwrites).mp h
  rw [← chosenTransport_iff hreads] at hv
  have hn := listedUInt_eq json
  have hst := listedString_eq json
  simp only [forall_mem_cons] at hn hst
  simp only [differsAny,saveOrder,any_cons,any_nil,differs,writtenValue,Bool.or_eq_false_iff,
    bne_eq_false_iff_eq,getters,listedGetters,Getters.mk.injEq,listedFlag,listedPort,hn,hst,
    forall_mem_cons]
  simp only [listedFlag] at hv
  rw [← hv]
  -- a getter never returns a port out of range, so a number that is one of its values is in range
  have hle (name) : port store name ≤ maxPort := by
    unfold port
    dsimp only
    split
    · decide
    · next hm => exact UInt32.not_lt.mp hm
  have hport {p : UInt32} (hm : p ≤ maxPort) : (if p > maxPort then 0 else p) = p :=
    if_neg (UInt32.not_lt.mpr hm)
  constructor
  · rintro ⟨hsplit,htime,htr,hhttp,hsocks,htext,hup,hskip,hregion,-⟩
    have h1 : number json "LocalHttpProxyPort" ≤ maxPort := hhttp ▸ hle _
    have h2 : number json "LocalSocksProxyPort" ≤ maxPort := hsocks ▸ hle _
    have h3 : number json "UpstreamProxyPort" ≤ maxPort := hup ▸ hle _
    rw [hport h1,hport h2,hport h3]
    simp only [upstreamProxyUsername,upstreamProxyPassword,upstreamProxyDomain,
      upstreamProxyHostname,← htext]
    exact ⟨⟨hsplit.symm,htime.symm,htr.symm,hhttp.symm,hsocks.symm,hu,hp,hd,hh,hup.symm,hskip.symm,
      hregion.symm⟩,⟨h1,h2,h3,nofun⟩,trivial⟩
  · rintro ⟨⟨hsplit,htime,htr,hhttp,hsocks,-,-,-,-,hup,hskip,hregion⟩,⟨h1,h2,h3,-⟩,htext⟩
    rw [hport h1] at hhttp
    rw [hport h2] at hsocks
    rw [hport h3] at hup
    exact ⟨hsplit.symm,htime.symm,htr.symm,hhttp.symm,hsocks.symm,htext,hup.symm,hskip.symm,
      hregion.symm,trivial,trivial⟩

end Exact

/-- Saving a text is exact exactly if it is not JSON; or a value cannot be converted, and all
settings before it that can be written have the given values already; or, if all writes succeed and
the credentials have no separators, transport, ports and credentials are such that it is exact. -/
theorem settings_saved_exactly_iff : SavesExactly parse writes text store ↔
    ∀ json, parse text = some json →
      if saveOrder.all (reads json) then
        (∀ name, writes name = true) → Clean json → Exact store json
      else ∀ name ∈ saveOrder.takeWhile (reads json), writes name = true →
        store name = (given json name).toOption := by
  cases hp : parse text with
  | none => simp [SavesExactly,fromJson,hp]
  | some json =>
    simp only [SavesExactly,hp,Option.some.injEq,forall_eq']
    by_cases hall : saveOrder.all (reads json) = true
    -- every value can be converted: `FromJson` returns true, and all of them are saved
    · have hr (name) : reads json name = true := all_eq_true.mp hall name (mem_saveOrder name)
      rw [if_pos hall,fromJson_of_reads hp hr]
      simp only [reduceCtorEq,false_imp_iff,true_and,true_imp_iff]
      refine forall₂_congr fun hw hc => ?_
      have hiff := @unpacks_iff_readBack _ _ _ (string json "UpstreamProxyHostname")
        (hc "UpstreamProxyUsername" (by simp)) (hc "UpstreamProxyPassword" (by simp))
        (hc "UpstreamProxyDomain" (by simp))
      constructor
      · rintro ⟨hg,hch⟩
        obtain ⟨hv,hu⟩ := (getters_stored_iff hr hw).mp hg
        refine ⟨hv,hiff.mp hu,fun heq => ?_⟩
        have hsame : differsAny json store = false :=
          Bool.eq_false_iff.mpr fun hd => hch.mp hd (hg.trans heq.symm)
        exact ((differsAny_eq_false_iff hr hw hg).mp hsame).2
      · rintro ⟨hv,hu,hun⟩
        have hg := (@getters_stored_iff _ store _ hr hw).mpr ⟨hv,hiff.mpr hu⟩
        refine ⟨hg,?_⟩
        rw [hg,← Bool.not_eq_false,ne_comm,ne_eq,not_iff_not,differsAny_eq_false_iff hr hw hg]
        exact ⟨fun h => h.1,fun h => ⟨h,hun h⟩⟩
    -- the first value that cannot be converted ends the loop, after what was saved before it
    · have hr : ¬ ∀ name, reads json name = true := fun h => hall (all_eq_true.mpr fun n _ => h n)
      rw [if_neg hall,fromJson_of_not_reads hp hr]
      simp only [true_imp_iff,reduceCtorEq,false_imp_iff,and_true]
      constructor
      · intro h name hn hw
        have hs := congrFun h name
        rw [storedAt,if_pos ⟨hn,hw⟩] at hs
        rw [← hs,given_of_reads (all_eq_true.mp all_takeWhile name hn)]
        rfl
      · intro h
        funext name
        rw [storedAt]
        split
        · next hn =>
          rw [h name hn.1 hn.2,given_of_reads (all_eq_true.mp all_takeWhile name hn.1)]
          rfl
        · rfl

/-- A value that cannot be converted comes after others that have been written; and a text that does
not name the transport chooses the VPN. -/
theorem settings_saved_in_part :
    let failed := fromJson
      (fun _ => some (.obj [("SplitTunnel", .int 1), ("SystrayMinimize", .str [])]))
      allWritten [] noSettings
    let chosen := fromJson (fun _ => some (.obj [])) allWritten [] noSettings
    (failed.success = false ∧ splitTunnel noSettings = false ∧ splitTunnel failed.store = true) ∧
      chosen.success = true ∧ transport chosen.store = transportVpn := by
  decide +kernel

end Psiphon.Client.Settings
