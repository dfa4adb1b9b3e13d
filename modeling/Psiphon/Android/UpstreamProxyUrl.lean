import Psiphon.Lib.Cut
import Psiphon.Lib.Digits
import Mathlib.Algebra.Group.Int.Defs
import Mathlib.Data.Bool.AllAny
import Mathlib.Data.List.DropRight

/-!
# The URL of the upstream proxy

`getUpstreamProxyUrl` of `UpstreamProxySettings.java` joins the settings without escaping them. A
custom host may be empty and a custom port any number.
-/

namespace Psiphon.Android.UpstreamProxy

open List
open Cut (cut_append)

abbrev Text := List Char

structure ProxySettings where
  proxyHost : Text
  proxyPort : ℤ
  deriving DecidableEq

/-- The proxy of the system: two properties, or before Honeycomb what `android.net.Proxy` says. -/
inductive SystemProxy where
  | properties (host port : Option Text)
  | legacy (host : Option Text) (port : ℤ)

structure Preferences where
  useHTTPProxy : Bool
  useSystemProxySettings : Bool
  useCustomProxySettings : Bool
  customProxyHost : Text
  customProxyPort : Text
  useProxyAuthentication : Bool
  proxyUsername : Text
  proxyPassword : Text
  proxyDomain : Text

structure Configuration where
  preferences : Preferences
  system : SystemProxy
  /-- The proxy when `saveSystemProxySettings` was called, if it was. -/
  saved : Option SystemProxy
  /-- `Character.digit(c, 10)`, which also knows the digits of other scripts -/
  digit : Char → Option ℕ
  /-- `toUpperCase` of the domain in `NTCredentials` -/
  toUpperCase : Text → Text
  toUpperCase_ne_nil : ∀ text, text ≠ [] → toUpperCase text ≠ []

section ParseInt

variable (digit : Char → Option ℕ)

/-- The magnitude of a number, unless a character is no digit. -/
def parseDigits (digits : Text) : Option ℕ :=
  if digits = [] then none
  else (digits.mapM digit).map fun values => values.foldl (fun value d => 10 * value + d) 0

/-- `Integer.parseInt`, unless it throws -/
def parseInt (text : Text) : Option ℤ :=
  let (sign, digits) : ℤ × Text := match text with
    | '-' :: digits => (-1, digits)
    | '+' :: digits => (1, digits)
    | digits => (1, digits)
  (parseDigits digit digits).bind fun value =>
    if -2 ^ 31 ≤ sign * value ∧ sign * value < 2 ^ 31 then some (sign * value) else none

def SystemProxy.host : SystemProxy → Option Text
  | .properties host _ => host
  | .legacy host _ => host

def SystemProxy.port : SystemProxy → ℤ
  | .properties _ port => (port.bind (parseInt digit)).getD 0
  | .legacy _ port => port

def getSystemProxySettings (system : SystemProxy) : Option ProxySettings :=
  system.host.bind fun host =>
    if host = [] ∨ system.port digit ≤ 0 then none else some ⟨host, system.port digit⟩

end ParseInt

namespace Configuration

variable (c : Configuration)

def systemProxy : SystemProxy := c.saved.getD c.system

def getProxySettings : Option ProxySettings :=
  if c.preferences.useHTTPProxy then
    if c.preferences.useSystemProxySettings then getSystemProxySettings c.digit c.systemProxy
    else if c.preferences.useCustomProxySettings then
      some ⟨c.preferences.customProxyHost, (parseInt c.digit c.preferences.customProxyPort).getD 0⟩
    else none
  else none

end Configuration

/-- `NTCredentials`, with the domain in upper case or empty -/
structure Credentials where
  userName : Text
  password : Text
  domain : Text
  deriving DecidableEq

/-- `text.trim().equals("")` -/
def isBlank (text : Text) : Bool := text.all (· ≤ ' ')

def Configuration.getProxyCredentials (c : Configuration) : Option Credentials :=
  let p := c.preferences
  if !p.useProxyAuthentication || isBlank p.proxyUsername || isBlank p.proxyPassword then none
  else some ⟨p.proxyUsername, p.proxyPassword,
    if isBlank p.proxyDomain then [] else c.toUpperCase p.proxyDomain⟩

namespace Credentials

def user (k : Credentials) : Text :=
  if k.domain = [] then k.userName else k.domain ++ '\\' :: k.userName

def text (k : Credentials) : Text := k.user ++ ':' :: k.password

end Credentials

/-- `url.append(port)` -/
def portText (port : ℤ) : Text :=
  if port < 0 then '-' :: Nat.toDigits 10 port.natAbs else Nat.toDigits 10 port.natAbs

def ProxySettings.text (settings : ProxySettings) : Text :=
  settings.proxyHost ++ ':' :: portText settings.proxyPort

/-- The credentials and the sign that ends them. -/
def userinfo : Option Credentials → Text
  | none => []
  | some credentials => credentials.text ++ ['@']

def Configuration.getUpstreamProxyUrl (c : Configuration) : Text :=
  match c.getProxySettings with
  | none => []
  | some settings => "http://".toList ++ userinfo c.getProxyCredentials ++ settings.text

/-! ### Joining and splitting -/

theorem inj_first {a a' b b' : Text} {sep : Char} (ha : sep ∉ a) (ha' : sep ∉ a')
    (h : a ++ sep :: b = a' ++ sep :: b') : a = a' ∧ b = b' := by
  have hc := cut_append ha b
  rw [h,cut_append ha' b'] at hc
  cases hc
  exact ⟨rfl,rfl⟩

theorem inj_last {a a' b b' : Text} {sep : Char} (hb : sep ∉ b) (hb' : sep ∉ b')
    (h : a ++ sep :: b = a' ++ sep :: b') : a = a' ∧ b = b' := by
  have hr := congrArg List.reverse h
  simp only [reverse_append,reverse_cons,append_assoc,singleton_append] at hr
  obtain ⟨hb,ha⟩ := inj_first (by simpa using hb) (by simpa using hb') hr
  exact ⟨reverse_inj.mp ha,reverse_inj.mp hb⟩

theorem notMem_portText {sep : Char} (hs : sep.isDigit = false) (hne : sep ≠ '-') (port : ℤ) :
    sep ∉ portText port := by
  rw [portText]
  split_ifs <;> simp [hne,Digits.notMem_toDigits hs]

theorem portText_injective : Function.Injective portText := by
  intro p q h
  have hd (n : ℕ) : '-' ∉ Nat.toDigits 10 n := Digits.notMem_toDigits rfl n
  simp only [portText] at h
  split_ifs at h with hp hq hq
  · have hdi := Digits.toDigits_injective (List.cons.inj h).2
    omega
  · exact absurd (h ▸ .head _) (hd q.natAbs)
  · exact absurd (h ▸ .head _) (hd p.natAbs)
  · have hdi := Digits.toDigits_injective h
    omega

/-! ### Hosts and ports -/

/-- None of the characters that end the authority of a URL. -/
def Unbroken (text : Text) : Prop := ∀ c ∈ text, c ∉ ['/', '?', '#']

/-- The text is a URL with a host and a port, after credentials or none. -/
def HasHostAndPort (url : Text) : Prop :=
  ∃ userinfo host port, url = "http://".toList ++ userinfo ++ host ++ ':' :: portText port ∧
    (userinfo = [] ∨ userinfo.getLast? = some '@') ∧ Unbroken (userinfo ++ host) ∧
    host ≠ [] ∧ '@' ∉ host ∧ 1 ≤ port ∧ port ≤ 65535

/-- A host is left where the last sign that ends credentials is. -/
def IsHost (text : Text) : Prop := ∃ c, text.getLast? = some c ∧ c ≠ '@'

/-- A proxy that is used has a host and a port in range, and nothing in the settings ends the
authority of the URL before the port. -/
def Configuration.InRange (c : Configuration) : Prop :=
  let used (host : Text) (port : ℤ) : Prop :=
    IsHost host ∧ 1 ≤ port ∧ port ≤ 65535 ∧ Unbroken (userinfo c.getProxyCredentials ++ host)
  c.preferences.useHTTPProxy = true → if c.preferences.useSystemProxySettings then
    ∀ host, c.systemProxy.host = some host → host ≠ [] → 0 < c.systemProxy.port c.digit →
      used host (c.systemProxy.port c.digit)
  else c.preferences.useCustomProxySettings = true →
    ∃ port, parseInt c.digit c.preferences.customProxyPort = some port ∧
      used c.preferences.customProxyHost port

theorem getLast?_userinfo (k : Option Credentials) :
    userinfo k = [] ∨ (userinfo k).getLast? = some '@' := by
  cases k with
  | none => exact .inl rfl
  | some k => exact .inr getLast?_concat

/-- A text is split after its last `@`. -/
theorem exists_split (text : Text) : ∃ before rest, text = before ++ rest ∧
    (before = [] ∨ before.getLast? = some '@') ∧ '@' ∉ rest := by
  refine ⟨text.rdropWhile (· ≠ '@'),text.rtakeWhile (· ≠ '@'),by simp,?_,fun h => ?_⟩
  · by_cases hn : text.rdropWhile (· ≠ '@') = []
    · exact .inl hn
    · have hl := rdropWhile_last_not _ _ hn
      exact .inr ((getLast?_eq_some_getLast hn).trans (congrArg some (by simpa using hl)))
  · simpa using mem_rtakeWhile_imp h

theorem hasHostAndPort_iff (k : Option Credentials) (s : ProxySettings) :
    HasHostAndPort ("http://".toList ++ userinfo k ++ s.text) ↔
      IsHost s.proxyHost ∧ 1 ≤ s.proxyPort ∧ s.proxyPort ≤ 65535 ∧
        Unbroken (userinfo k ++ s.proxyHost) := by
  constructor
  · rintro ⟨before,host,port,h,hb,hu,hn,hat,hl,hm⟩
    simp only [ProxySettings.text,append_assoc,append_cancel_left_eq] at h
    rw [← append_assoc,← append_assoc] at h
    -- the port is what follows the last colon, whatever the credentials are
    obtain ⟨hh,hp⟩ := inj_last (notMem_portText rfl (by decide) _)
      (notMem_portText rfl (by decide) _) h
    cases portText_injective hp
    rw [hh]
    refine ⟨⟨host.getLast hn,?_,?_⟩,hl,hm,hu⟩
    · have hlast := congrArg getLast? hh
      rw [getLast?_append_of_ne_nil _ hn,getLast?_eq_some_getLast hn] at hlast
      rw [← hlast]
      refine (getLast?_append_of_ne_nil _ fun h => ?_).symm
      rw [h,append_nil] at hlast
      rcases getLast?_userinfo k with hk | hk <;> rw [hk] at hlast
      · cases hlast
      · exact hat (Option.some.inj hlast ▸ getLast_mem hn)
    · exact fun hc => hat (hc ▸ getLast_mem hn)
  · rintro ⟨⟨last,hlast,hlne⟩,hl,hm,hu⟩
    -- a parser splits at the last sign, which may stand in the host
    obtain ⟨before,host,hsplit,hb,hat⟩ := exists_split (userinfo k ++ s.proxyHost)
    refine ⟨before,host,s.proxyPort,?_,hb,hsplit ▸ hu,?_,hat,hl,hm⟩
    · rw [append_assoc _ before host,← hsplit]
      simp [ProxySettings.text]
    · rintro rfl
      have hl' := congrArg getLast? hsplit
      have hne : s.proxyHost ≠ [] := by
        rintro h
        simp [h] at hlast
      rw [getLast?_append_of_ne_nil _ hne,hlast,append_nil] at hl'
      rcases hb with rfl | hb
      · simp at hl'
      · exact hlne (Option.some.inj (hl'.trans hb))

theorem hasHostAndPort_iff_inRange (c : Configuration) :
    c.getUpstreamProxyUrl = [] ∨ HasHostAndPort c.getUpstreamProxyUrl ↔ c.InRange := by
  rw [Configuration.getUpstreamProxyUrl,Configuration.getProxySettings,Configuration.InRange]
  by_cases hu : c.preferences.useHTTPProxy = true
  case neg => simp [hu]
  rw [if_pos hu,imp_iff_right hu]
  split_ifs with hsystem hc
  · cases hh : c.systemProxy.host with
    | none => simp [getSystemProxySettings,hh]
    | some host =>
      by_cases hn : host = [] ∨ c.systemProxy.port c.digit ≤ 0
      · simp only [getSystemProxySettings,hh,Option.bind_some,if_pos hn,true_or,true_iff]
        rintro host' ⟨⟩ hne hp
        exact absurd hn (by simp [hne,hp])
      · simp only [getSystemProxySettings,hh,Option.bind_some,if_neg hn,hasHostAndPort_iff]
        simp_all
  · simp only [hasHostAndPort_iff,hc,true_imp_iff]
    cases parseInt c.digit c.preferences.customProxyPort <;> simp
  · simp [hc]

/-! ### Equal URLs -/

def Credentials.Separable (k : Credentials) : Prop :=
  ':' ∉ k.user ∧ '\\' ∉ k.domain ∧ (k.domain = [] → '\\' ∉ k.userName)

/-- The separators occur in the settings where they do no harm. -/
def Configuration.Separable (c : Configuration) : Prop :=
  (∀ settings, c.getProxySettings = some settings → '@' ∉ settings.proxyHost) ∧
    ∀ k, c.getProxyCredentials = some k → k.Separable

theorem settings_text_inj {s s' : ProxySettings} (h : s.text = s'.text) : s = s' := by
  obtain ⟨hhost,hport⟩ := inj_last (notMem_portText rfl (by decide) _)
    (notMem_portText rfl (by decide) _) h
  cases s
  cases s'
  simp_all [portText_injective.eq_iff]

theorem credentials_text_inj {k k' : Credentials} (hk : k.Separable) (hk' : k'.Separable)
    (h : k.text = k'.text) : k = k' := by
  obtain ⟨hu,hp⟩ := inj_first hk.1 hk'.1 h
  obtain ⟨name,p,d⟩ := k
  obtain ⟨name',p',d'⟩ := k'
  simp only [Credentials.Separable,Credentials.user] at hu hk hk' hp
  split_ifs at hu with hd hd' hd'
  · simp_all
  · exact absurd (hu ▸ by simp) (hk.2.2 hd)
  · exact absurd (hu ▸ by simp) (hk'.2.2 hd')
  · obtain ⟨rfl,rfl⟩ := inj_first hk.2.1 hk'.2.1 hu
    rw [hp]

theorem notMem_settings_text {s : ProxySettings} (h : '@' ∉ s.proxyHost) : '@' ∉ s.text := by
  simp [ProxySettings.text,h,notMem_portText]

theorem userinfo_inj {k k' : Option Credentials} {rest rest' : Text} (hr : '@' ∉ rest)
    (hr' : '@' ∉ rest') (h : userinfo k ++ rest = userinfo k' ++ rest') :
    userinfo k = userinfo k' ∧ rest = rest' := by
  cases k with
  | none =>
    cases k' with
    | none => exact ⟨rfl,h⟩
    | some k' =>
      rw [show rest = userinfo (some k') ++ rest' from h] at hr
      simp [userinfo] at hr
  | some k =>
    cases k' with
    | none =>
      rw [show rest' = userinfo (some k) ++ rest from h.symm] at hr'
      simp [userinfo] at hr'
    | some k' =>
      simp only [userinfo,append_assoc,singleton_append] at h
      obtain ⟨hk,hrest⟩ := inj_last hr hr' h
      exact ⟨by rw [userinfo,hk,userinfo],hrest⟩

theorem credentials_inj {k k' : Option Credentials} (hk : ∀ x, k = some x → x.Separable)
    (hk' : ∀ x, k' = some x → x.Separable) (h : userinfo k = userinfo k') : k = k' := by
  cases k <;> cases k' <;> simp only [userinfo,append_left_inj] at h
  · rfl
  · simp at h
  · simp at h
  · rw [credentials_text_inj (hk _ rfl) (hk' _ rfl) h]

/-- The URL is empty or has a host and a port exactly when the settings are in range. Equal URLs
have equal settings if the separators do no harm. -/
theorem urls_keep_settings_apart (c c' : Configuration) :
    (c.getUpstreamProxyUrl = [] ∨ HasHostAndPort c.getUpstreamProxyUrl ↔ c.InRange) ∧
    (c.Separable → c'.Separable → c.getUpstreamProxyUrl ≠ [] →
      c.getUpstreamProxyUrl = c'.getUpstreamProxyUrl →
      c.getProxySettings = c'.getProxySettings ∧
        c.getProxyCredentials = c'.getProxyCredentials) := by
  refine ⟨hasHostAndPort_iff_inRange c,fun hc hc' hne hurl => ?_⟩
  rw [Configuration.getUpstreamProxyUrl] at hne hurl
  rw [Configuration.getUpstreamProxyUrl] at hurl
  cases hs : c.getProxySettings with
  | none => simp [hs] at hne
  | some s =>
    cases hs' : c'.getProxySettings with
    | none => simp [hs,hs'] at hurl
    | some s' =>
      simp only [hs,hs',append_assoc,append_cancel_left_eq] at hurl
      obtain ⟨hu,ht⟩ := userinfo_inj (notMem_settings_text (hc.1 s hs))
        (notMem_settings_text (hc'.1 s' hs')) hurl
      exact ⟨congrArg some (settings_text_inj ht),credentials_inj hc.2 hc'.2 hu⟩

/-- The zeros among the digits of the Basic Multilingual Plane. -/
def zeros : List ℕ :=
  [0x30, 0x660, 0x6F0, 0x7C0, 0x966, 0x9E6, 0xA66, 0xAE6, 0xB66, 0xBE6, 0xC66, 0xCE6, 0xD66, 0xDE6,
    0xE50, 0xED0, 0xF20, 0x1040, 0x1090, 0x17E0, 0x1810, 0x1946, 0x19D0, 0x1A80, 0x1A90, 0x1B50,
    0x1BB0, 0x1C40, 0x1C50, 0xA620, 0xA8D0, 0xA900, 0xA9D0, 0xA9F0, 0xAA50, 0xABF0, 0xFF10]

/-- A custom proxy, with authentication unless the user name is empty. -/
def customProxy (host port username password domain : String) : Configuration where
  preferences := ⟨true, false, true, host.toList, port.toList, username ≠ "", username.toList,
    password.toList, domain.toList⟩
  system := .legacy none 0
  saved := none
  digit c := (zeros.find? fun z => z ≤ c.toNat ∧ c.toNat < z + 10).map (c.toNat - ·)
  toUpperCase text := text.map Char.toUpper
  toUpperCase_ne_nil _ h := mt List.map_eq_nil_iff.mp h

theorem urls_keep_settings_apart_proxy8080 :
    HasHostAndPort (customProxy "proxy" "８080" "user" "secret" "").getUpstreamProxyUrl :=
  ((urls_keep_settings_apart (customProxy "proxy" "８080" "user" "secret" "")
      (customProxy "" "" "" "" "")).1.mpr fun _ _ =>
    ⟨8080,by decide +kernel,⟨'y',by decide +kernel,by decide⟩,by decide,by decide,
      List.all_iff_forall_prop.mp (by decide +kernel)⟩).resolve_left (by decide +kernel)

/-- Pairs of settings with one URL. The first of each pair has one of the separators where it does
harm: in the host, the user name or the domain. -/
def alike : List (Configuration × Configuration) :=
  [(customProxy "a:b@proxy" "80" "" "" "", customProxy "proxy" "80" "a" "b" ""),
    (customProxy "proxy" "80" "a:b" "c" "", customProxy "proxy" "80" "a" "b:c" ""),
    (customProxy "proxy" "80" "a" "c" "N:T", customProxy "proxy" "80" "N" "T\\a:c" ""),
    (customProxy "proxy" "80" "a" "c" "N\\T", customProxy "proxy" "80" "T\\a" "c" "N"),
    (customProxy "proxy" "80" "N\\a" "c" "", customProxy "proxy" "80" "a" "c" "N")]

/-- A proxy without a host and a port has a URL, and different settings have the same one. -/
theorem urls_without_host_or_alike :
    (customProxy "" "" "" "" "").getUpstreamProxyUrl = "http://:0".toList ∧
      ∀ pair ∈ alike, pair.1.getUpstreamProxyUrl = pair.2.getUpstreamProxyUrl ∧
        pair.1.getProxyCredentials ≠ pair.2.getProxyCredentials := by
  decide +kernel

end Psiphon.Android.UpstreamProxy
