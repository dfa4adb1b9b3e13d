import Psiphon.Ops.Firewall

/-!
# Which advertised ports are reachable

A connection to an advertised port ends at its service unless the address is a loopback address or
the port is 443 and the host forwards 443 to the web server.
-/

namespace Psiphon.Ops.Firewall

open List

inductive Service where
  | ssh
  | ossh
  | web
  | meek
  deriving DecidableEq, Repr

def recordPort (host : Host) (s : Server) : Service → Option Port
  | .ssh => s.sshPort
  | .ossh => s.sshObfuscatedPort
  | .web => some (.str s.webServerPort)
  | .meek => host.meekServerPort

structure Setup where
  caps : Capabilities
  port : Service → ℤ
  alternates : List ℤ

def Setup.on (c : Setup) : Service → Bool
  | .ssh => c.caps .ssh
  | .ossh => c.caps .ossh
  | .web => c.caps .handshake
  | .meek => c.caps .frontedMeek || c.caps .unfrontedMeek

/-- The server record has the given capabilities and ports, and the enabled services and the
alternate ports of the server use different ports. -/
structure SetUpAs (host : Host) (s : Server) (c : Setup) : Prop where
  capabilities : s.capabilities = some c.caps
  ports : ∀ a, c.on a = true → pyPort (recordPort host s a) = .ok (c.port a)
  meek_set : c.on .meek = true → portTruthy host.meekServerPort = true
  alternates : List.Forall₂ (fun alternate n => alternate.toInt = .ok n)
    s.alternateSshObfuscatedPorts c.alternates
  distinct : ∀ a b, c.on a = true → c.on b = true → c.port a = c.port b → a = b
  distinct_alternates : ∀ a, c.on a = true → c.port a ∉ c.alternates

def advertised (entry : EncodedServerEntry) : Service → Py ℤ
  | .ssh => .ok entry.extendedConfig.sshPort
  | .ossh => .ok entry.extendedConfig.sshObfuscatedPort
  | .web => pyInt entry.webServerPort
  | .meek => .ok entry.extendedConfig.meekServerPort

/-- A connection to the port that the entry advertises for an enabled service is accepted and
delivered to the service. -/
def Reachable (chains : Chains) (s : Server) (c : Setup) (entry : EncodedServerEntry) : Prop :=
  ∀ a, c.on a = true → ∃ n, advertised entry a = .ok n ∧
    chains.deliver (connection s.internalIpAddress n) = some (c.port a)

/-- No enabled service hides behind the forwarding of port 443 or on a loopback address. -/
structure Unshadowed (s : Server) (c : Setup) : Prop where
  address : (∃ a, c.on a = true) → isLoopback s.internalIpAddress = false
  ssh : c.on .web = true → c.on .ssh = true → c.port .ssh ≠ 443
  alternate : c.on .web = true → c.on .ossh = true →
    ∀ alternate, advertisedAlternate c.caps s = some alternate → alternate.toInt ≠ .ok 443

/-! ### Lists of rules -/

variable {packet : Packet}

section Lists

variable {V : Type} {servers : List Server} {condition : Server → Py Bool}
  {rules : Server → List (Rule V)} {l : List (Rule V)}

theorem forServers_ok (h : ∀ s ∈ servers, ∃ b, condition s = .ok b) :
    ∃ l, forServers servers condition rules = .ok l := by
  obtain ⟨p,hp⟩ := mapM_ok (f := fun s => do
    if ← condition s then return rules s else return []) (l := servers) fun s hs => by
      obtain ⟨b,hb⟩ := h s hs
      cases b <;> exact ⟨_,by rw [hb]; rfl⟩
  exact ⟨p.flatten,by rw [forServers,hp]; rfl⟩

theorem mem_forServers (h : forServers servers condition rules = .ok l) {r : Rule V} :
    r ∈ l ↔ ∃ s ∈ servers, condition s = .ok true ∧ r ∈ rules s := by
  rw [forServers,bind_eq_ok_iff] at h
  obtain ⟨p,hp,h⟩ := h
  cases h
  have ha := forall₂_of_mapM_eq_ok hp
  clear hp
  induction ha with
  | nil => simp
  | @cons s part servers p hs _ ih =>
    rw [bind_eq_ok_iff] at hs
    obtain ⟨b,hb,hpa⟩ := hs
    rw [flatten_cons,mem_append]
    cases b <;> cases hpa <;> simp [hb,ih]

/-- When every rule that fires decides the same, that is the decision. -/
theorem decision_eq_some {v : V} (hf : ∃ r ∈ l, r.fire packet = some v)
    (ha : ∀ r ∈ l, ∀ w, r.fire packet = some w → w = v) : decision l packet = some v := by
  induction l with
  | nil => obtain ⟨r,hr,-⟩ := hf; cases hr
  | cons r l ih =>
    rw [decision,List.findSome?_cons]
    cases hr : r.fire packet with
    | some w => rw [ha r mem_cons_self w hr]
    | none =>
      refine ih ?_ fun r' hr' => ha r' (mem_cons_of_mem r hr')
      obtain ⟨r',hr',hf'⟩ := hf
      rcases mem_cons.mp hr' with rfl | hr'
      · rw [hr] at hf'; cases hf'
      · exact ⟨r',hr',hf'⟩

theorem decision_eq_none (h : ∀ r ∈ l, r.fire packet = none) : decision l packet = none :=
  List.findSome?_eq_none_iff.mpr h

theorem decision_append (l l' : List (Rule V)) (packet : Packet) :
    decision (l ++ l') packet = (decision l packet).or (decision l' packet) :=
  List.findSome?_append

end Lists

/-! ### The rules of a set-up host -/

section Chains

variable {host : Host} {servers : List Server} {config : Server → Setup}

variable {s : Server} {c : Setup}

theorem pyCapability_of_setUp (h : SetUpAs host s c) (k : Capability) :
    pyCapability s.capabilities k = .ok (c.caps k) := by
  rw [h.capabilities]
  rfl

theorem meekCapability_of_setUp (h : SetUpAs host s c) : meekCapability s = .ok (c.on .meek) := by
  simp only [meekCapability,pyCapability_of_setUp h,ok_bind,Setup.on]
  cases c.caps .frontedMeek <;> rfl

variable {n : ℤ} {port : Option Port}

theorem on443_of_port {condition : Bool} (h : condition = true → pyPort port = .ok n) :
    on443 condition port = .ok (condition && decide (n = 443)) := by
  cases condition with
  | false => rfl
  | true => simp [on443,h rfl,pure_eq_ok]

/-- Port 443 is forwarded when the web server is on and neither meek nor obfuscated SSH is on
443. -/
def Setup.forwards (c : Setup) : Bool :=
  c.on .web && !(c.on .meek && decide (c.port .meek = 443)) &&
    !(c.on .ossh && decide (c.port .ossh = 443))

theorem forwards443_of_setUp (h : SetUpAs host s c) : forwards443 host s = .ok c.forwards := by
  have hm := on443_of_port (h.ports .meek)
  have ho := on443_of_port (h.ports .ossh)
  simp only [recordPort] at hm ho
  simp only [forwards443,pyCapability_of_setUp h,meekCapability_of_setUp h,ok_bind,hm]
  have hon : c.caps .ossh = c.on .ossh := rfl
  have hweb : c.caps .handshake = c.on .web := rfl
  rw [hon,hweb,ho,ok_bind,Setup.forwards]
  cases c.on .web <;> cases c.on .meek && decide (c.port .meek = 443) <;> rfl

/-! ### The chain `INPUT` -/

theorem fire_eq_some_iff {V : Type} {rule : Rule V} {v : V} : rule.fire packet = some v ↔
      (∀ m ∈ rule.conditions, m.holds packet = true) ∧ rule.target = some v := by
  rw [Rule.fire]
  split
  case isTrue h => simpa using fun _ => all_eq_true.mp h
  case isFalse h => simpa using fun ha => absurd (all_eq_true.mpr ha) h

theorem fire_eq_none {V : Type} {rule : Rule V} {m : Match} (hm : m ∈ rule.conditions)
    (h : m.holds packet = false) : rule.fire packet = none := by
  rw [Rule.fire,if_neg]
  intro ha
  have := all_eq_true.mp ha m hm
  rw [h] at this
  cases this

variable {l : List (Rule Verdict)}

theorem loopbackRules_fire (h : loopbackRules servers = .ok l) (address : String) (port : ℤ)
    {r : Rule Verdict} (hr : r ∈ l) : r.fire (connection address port) = none := by
  have hlo : .inInterface "lo" ∈ r.conditions := by
    simp only [loopbackRules,bind_eq_ok_iff,pure_eq_ok] at h
    obtain ⟨ossh,ho,web,hw,h⟩ := h
    cases h
    rcases mem_append.mp hr with hr | hr
    · rcases mem_append.mp hr with hr | hr
      · obtain ⟨port,-,rfl⟩ := mem_map.mp hr
        exact (.head _)
      · obtain ⟨s,-,-,hr⟩ := (mem_forServers ho).mp hr
        cases mem_singleton.mp hr
        exact (.head _)
    · obtain ⟨s,-,-,hr⟩ := (mem_forServers hw).mp hr
      cases mem_singleton.mp hr
      exact (.head _)
  exact fire_eq_none hlo (by simp [Match.holds,connection])

theorem serviceRules_eq_ok (h : serviceRules host servers = .ok l) :
    ∃ meek web ssh ossh vpn, l = meek ++ web ++ ssh ++ ossh ++ vpn ∧ (∀ r, r ∈ meek ↔ ∃ s ∈ servers,
        (do return (← meekCapability s) && portTruthy host.meekServerPort) = .ok true ∧
        r ∈ [⟨newTcp s host.meekServerPort ++ [.limit],some .accept⟩]) ∧
      (∀ r, r ∈ web ↔ ∃ s ∈ servers, pyCapability s.capabilities .handshake = .ok true ∧
        r ∈ [⟨newTcp s (some (.str s.webServerPort)),some .accept⟩]) ∧
      (∀ r, r ∈ ssh ↔ ∃ s ∈ servers, pyCapability s.capabilities .ssh = .ok true ∧
        r ∈ limitedService s s.sshPort) ∧
      (∀ r, r ∈ ossh ↔ ∃ s ∈ servers, pyCapability s.capabilities .ossh = .ok true ∧
        r ∈ limitedService s s.sshObfuscatedPort) ∧ ∀ r ∈ vpn, r.target = some .accept := by
  simp only [serviceRules,bind_eq_ok_iff,pure_eq_ok] at h
  obtain ⟨meek,hm,web,hw,ssh,hssh,ossh,ho,vpn,hv,h⟩ := h
  cases h
  refine ⟨meek,web,ssh,ossh,vpn,rfl,fun r => mem_forServers hm,fun r => mem_forServers hw,
    fun r => mem_forServers hssh,fun r => mem_forServers ho,fun r hr => ?_⟩
  obtain ⟨s,-,-,hr⟩ := (mem_forServers hv).mp hr
  simp only [mem_cons,not_mem_nil,or_false] at hr
  rcases hr with rfl | rfl | rfl | rfl | rfl <;> rfl

/-- Within the limits no rule of a limited service drops a packet. -/
theorem limitedService_fire (hl : packet.withinLimits = true) {r : Rule Verdict}
    (hr : r ∈ limitedService s port) {w : Verdict} (hw : r.fire packet = some w) : w = .accept := by
  obtain ⟨ha,ht⟩ := fire_eq_some_iff.mp hw
  simp only [limitedService,mem_cons,not_mem_nil,or_false] at hr
  rcases hr with rfl | rfl | rfl
  · cases ht
  · have := ha .recentHits (by simp)
    simp [Match.holds,hl] at this
  · exact (Option.some.inj ht).symm

theorem serviceRules_fire (h : serviceRules host servers = .ok l)
    (hl : packet.withinLimits = true) {r : Rule Verdict} (hr : r ∈ l) {w : Verdict}
    (hw : r.fire packet = some w) : w = .accept := by
  obtain ⟨meek,web,ssh,ossh,vpn,rfl,hm,hweb,hssh,ho,hv⟩ := serviceRules_eq_ok h
  have ht := (fire_eq_some_iff.mp hw).2
  simp only [mem_append,hm,hweb,hssh,ho] at hr
  rcases hr with (((⟨s,-,-,hr⟩ | ⟨s,-,-,hr⟩) | ⟨s,-,-,hr⟩) | ⟨s,-,-,hr⟩) | hr
  · cases mem_singleton.mp hr
    exact (Option.some.inj ht).symm
  · cases mem_singleton.mp hr
    exact (Option.some.inj ht).symm
  · exact limitedService_fire hl hr hw
  · exact limitedService_fire hl hr hw
  · exact Option.some.inj (ht.symm.trans (hv r hr))

variable {a : Service}

/-- A rule accepts connections to the port of an enabled service. -/
theorem serviceRules_accept (h : serviceRules host servers = .ok l) (hs : s ∈ servers)
    (hset : SetUpAs host s c) (ha : c.on a = true) :
    ∃ r ∈ l, r.fire (connection s.internalIpAddress (c.port a)) = some .accept := by
  obtain ⟨meek,web,ssh,ossh,vpn,rfl,hme,hw,hssh,ho,-⟩ := serviceRules_eq_ok h
  have hp := hset.ports a ha
  have hma : ∀ m ∈ newTcp s (recordPort host s a),
      m.holds (connection s.internalIpAddress (c.port a)) = true := by
    simp [newTcp,Match.holds,connection,hp]
  have hc := pyCapability_of_setUp hset
  cases a with
  | ssh =>
    have hr : (⟨newTcp s s.sshPort,some .accept⟩ : Rule Verdict) ∈ ssh :=
      (hssh _).mpr ⟨s,hs,by rw [hc]; exact congrArg _ ha,by simp [limitedService]⟩
    exact ⟨_,by simp only [mem_append]; exact .inl (.inl (.inr hr)), fire_eq_some_iff.mpr ⟨hma,rfl⟩⟩
  | ossh =>
    have hr : (⟨newTcp s s.sshObfuscatedPort,some .accept⟩ : Rule Verdict) ∈ ossh :=
      (ho _).mpr ⟨s,hs,by rw [hc]; exact congrArg _ ha,by simp [limitedService]⟩
    exact ⟨_,by simp only [mem_append]; exact .inl (.inr hr), fire_eq_some_iff.mpr ⟨hma,rfl⟩⟩
  | web =>
    have hr : (⟨newTcp s (some (.str s.webServerPort)),some .accept⟩ : Rule Verdict) ∈ web :=
      (hw _).mpr ⟨s,hs,by rw [hc]; exact congrArg _ ha,by simp⟩
    exact ⟨_,by simp only [mem_append]; exact .inl (.inl (.inl (.inr hr))),
      fire_eq_some_iff.mpr ⟨hma,rfl⟩⟩
  | meek =>
    have hr : (⟨newTcp s host.meekServerPort ++ [.limit],some .accept⟩ : Rule Verdict) ∈ meek :=
      (hme _).mpr ⟨s,hs,by
        rw [meekCapability_of_setUp hset,ok_bind,ha,hset.meek_set ha]; rfl,by simp⟩
    refine ⟨_,by simp only [mem_append]; exact .inl (.inl (.inl (.inl hr))),
      fire_eq_some_iff.mpr ⟨fun m hm => ?_,rfl⟩⟩
    rcases mem_append.mp hm with hm | hm
    · exact hma m hm
    · cases mem_singleton.mp hm
      rfl

theorem inputChain_eq_ok {sshPort : Port} (h : inputChain sshPort host servers = .ok l) :
    ∃ loopback services, loopbackRules servers = .ok loopback ∧
      serviceRules host servers = .ok services ∧
      l = loopback ++ [⟨[.destinationLoopback,.notInInterface "lo"],some .drop⟩,
        ⟨[.state [.related,.established]],some .accept⟩,
        ⟨[.protocol .tcp,.state [.new],.dport (some sshPort)],some .accept⟩] ++ services ++
        [⟨[.protocol .tcp],some .reject⟩,⟨[],some .drop⟩] := by
  simp only [inputChain,bind_eq_ok_iff,pure_eq_ok] at h
  obtain ⟨loopback,hl,services,hse,h⟩ := h
  cases h
  exact ⟨loopback,services,hl,hse,rfl⟩

/-- `INPUT` accepts connections to the port of an enabled service, except on a loopback
address. -/
theorem decision_input {sshPort : Port} (h : inputChain sshPort host servers = .ok l)
    (hs : s ∈ servers) (hset : SetUpAs host s c) (ha : c.on a = true)
    (hlo : isLoopback s.internalIpAddress = false) :
    decision l (connection s.internalIpAddress (c.port a)) = some .accept := by
  obtain ⟨loopback,services,hl,hse,rfl⟩ := inputChain_eq_ok h
  rw [decision_append,decision_eq_some (v := .accept)]
  · rfl
  · obtain ⟨r,hr,hf⟩ := serviceRules_accept hse hs hset ha
    exact ⟨r,mem_append_right _ hr,hf⟩
  · intro r hr w hw
    rcases mem_append.mp hr with hr | hr
    · rcases mem_append.mp hr with hr | hr
      · rw [loopbackRules_fire hl _ _ hr] at hw
        cases hw
      · obtain ⟨hall,ht⟩ := fire_eq_some_iff.mp hw
        simp only [mem_cons,not_mem_nil,or_false] at hr
        rcases hr with rfl | rfl | rfl
        · have := hall .destinationLoopback (by simp)
          simp [Match.holds,connection,hlo] at this
        · exact (Option.some.inj ht).symm
        · exact (Option.some.inj ht).symm
    · exact serviceRules_fire hse rfl hr hw

/-- `INPUT` drops connections to a loopback address. -/
theorem decision_input_of_loopback {sshPort : Port} (h : inputChain sshPort host servers = .ok l)
    {address : String} (port : ℤ) (hlo : isLoopback address = true) :
    decision l (connection address port) = some .drop := by
  obtain ⟨loopback,services,hl,-,rfl⟩ := inputChain_eq_ok h
  rw [decision_append,decision_append,decision_append,
    decision_eq_none fun r hr => loopbackRules_fire hl address port hr]
  simp [decision,Rule.fire,Match.holds,connection,hlo]

/-! ### The chain `PREROUTING` -/

theorem preroutingChain_eq_ok {l : List (Rule (Option Port))}
    (h : preroutingChain host servers = .ok l) : ∃ web alternates, l = web ++ alternates ∧
      (∀ r, r ∈ web ↔ ∃ s ∈ servers, forwards443 host s = .ok true ∧
        r = ⟨[.inInterfaces "eth",.protocol .tcp,.destination s.internalIpAddress,
          .dport (some (.int 443))],some (some (.str s.webServerPort))⟩) ∧
      ∀ r, r ∈ alternates ↔ ∃ s ∈ servers, ∃ alternate ∈ s.alternateSshObfuscatedPorts,
        r = ⟨[.inInterfaces "eth",.protocol .tcp,.destination s.internalIpAddress,
          .dport (some alternate)],some s.sshObfuscatedPort⟩ := by
  simp only [preroutingChain,bind_eq_ok_iff,pure_eq_ok] at h
  obtain ⟨web,hw,alternates,ha,h⟩ := h
  cases h
  refine ⟨web,alternates,rfl,fun r => ?_,fun r => ?_⟩
  · simp only [mem_forServers hw,mem_singleton]
  · simp only [mem_forServers ha,mem_map,true_and,eq_comm]

theorem forward_fire {address address' : String} {t v : Option Port} :
    (⟨[.inInterfaces "eth",.protocol .tcp,.destination address,.dport port],some t⟩ :
        Rule (Option Port)).fire (connection address' n) = some v ↔
      address' = address ∧ pyPort port = .ok n ∧ t = v := by
  have he : Match.holds (connection address' n) (.inInterfaces "eth") = true := by
    show "eth".toList.isPrefixOf "eth0".toList = true
    decide
  simp only [fire_eq_some_iff,mem_cons,not_mem_nil,or_false,forall_eq_or_imp,
    forall_eq,he,true_and,Option.some.injEq]
  simp only [Match.holds,decide_eq_true_iff]
  simp only [connection,true_and,and_assoc]

section Translate

variable {l : List (Rule (Option Port))} {s : Server} {c : Setup}
  (h : preroutingChain host servers = .ok l) (hs : s ∈ servers)
  (hdistinct : (servers.map Server.internalIpAddress).Nodup) (hset : SetUpAs host s c)

include h hs hdistinct hset

/-- Connections to port 443 go to the web server when the port is forwarded. -/
theorem decision_forwarded (hf : c.forwards = true) :
    decision l (connection s.internalIpAddress 443) = some (some (.str s.webServerPort)) := by
  obtain ⟨web,alternates,rfl,hweb,-⟩ := preroutingChain_eq_ok h
  rw [decision_append,decision_eq_some (v := some (.str s.webServerPort))]
  · rfl
  · exact ⟨_,(hweb _).mpr ⟨s,hs,by rw [forwards443_of_setUp hset,hf],rfl⟩,
      forward_fire.mpr ⟨rfl,rfl,rfl⟩⟩
  · intro r hr w hw
    obtain ⟨s',hs',-,rfl⟩ := (hweb r).mp hr
    obtain ⟨ha,-,rfl⟩ := forward_fire.mp hw
    rw [inj_on_of_nodup_map hdistinct hs hs' ha]

/-- A connection that is not forwarded to the web server is left to the alternate ports. -/
theorem decision_not_forwarded (hf : ¬ (n = 443 ∧ c.forwards = true)) :
    ∃ alternates, decision l (connection s.internalIpAddress n) =
        decision alternates (connection s.internalIpAddress n) ∧
      ∀ r, r ∈ alternates ↔ ∃ s ∈ servers, ∃ alternate ∈ s.alternateSshObfuscatedPorts,
        r = ⟨[.inInterfaces "eth",.protocol .tcp,.destination s.internalIpAddress,
          .dport (some alternate)],some s.sshObfuscatedPort⟩ := by
  obtain ⟨web,alternates,rfl,hweb,ha⟩ := preroutingChain_eq_ok h
  refine ⟨alternates,?_,ha⟩
  rw [decision_append,decision_eq_none,Option.none_or]
  intro r hr
  obtain ⟨s',hs',hfwd,rfl⟩ := (hweb r).mp hr
  refine Option.eq_none_iff_forall_ne_some.mpr fun w hw => hf ?_
  obtain ⟨had,hp,-⟩ := forward_fire.mp hw
  obtain rfl := inj_on_of_nodup_map hdistinct hs hs' had
  rw [forwards443_of_setUp hset] at hfwd
  exact ⟨(Except.ok.inj hp).symm,Except.ok.inj hfwd⟩

theorem decision_alternate (hf : ¬ (n = 443 ∧ c.forwards = true)) {alternate : Port}
    (hm : alternate ∈ s.alternateSshObfuscatedPorts) (hn : alternate.toInt = .ok n) :
    decision l (connection s.internalIpAddress n) = some s.sshObfuscatedPort := by
  obtain ⟨alternates,heq,ha⟩ := decision_not_forwarded h hs hdistinct hset hf
  rw [heq]
  refine decision_eq_some ⟨_,(ha _).mpr ⟨s,hs,alternate,hm,rfl⟩,
    forward_fire.mpr ⟨rfl,hn,rfl⟩⟩ fun r hr w hw => ?_
  obtain ⟨s',hs',alternate',-,rfl⟩ := (ha r).mp hr
  obtain ⟨had,-,rfl⟩ := forward_fire.mp hw
  rw [inj_on_of_nodup_map hdistinct hs hs' had]

theorem decision_untouched (hf : ¬ (n = 443 ∧ c.forwards = true)) (hn : n ∉ c.alternates) :
    decision l (connection s.internalIpAddress n) = none := by
  obtain ⟨alternates,heq,ha⟩ := decision_not_forwarded h hs hdistinct hset hf
  rw [heq]
  refine decision_eq_none fun r hr => Option.eq_none_iff_forall_ne_some.mpr fun w hw => hn ?_
  obtain ⟨s',hs',alternate,hmem,rfl⟩ := (ha r).mp hr
  obtain ⟨had,hp,-⟩ := forward_fire.mp hw
  obtain rfl := inj_on_of_nodup_map hdistinct hs hs' had
  obtain ⟨m,hm,hnum⟩ := exists_of_mem_forall₂ hset.alternates hmem
  have hp : alternate.toInt = .ok n := hp
  rw [hp] at hnum
  rwa [Except.ok.inj hnum]

end Translate

/-! ### Connections -/

/-- The rules of a set-up host can be written. -/
theorem install_ok (hc : ∀ s ∈ servers, SetUpAs host s (config s)) (sshPort : Port) :
    ∃ chains, installLegacyFirewallRules sshPort host servers = .ok chains := by
  have hcap : ∀ k, ∀ s ∈ servers, ∃ b, pyCapability s.capabilities k = .ok b :=
    fun k s hs => ⟨_,pyCapability_of_setUp (hc s hs) k⟩
  have hm : ∀ truthy : Server → Bool, ∀ s ∈ servers, ∃ b,
      (do return (← meekCapability s) && truthy s : Py Bool) = .ok b :=
    fun truthy s hs => ⟨_,by rw [meekCapability_of_setUp (hc s hs)]; rfl⟩
  have hall : ∀ s ∈ servers, ∃ b, (.ok true : Py Bool) = .ok b := fun _ _ => ⟨true,rfl⟩
  have hfwd : ∀ s ∈ servers, ∃ b, forwards443 host s = .ok b :=
    fun s hs => ⟨_,forwards443_of_setUp (hc s hs)⟩
  have hl : ∃ l, loopbackRules servers = .ok l :=
    exists_bind_ok (forServers_ok (hm fun s => portTruthy s.sshObfuscatedPort)) fun _ =>
      exists_bind_ok (forServers_ok hall) fun _ => ⟨_,rfl⟩
  have hse : ∃ l, serviceRules host servers = .ok l :=
    exists_bind_ok (forServers_ok (hm fun _ => portTruthy host.meekServerPort)) fun _ =>
      exists_bind_ok (forServers_ok (hcap .handshake)) fun _ =>
        exists_bind_ok (forServers_ok (hcap .ssh)) fun _ =>
          exists_bind_ok (forServers_ok (hcap .ossh)) fun _ =>
            exists_bind_ok (forServers_ok (hcap .vpn)) fun _ => ⟨_,rfl⟩
  have hi : ∃ l, inputChain sshPort host servers = .ok l :=
    exists_bind_ok hl fun _ => exists_bind_ok hse fun _ => ⟨_,rfl⟩
  have hp : ∃ l, preroutingChain host servers = .ok l :=
    exists_bind_ok (forServers_ok hfwd) fun _ =>
      exists_bind_ok (forServers_ok hall) fun _ => ⟨_,rfl⟩
  exact exists_bind_ok hi fun _ => exists_bind_ok hp fun _ => ⟨_,rfl⟩

section Connections

variable {sshPort : Port} {chains : Chains} {s : Server} {c : Setup}
  (h : installLegacyFirewallRules sshPort host servers = .ok chains) (hs : s ∈ servers)
  (hdistinct : (servers.map Server.internalIpAddress).Nodup) (hset : SetUpAs host s c)

theorem install_eq_ok (h : installLegacyFirewallRules sshPort host servers = .ok chains) :
    inputChain sshPort host servers = .ok chains.input ∧
      preroutingChain host servers = .ok chains.prerouting := by
  simp only [installLegacyFirewallRules,bind_eq_ok_iff,pure_eq_ok] at h
  obtain ⟨input,hi,prerouting,hp,h⟩ := h
  cases h
  exact ⟨hi,hp⟩

theorem translate_connection (address : String) (n : ℤ) :
    ∃ m, chains.translate (connection address n) = connection address m := by
  rw [Chains.translate]
  split
  · exact ⟨n,rfl⟩
  · split
    · exact ⟨_,rfl⟩
    · exact ⟨n,rfl⟩

/-- No connection to a loopback address is accepted. -/
theorem deliver_of_loopback (h : installLegacyFirewallRules sshPort host servers = .ok chains)
    {address : String} (n : ℤ) (hl : isLoopback address = true) :
    chains.deliver (connection address n) = none := by
  obtain ⟨m,hm⟩ := @translate_connection chains address n
  rw [Chains.deliver,hm,decision_input_of_loopback (install_eq_ok h).1 m hl]
  rfl

include h hs hset in
/-- A connection that is translated to the port of an enabled service is delivered there. -/
theorem deliver_of_translate (ha : c.on a = true) (hl : isLoopback s.internalIpAddress = false)
    (hn : chains.translate (connection s.internalIpAddress n) =
      connection s.internalIpAddress (c.port a)) :
    chains.deliver (connection s.internalIpAddress n) = some (c.port a) := by
  rw [Chains.deliver,hn]
  exact if_pos (decision_input (install_eq_ok h).1 hs hset ha hl)

include h hs hdistinct hset in
theorem translate_forwarded (hf : c.forwards = true) (hw : c.on .web = true) :
    chains.translate (connection s.internalIpAddress 443) =
      connection s.internalIpAddress (c.port .web) := by
  have hp : pyPort (some (.str s.webServerPort)) = .ok (c.port .web) := hset.ports .web hw
  rw [Chains.translate,decision_forwarded (install_eq_ok h).2 hs hdistinct hset hf]
  simp only [hp]
  rfl

include h hs hdistinct hset in
theorem translate_alternate (hf : ¬ (n = 443 ∧ c.forwards = true))
    (ho : c.on .ossh = true) {alternate : Port}
    (hm : alternate ∈ s.alternateSshObfuscatedPorts) (hn : alternate.toInt = .ok n) :
    chains.translate (connection s.internalIpAddress n) =
      connection s.internalIpAddress (c.port .ossh) := by
  have hp : pyPort s.sshObfuscatedPort = .ok (c.port .ossh) := hset.ports .ossh ho
  rw [Chains.translate,decision_alternate (install_eq_ok h).2 hs hdistinct hset hf hm hn]
  simp only [hp]
  rfl

include h hs hdistinct hset in
theorem translate_untouched (hf : ¬ (n = 443 ∧ c.forwards = true)) (hn : n ∉ c.alternates) :
    chains.translate (connection s.internalIpAddress n) = connection s.internalIpAddress n := by
  rw [Chains.translate,decision_untouched (install_eq_ok h).2 hs hdistinct hset hf hn]

include h hs hdistinct hset in
/-- A connection to port 443 that is forwarded reaches no service but the web server. -/
theorem deliver_forwarded_ne (hf : c.forwards = true) (hw : c.on .web = true)
    (ha : c.on a = true) (hne : a ≠ .web) :
    chains.deliver (connection s.internalIpAddress 443) ≠ some (c.port a) := by
  intro hd
  rw [Chains.deliver,translate_forwarded h hs hdistinct hset hf hw] at hd
  split at hd
  · exact hne (hset.distinct a .web ha hw (Option.some.inj hd).symm)
  · cases hd

end Connections

/-! ### Entries -/

/-- What the entry of a set-up server advertises for its enabled services. -/
theorem advertised_of_entry {net : Network} {random : EntryRandom} {entry : EncodedServerEntry}
    (hset : SetUpAs host s c) (hhost : net.getHostForServer s = .ok host)
    (hentry : getEncodedServerEntry net random s = .ok entry) (ha : c.on a = true) :
    advertised entry a =
      if a = .ossh then (advertisedAlternate c.caps s).elim (.ok (c.port .ossh)) Port.toInt
      else .ok (c.port a) := by
  obtain ⟨host',hof⟩ := entryOf_of_eq_ok hentry
  obtain rfl : host' = host := by simpa [hof.host_eq] using hhost
  have hp := hset.ports a ha
  cases a with
  | ssh => exact hof.sshPort.symm.trans (portOrZero_of_pyPort hp)
  | ossh => exact hof.sshObfuscatedPort.symm.trans (entrySshObfuscatedPort_eq hset.capabilities hp)
  | web =>
    have ht : s.webServerPort = entry.webServerPort :=
      Option.some.inj (pyAssertLong_eq_ok hof.webServerPort).1
    rw [advertised,← ht]
    exact hp
  | meek => exact hof.meekServerPort.symm.trans (portOrZero_of_pyPort hp)

/-! ### The condition -/

section Condition

variable {sshPort : Port} {chains : Chains} {net : Network} {random : EntryRandom}
  {entry : EncodedServerEntry} {s : Server} {c : Setup}

/-- A service that is on 443 is not forwarded to the web server when it is meek or obfuscated
SSH. -/
theorem Setup.forwards_eq_false (ha : c.on a = true) (hk : a = .meek ∨ a = .ossh)
    (h4 : c.port a = 443) : c.forwards = false := by
  rcases hk with rfl | rfl <;> simp [Setup.forwards,ha,h4]

/-- Port 443 is forwarded when another service or an alternate port is on it. -/
theorem Setup.forwards_eq_true (hweb : c.on .web = true)
    (hm : c.on .meek = true → c.port .meek ≠ 443)
    (ho : c.on .ossh = true → c.port .ossh ≠ 443) : c.forwards = true := by
  have hm' : (c.on .meek && decide (c.port .meek = 443)) = false := by
    simpa using hm
  have ho' : (c.on .ossh && decide (c.port .ossh = 443)) = false := by
    simpa using ho
  rw [Setup.forwards,hweb,hm',ho']
  rfl

variable (h : installLegacyFirewallRules sshPort host servers = .ok chains) (hs : s ∈ servers)
  (hdistinct : (servers.map Server.internalIpAddress).Nodup) (hset : SetUpAs host s c)
  (hhost : net.getHostForServer s = .ok host)
  (hentry : getEncodedServerEntry net random s = .ok entry)

include h hs hdistinct hset hhost hentry

theorem reachable_of_unshadowed (hun : Unshadowed s c) : Reachable chains s c entry := by
  intro a ha
  have hl := hun.address ⟨a,ha⟩
  have hadv := advertised_of_entry hset hhost hentry ha
  -- a port that is neither forwarded nor an alternate is delivered as it is
  have ho : ¬ (c.port a = 443 ∧ c.forwards = true) → advertised entry a = .ok (c.port a) →
      ∃ n, advertised entry a = .ok n ∧
        chains.deliver (connection s.internalIpAddress n) = some (c.port a) := by
    intro hf hn
    exact ⟨c.port a,hn,deliver_of_translate h hs hset ha hl
      (translate_untouched h hs hdistinct hset hf (hset.distinct_alternates a ha))⟩
  cases a with
  | ssh =>
    refine ho (fun hf => ?_) hadv
    have hw : c.on .web = true := by
      have := hf.2
      simp only [Setup.forwards,Bool.and_eq_true] at this
      exact this.1.1
    exact hun.ssh hw ha hf.1
  | meek =>
    refine ho (fun hf => ?_) hadv
    rw [Setup.forwards_eq_false ha (.inl rfl) hf.1] at hf
    cases hf.2
  | web =>
    by_cases hf : c.port .web = 443 ∧ c.forwards = true
    · refine ⟨443,hadv.trans (by rw [← hf.1]; rfl),?_⟩
      exact deliver_of_translate h hs hset ha hl (translate_forwarded h hs hdistinct hset hf.2 ha)
    · exact ho hf hadv
  | ossh =>
    rw [if_pos rfl] at hadv
    cases hal : advertisedAlternate c.caps s with
    | none =>
      rw [hal] at hadv
      refine ho (fun hf => ?_) hadv
      rw [Setup.forwards_eq_false ha (.inr rfl) hf.1] at hf
      cases hf.2
    | some alternate =>
      rw [hal] at hadv
      have hm := mem_of_advertisedAlternate hal
      obtain ⟨n,-,hn⟩ := exists_of_mem_forall₂ hset.alternates hm
      refine ⟨n,hadv.trans hn,deliver_of_translate h hs hset ha hl
        (translate_alternate h hs hdistinct hset (fun hf => ?_) ha hm hn)⟩
      have hw : c.on .web = true := by
        have := hf.2
        simp only [Setup.forwards,Bool.and_eq_true] at this
        exact this.1.1
      exact hun.alternate hw ha alternate hal (hn.trans (by rw [hf.1]))

theorem unshadowed_of_reachable (hr : Reachable chains s c entry) : Unshadowed s c := by
  refine ⟨?_,?_,?_⟩
  · rintro ⟨a,ha⟩
    obtain ⟨n,-,hd⟩ := hr a ha
    by_contra hl
    rw [deliver_of_loopback h n (by simpa using hl)] at hd
    cases hd
  · intro hw ha h4
    obtain ⟨n,hn,hd⟩ := hr .ssh ha
    obtain rfl : n = 443 := by
      rw [advertised_of_entry hset hhost hentry ha,if_neg (by decide),h4] at hn
      exact (Except.ok.inj hn).symm
    -- the services are on different ports, so the exceptions do not apply
    have hf := Setup.forwards_eq_true hw
      (fun hme h' => absurd (hset.distinct .meek .ssh hme ha (h'.trans h4.symm)) (by decide))
      (fun ho h' => absurd (hset.distinct .ossh .ssh ho ha (h'.trans h4.symm)) (by decide))
    exact deliver_forwarded_ne h hs hdistinct hset hf hw ha (by decide) hd
  · intro hw ha alternate hal h4
    obtain ⟨n,hn,hd⟩ := hr .ossh ha
    obtain rfl : n = 443 := by
      rw [advertised_of_entry hset hhost hentry ha,if_pos rfl,hal] at hn
      exact Except.ok.inj (hn.symm.trans h4)
    have hmem : (443 : ℤ) ∈ c.alternates := by
      obtain ⟨m,hm,hnum⟩ := exists_of_mem_forall₂ hset.alternates (mem_of_advertisedAlternate hal)
      rwa [Except.ok.inj (h4.symm.trans hnum)]
    have hf := Setup.forwards_eq_true hw
      (fun hme h' => hset.distinct_alternates .meek hme (h' ▸ hmem))
      (fun ho h' => hset.distinct_alternates .ossh ho (h' ▸ hmem))
    exact deliver_forwarded_ne h hs hdistinct hset hf hw ha (by decide) hd

end Condition

/-- The firewall of a legacy host lets exactly the unshadowed servers be reached as their entries
say. -/
theorem advertised_reachable_iff (sshPort : Port)
    (hconfig : ∀ s ∈ servers, SetUpAs host s (config s))
    (hdistinct : (servers.map Server.internalIpAddress).Nodup) :
    ∃ chains, installLegacyFirewallRules sshPort host servers = .ok chains ∧
      ∀ s ∈ servers, ∀ net random entry, net.getHostForServer s = .ok host →
        getEncodedServerEntry net random s = .ok entry →
          (Reachable chains s (config s) entry ↔ Unshadowed s (config s)) := by
  obtain ⟨chains,hc⟩ := install_ok hconfig sshPort
  refine ⟨chains,hc,fun s hs net random entry hhost hentry => ?_⟩
  exact ⟨unshadowed_of_reachable hc hs hdistinct (hconfig s hs) hhost hentry,
    reachable_of_unshadowed hc hs hdistinct (hconfig s hs) hhost hentry⟩

end Chains

/-! ### A host with one server -/

/-- A server with an SSH server, an obfuscated one and a web server, at the ports of
`plainServer`, and one alternate port. -/
def alternateServer (alternate : ℤ) : Server :=
  { plainServer "S" "H" none with alternateSshObfuscatedPorts := [.int alternate] }

def alternateSetup (alternate : ℤ) : Setup where
  caps := serverCapabilities
  port
    | .ssh => 22
    | .ossh => 53
    | .web => 8080
    | .meek => 0
  alternates := [alternate]

def alternateNetwork (alternate : ℤ) : Network :=
  { Network.init with
    hosts := (Table.empty Host.id).add (plainHost "H" false)
    servers := (Table.empty Server.id).add (alternateServer alternate) }

theorem alternateServer_setUp {alternate : ℤ} (h : alternate ∉ [22,53,8080]) :
    SetUpAs (plainHost "H" false) (alternateServer alternate) (alternateSetup alternate) := by
  have hm : (alternateSetup alternate).on .meek = false := rfl
  refine ⟨rfl,fun a ha => ?_,fun ha => ?_,.cons rfl .nil,fun a b ha hb hab => ?_,fun a ha => ?_⟩
  · cases a with
    | ssh => rfl
    | ossh => rfl
    | web =>
      show pyInt "8080" = .ok 8080
      decide
    | meek => rw [hm] at ha; cases ha
  · rw [hm] at ha; cases ha
  · cases a <;> cases b <;> simp_all [alternateSetup]
  · simp only [mem_cons,not_mem_nil,or_false,not_or] at h
    have hne : (alternateSetup alternate).port a ≠ alternate := by
      cases a with
      | ssh => exact fun h' => h.1 h'.symm
      | ossh => exact fun h' => h.2.1 h'.symm
      | web => exact fun h' => h.2.2 h'.symm
      | meek => rw [hm] at ha; cases ha
    simpa [alternateSetup] using hne

theorem alternate_8443_reachable :
    ∃ chains entry,
      installLegacyFirewallRules (.int 2222) (plainHost "H" false) [alternateServer 8443] =
        .ok chains ∧
      getEncodedServerEntry (alternateNetwork 8443) ⟨.id, .id⟩ (alternateServer 8443) = .ok entry ∧
      Reachable chains (alternateServer 8443) (alternateSetup 8443) entry := by
  obtain ⟨chains,hc,hr⟩ := @advertised_reachable_iff (plainHost "H" false)
    [alternateServer 8443] (fun _ => alternateSetup 8443) (.int 2222)
    (fun s hs => by cases mem_singleton.mp hs; exact alternateServer_setUp (by decide))
    (nodup_singleton _)
  refine ⟨chains,_,hc,rfl,(hr _ (.head _) (alternateNetwork 8443) ⟨.id,.id⟩ _ rfl
    rfl).mpr ⟨fun _ => by decide,fun _ _ => by decide,fun _ _ alternate ha => ?_⟩⟩
  cases ha
  decide

/-- The entry advertises the alternate port 443, and connections to it end at the web server. -/
theorem alternate_443_unreachable :
    ∃ chains entry,
      installLegacyFirewallRules (.int 2222) (plainHost "H" false) [alternateServer 443] =
        .ok chains ∧
      getEncodedServerEntry (alternateNetwork 443) ⟨.id, .id⟩ (alternateServer 443) = .ok entry ∧
      SetUpAs (plainHost "H" false) (alternateServer 443) (alternateSetup 443) ∧
      entry.extendedConfig.sshObfuscatedPort = 443 ∧
      chains.deliver (connection (alternateServer 443).internalIpAddress 443) = some 8080 := by
  refine ⟨_,_,rfl,rfl,alternateServer_setUp (by decide),rfl,?_⟩
  decide +kernel

end Psiphon.Ops.Firewall
