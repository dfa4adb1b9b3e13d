import Psiphon.Lib.Records
import Psiphon.Lib.Table
import Psiphon.Python

/-!
# Exporting and importing hosts

`export_host_and_server` and `import_host_and_server` of `psi_ops.py`, with tuples that are listed
field by field.
-/

namespace Psiphon.Ops.Export

open List Fallible

/-! ### Records -/

inductive HostField where
  | id
  | isTCS
  | tcsType
  | provider
  | providerId
  | ipAddress
  | sshPort
  | sshUsername
  | sshPassword
  | sshHostKey
  | statsSshUsername
  | statsSshPassword
  | datacenterName
  | region
  | meekServerPort
  | meekServerObfuscatedKey
  | meekServerFrontingDomain
  | meekServerFrontingHost
  | alternateMeekServerFrontingHosts
  | meekCookieEncryptionPublicKey
  | meekCookieEncryptionPrivateKey
  deriving DecidableEq, Repr

inductive ServerField where
  | id
  | hostId
  | ipAddress
  | egressIpAddress
  | internalIpAddress
  | propagationChannelId
  | isEmbedded
  | isPermanent
  | discoveryDateRange
  | capabilities
  | webServerPort
  | webServerSecret
  | webServerCertificate
  | webServerPrivateKey
  | sshPort
  | sshUsername
  | sshPassword
  | sshHostKey
  | tcsSshPrivateKey
  | sshObfuscatedPort
  | sshObfuscatedKey
  | alternateSshObfuscatedPorts
  | oslIds
  | oslDiscoveryDateRange
  deriving DecidableEq, Repr

def hostFields : List HostField :=
  [.id, .isTCS, .tcsType, .provider, .providerId, .ipAddress, .sshPort, .sshUsername, .sshPassword,
    .sshHostKey, .statsSshUsername, .statsSshPassword, .datacenterName, .region, .meekServerPort,
    .meekServerObfuscatedKey, .meekServerFrontingDomain, .meekServerFrontingHost,
    .alternateMeekServerFrontingHosts, .meekCookieEncryptionPublicKey,
    .meekCookieEncryptionPrivateKey]

def serverFields : List ServerField :=
  [.id, .hostId, .ipAddress, .egressIpAddress, .internalIpAddress, .propagationChannelId,
    .isEmbedded, .isPermanent, .discoveryDateRange, .capabilities, .webServerPort, .webServerSecret,
    .webServerCertificate, .webServerPrivateKey, .sshPort, .sshUsername, .sshPassword, .sshHostKey,
    .tcsSshPrivateKey, .sshObfuscatedPort, .sshObfuscatedKey, .alternateSshObfuscatedPorts, .oslIds,
    .oslDiscoveryDateRange]

def expHost : List HostField :=
  [.id, .isTCS, .tcsType, .provider, .providerId, .ipAddress, .sshPort, .sshUsername, .sshPassword,
    .sshHostKey, .statsSshUsername, .statsSshPassword, .datacenterName, .region, .meekServerPort,
    .meekServerObfuscatedKey, .meekServerFrontingDomain, .meekServerFrontingHost,
    .alternateMeekServerFrontingHosts, .meekCookieEncryptionPublicKey,
    .meekCookieEncryptionPrivateKey]

def expServer : List ServerField :=
  [.id, .hostId, .ipAddress, .egressIpAddress, .internalIpAddress, .propagationChannelId,
    .isEmbedded, .isPermanent, .discoveryDateRange, .capabilities, .webServerPort, .webServerSecret,
    .webServerCertificate, .webServerPrivateKey, .sshPort, .sshUsername, .sshPassword, .sshHostKey,
    .tcsSshPrivateKey, .sshObfuscatedPort, .sshObfuscatedKey, .alternateSshObfuscatedPorts]

variable {V : Type}

abbrev HostRecord (V : Type) := HostField → V

abbrev ServerRecord (V : Type) := ServerField → V

def hostId (host : HostRecord V) : V := host .id

def serverId (server : ServerRecord V) : V := server .id

/-- The part of a `PsiphonNetwork` object that is exported and imported. -/
structure Database (V : Type) where
  isLocked : Bool
  hosts : Table (hostId (V := V))
  servers : Table (serverId (V := V))

/-- A pickled list of pairs of tuples. -/
abbrev Pickle (V : Type) := List (List V × List V)

/-! ### Tuples -/

/-- `Host(*values)`, `Server(*values)`; the default of a field is `None`. -/
def fromTuple {F : Type} [DecidableEq F] (fields : List F) (none : V) (values : List V) :
    Py (F → V) :=
  match Records.construct fields none values with
  | some record => .ok record
  | .none => .error .typeError

/-- `exp_host` and `exp_server` -/
def tuples (entry : HostRecord V × ServerRecord V) : List V × List V :=
  (expHost.map entry.1, expServer.map entry.2)

/-- The server that the tuple of a server is read as: `exp_server` lacks the fields of OSLs. -/
def forgetOsl (none : V) (server : ServerRecord V) : ServerRecord V :=
  Function.update (Function.update server .oslIds none) .oslDiscoveryDateRange none

theorem fromTuple_expHost (none : V) (host : HostRecord V) :
    fromTuple hostFields none (expHost.map host) = .ok host := by
  have hg : expHost <+: hostFields := prefix_rfl
  have hall : ∀ field, field ∈ expHost := by
    intro field
    cases field <;> decide
  rw [fromTuple,Records.construct_map hg]
  refine congrArg Except.ok (funext fun field => ?_)
  exact if_pos (hall field)

theorem fromTuple_expServer (none : V) (server : ServerRecord V) :
    fromTuple serverFields none (expServer.map server) = .ok (forgetOsl none server) := by
  have hg : expServer <+: serverFields := ⟨[.oslIds,.oslDiscoveryDateRange],rfl⟩
  refine congrArg Except.ok (funext fun field => ?_)
  cases field <;> rfl

variable {server : ServerRecord V}

theorem forgetOsl_eq_iff {none : V} : forgetOsl none server = server ↔
      server .oslIds = none ∧ server .oslDiscoveryDateRange = none := by
  constructor
  · intro h
    exact ⟨(congrFun h .oslIds).symm,(congrFun h .oslDiscoveryDateRange).symm⟩
  · rintro ⟨hi,hr⟩
    funext field
    cases field with
    | oslIds => exact hi.symm
    | oslDiscoveryDateRange => exact hr.symm
    | _ => rfl

/-! ### Export -/

variable [DecidableEq V]

/-- `[s for s in self.get_servers() if s.host_id == host.id]` -/
def serversOn (db : Database V) (id : V) : List (ServerRecord V) :=
  db.servers.records.filter fun server => server .hostId = id

def hostAndServer (db : Database V) (id : V) : Py (HostRecord V × ServerRecord V) :=
  match db.hosts.get? id with
  | none => .error .keyError
  | some host =>
    match serversOn db (hostId host) with
    | [] => .error .indexError
    | server :: _ => .ok (host, server)

/-- `export_host_and_server`; the file is the list of its pickles, and `open(…, 'ab')` adds to what
there is. -/
def exportHostAndServer (db : Database V) (hostIdList : List V) (file : List (Pickle V)) :
    Py (List (Pickle V)) := do
  let entries ← hostIdList.mapM (hostAndServer db)
  return file ++ [entries.map tuples]

/-! ### Import -/

def addRecords (host : HostRecord V) (server : ServerRecord V) (db : Database V) :
    Py (Database V) := do
  pyAssert (!db.hosts.contains (hostId host))
  pyAssert (!db.servers.contains (serverId server))
  return { db with hosts := db.hosts.add host, servers := db.servers.add server }

def importEntry (none : V) (db : Database V) (entry : List V × List V) : Py (Database V) := do
  let host ← fromTuple hostFields none entry.1
  let server ← fromTuple serverFields none entry.2
  addRecords host server db

/-- `import_host_and_server`: `pickle.load` reads the first pickle of the file. -/
def importHostAndServer (none : V) (db : Database V) (file : List (Pickle V)) :
    Py (Database V) := do
  pyAssert db.isLocked
  match file with
  | [] => .error .external
  | entries :: _ => entries.foldlM (importEntry none) db

/-! ### What is imported of an export -/

section Import

variable {none : V} {A B : Database V} {ids : List V}
  {entries : List (HostRecord V × ServerRecord V)}

theorem importEntry_tuples (entry : HostRecord V × ServerRecord V) :
    importEntry none B (tuples entry) = addRecords entry.1 (forgetOsl none entry.2) B := by
  rw [importEntry,tuples,fromTuple_expHost,fromTuple_expServer]
  rfl

structure Fresh (db : Database V) (entries : List (HostRecord V × ServerRecord V)) : Prop where
  hosts_nodup : (entries.map fun entry => hostId entry.1).Nodup
  servers_nodup : (entries.map fun entry => serverId entry.2).Nodup
  host_new : ∀ entry ∈ entries, db.hosts.contains (hostId entry.1) = false
  server_new : ∀ entry ∈ entries, db.servers.contains (serverId entry.2) = false

theorem Fresh.import (h : Fresh B entries) :
    ∃ B' : Database V, (entries.map tuples).foldlM (importEntry none) B = .ok B' ∧
      (∀ host, host ∈ B'.hosts ↔ host ∈ B.hosts ∨ ∃ entry ∈ entries, host = entry.1) ∧
      ∀ server, server ∈ B'.servers ↔
        server ∈ B.servers ∨ ∃ entry ∈ entries, server = forgetOsl none entry.2 := by
  induction entries generalizing B with
  | nil => exact ⟨B,rfl,by simp,by simp⟩
  | cons entry entries ih =>
    obtain ⟨hh,hs,hho,hse⟩ := h
    rw [map_cons,nodup_cons] at hh hs
    obtain ⟨hnew,hho⟩ := forall_mem_cons.mp hho
    obtain ⟨hn,hse⟩ := forall_mem_cons.mp hse
    have hnew' : B.servers.contains (serverId (forgetOsl none entry.2)) = false := hn
    have hadd : importEntry none B (tuples entry) = .ok { B with
          hosts := B.hosts.add entry.1
          servers := B.servers.add (forgetOsl none entry.2) } := by
      rw [importEntry_tuples,addRecords,hnew,hnew']
      rfl
    have hf : Fresh { B with
        hosts := B.hosts.add entry.1
        servers := B.servers.add (forgetOsl none entry.2) } entries := by
      refine ⟨hh.2,hs.2,fun o ho => ?_,fun o ho => ?_⟩
      · refine Table.contains_add hnew (hho o ho) fun heq => hh.1 ?_
        rw [← heq]
        exact mem_map_of_mem ho
      · refine Table.contains_add hnew' (hse o ho) fun heq => hs.1 ?_
        have heq' : serverId o.2 = serverId entry.2 := heq
        rw [← heq']
        exact mem_map_of_mem ho
    obtain ⟨B',hrun,hmem,hmem'⟩ := ih hf
    refine ⟨B',?_,fun host => ?_,fun server => ?_⟩
    · rw [map_cons,foldlM_cons,hadd,ok_bind,hrun]
    · rw [hmem host,Table.mem_add hnew]
      simp [or_assoc]
    · rw [hmem' server,Table.mem_add hnew']
      simp [or_assoc]

/-! ### What is exported -/

theorem mem_serversOn {id : V} :
    server ∈ serversOn A id ↔ server ∈ A.servers ∧ server .hostId = id := by
  rw [serversOn,mem_filter,decide_eq_true_iff,← Table.mem_def]

theorem hostAndServer_eq_ok_iff {id : V} {entry : HostRecord V × ServerRecord V} :
    hostAndServer A id = .ok entry ↔
      A.hosts.get? id = some entry.1 ∧ (serversOn A id).head? = some entry.2 := by
  rw [hostAndServer]
  cases hg : A.hosts.get? id with
  | none => exact iff_of_false nofun fun h => nomatch h.1
  | some host =>
    have hid : hostId host = id := (Table.get?_eq_some_iff.mp hg).2
    simp only [hid,Option.some_inj]
    cases serversOn A id with
    | nil => simp
    | cons server rest => simp [Prod.ext_iff]

def Exports (A : Database V) (ids : List V) (entries : List (HostRecord V × ServerRecord V)) :
    Prop :=
  List.Forall₂ (fun id entry => hostAndServer A id = .ok entry) ids entries

theorem export_eq_ok_iff {b after : List (Pickle V)} : exportHostAndServer A ids b = .ok after ↔
      ∃ entries, Exports A ids entries ∧ after = b ++ [entries.map tuples] := by
  rw [exportHostAndServer,bind_eq_ok_iff]
  constructor
  · rintro ⟨entries,hr,ha⟩
    exact ⟨entries,forall₂_of_mapM_eq_ok hr,(Except.ok.inj ha).symm⟩
  · rintro ⟨entries,he,rfl⟩
    exact ⟨entries,mapM_eq_ok_of_forall₂ he,rfl⟩

structure SharesNoId (A B : Database V) : Prop where
  hosts : ∀ host ∈ A.hosts, B.hosts.contains (hostId host) = false
  servers : ∀ server ∈ A.servers, B.servers.contains (serverId server) = false

theorem Exports.mem (h : Exports A ids entries) {entry : HostRecord V × ServerRecord V}
    (he : entry ∈ entries) : hostId entry.1 ∈ ids ∧ entry.1 ∈ A.hosts ∧ entry.2 ∈ A.servers ∧
      (serversOn A (hostId entry.1)).head? = some entry.2 ∧ entry.2 .hostId = hostId entry.1 := by
  obtain ⟨id,hid,hok⟩ := exists_of_forall₂_mem h he
  obtain ⟨hg,hh⟩ := hostAndServer_eq_ok_iff.mp hok
  obtain ⟨hm,rfl⟩ := Table.get?_eq_some_iff.mp hg
  obtain ⟨hs,hon⟩ := mem_serversOn.mp (mem_of_head? hh)
  exact ⟨hid,hm,hs,hh,hon⟩

theorem Exports.ids_eq (h : Exports A ids entries) :
    (entries.map fun entry => hostId entry.1) = ids := by
  induction h with
  | nil => rfl
  | cons hok hall ih =>
    rw [map_cons,ih,(Table.get?_eq_some_iff.mp (hostAndServer_eq_ok_iff.mp hok).1).2]

theorem Exports.fresh (h : Exports A ids entries) (hnodup : ids.Nodup) (hsh : SharesNoId A B) :
    Fresh B entries := by
  have hh : (entries.map fun entry => hostId entry.1).Nodup := by rwa [h.ids_eq]
  refine ⟨hh,?_,fun entry he => hsh.hosts _ (h.mem he).2.1,
    fun entry he => hsh.servers _ (h.mem he).2.2.1⟩
  refine List.Nodup.map_on (fun entry he o ho heq => ?_) hh.of_map
  obtain ⟨-,-,hmem,-,hon⟩ := h.mem he
  obtain ⟨-,-,hmem',-,hon'⟩ := h.mem ho
  have hs : entry.2 = o.2 := Table.eq_of_key_eq hmem hmem' heq
  refine inj_on_of_nodup_map hh he ho ?_
  rw [← hon,← hon',hs]

/-- The host has exactly one server, which has no OSLs. -/
def Portable (none : V) (A : Database V) (id : V) : Prop :=
  ∃ server, serversOn A id = [server] ∧ server .oslIds = none ∧
    server .oslDiscoveryDateRange = none

/-- After an export into a new file and an import, the hosts have been copied with their servers. -/
def RoundTrips (none : V) (A B : Database V) (ids : List V) : Prop :=
  ∃ file B', exportHostAndServer A ids [] = .ok file ∧ importHostAndServer none B file = .ok B' ∧
    ∀ id ∈ ids, B'.hosts.get? id = A.hosts.get? id ∧
      ∀ server ∈ A.servers, server .hostId = id → B'.servers.get? (serverId server) = some server

/-- After two exports into one file, an import brings in the hosts of both. -/
def BringsBoth (none : V) (A B : Database V) (ids ids' : List V) : Prop :=
  ∃ file file' B', exportHostAndServer A ids [] = .ok file ∧
    exportHostAndServer A ids' file = .ok file' ∧ importHostAndServer none B file' = .ok B' ∧
    ∀ id ∈ ids ++ ids', B'.hosts.get? id = A.hosts.get? id

theorem Exports.import (h : Exports A ids entries) (hl : B.isLocked = true)
    (hnd : ids.Nodup) (hs : SharesNoId A B) (later : List (Pickle V)) :
    ∃ B', importHostAndServer none B (entries.map tuples :: later) = .ok B' ∧
      (∀ host, host ∈ B'.hosts ↔ host ∈ B.hosts ∨ ∃ entry ∈ entries, host = entry.1) ∧
      ∀ server, server ∈ B'.servers ↔
        server ∈ B.servers ∨ ∃ entry ∈ entries, server = forgetOsl none entry.2 := by
  obtain ⟨B',hr,hm⟩ := @Fresh.import _ _ none _ _ (h.fresh hnd hs)
  refine ⟨B',?_,hm⟩
  rw [importHostAndServer,hl]
  exact hr

theorem notMem_of_contains {α : Type} {key : α → V} {t : Table key} {r : α}
    (h : t.contains (key r) = false) : r ∉ t :=
  fun hm => Bool.eq_false_iff.mp h (Table.contains_iff.mpr ⟨r,hm,rfl⟩)

/-- A server of the first database has been copied exactly when it was exported and has no OSLs. -/
theorem Exports.copied_iff (h : Exports A ids entries) (hsh : SharesNoId A B) {B' : Database V}
    (hmem : ∀ server, server ∈ B'.servers ↔
      server ∈ B.servers ∨ ∃ entry ∈ entries, server = forgetOsl none entry.2)
    (hs : server ∈ A.servers) : B'.servers.get? (serverId server) = some server ↔
      forgetOsl none server = server ∧ (serversOn A (server .hostId)).head? = some server ∧
        server .hostId ∈ ids := by
  rw [Table.get?_eq_some_iff,hmem,and_iff_left rfl]
  constructor
  · rintro (hold | ⟨entry,he,heq⟩)
    · exact absurd hold (notMem_of_contains (hsh.servers server hs))
    · obtain ⟨hid,-,hmem',hh,hon⟩ := h.mem he
      have hkey : serverId server = serverId entry.2 := congrFun heq .id
      obtain rfl : server = entry.2 := Table.eq_of_key_eq hs hmem' hkey
      rw [hon]
      exact ⟨heq.symm,hh,hid⟩
  · rintro ⟨hosl,hh,hid⟩
    obtain ⟨entry,he,hok⟩ := exists_of_mem_forall₂ h hid
    have hf := (hostAndServer_eq_ok_iff.mp hok).2
    obtain rfl : server = entry.2 := Option.some.inj (hh.symm.trans hf)
    exact .inr ⟨entry,he,hosl.symm⟩

/-- A host of the first database has been copied exactly when it was exported. -/
theorem Exports.host_copied_iff (h : Exports A ids entries) (hs : SharesNoId A B) {B' : Database V}
    (hm : ∀ host, host ∈ B'.hosts ↔ host ∈ B.hosts ∨ ∃ entry ∈ entries, host = entry.1)
    {host : HostRecord V} (hh : host ∈ A.hosts) :
    B'.hosts.get? (hostId host) = some host ↔ hostId host ∈ ids := by
  rw [Table.get?_eq_some_iff,hm,and_iff_left rfl]
  constructor
  · rintro (ho | ⟨entry,he,rfl⟩)
    · exact absurd ho (notMem_of_contains (hs.hosts host hh))
    · exact (h.mem he).1
  · intro hid
    obtain ⟨entry,he,hok⟩ := exists_of_mem_forall₂ h hid
    obtain ⟨hm',hk⟩ := Table.get?_eq_some_iff.mp (hostAndServer_eq_ok_iff.mp hok).1
    exact .inr ⟨entry,he,Table.eq_of_key_eq hh hm' hk.symm⟩

theorem serversOn_eq_singleton {id : V} (hh : (serversOn A id).head? = some server)
    (ha : ∀ o ∈ serversOn A id, o = server) : serversOn A id = [server] := by
  have hnd : (serversOn A id).Nodup := (A.servers.nodup.of_map _).filter _
  cases hs : serversOn A id with
  | nil =>
    rw [hs] at hh
    cases hh
  | cons first rest =>
    rw [hs] at hh ha hnd
    cases hh
    have hr : rest = [] := by
      refine eq_nil_iff_forall_not_mem.mpr fun o ho => ?_
      have hsa := ha o (.tail _ ho)
      exact (nodup_cons.mp hnd).1 (hsa ▸ ho)
    rw [hr]

theorem roundTrips_iff (hl : B.isLocked = true) (hsh : SharesNoId A B)
    (hids : ∀ id ∈ ids, A.hosts.contains id = true) (hnd : ids.Nodup) :
    RoundTrips none A B ids ↔ ∀ id ∈ ids, Portable none A id := by
  constructor
  · rintro ⟨file,B',hex,hi,hc⟩ id hid
    obtain ⟨entries,he,rfl⟩ := export_eq_ok_iff.mp hex
    obtain ⟨B'',hi',-,hmem⟩ := he.import hl hnd hsh []
    obtain rfl : B' = B'' := Except.ok.inj (hi.symm.trans hi')
    obtain ⟨entry,hentry,hok⟩ := exists_of_mem_forall₂ he hid
    have hhe := (hostAndServer_eq_ok_iff.mp hok).2
    have hf : ∀ server ∈ serversOn A id, server = entry.2 ∧ forgetOsl none server = server := by
      intro server hon
      obtain ⟨hs,rfl⟩ := mem_serversOn.mp hon
      have hget := (hc _ hid).2 server hs rfl
      obtain ⟨hosl,hfi,-⟩ := (he.copied_iff hsh hmem hs).mp hget
      exact ⟨Option.some.inj (hfi.symm.trans hhe),hosl⟩
    refine ⟨entry.2,serversOn_eq_singleton hhe fun o ho => (hf o ho).1,?_⟩
    exact forgetOsl_eq_iff.mp (hf entry.2 (mem_of_head? hhe)).2
  · intro hp
    obtain ⟨entries,hen⟩ : ∃ entries, ids.mapM (hostAndServer A) = .ok entries := by
      refine mapM_ok fun id hid => ?_
      obtain ⟨host,hho,rfl⟩ := Table.contains_iff.mp (hids id hid)
      obtain ⟨server,hs,-⟩ := hp _ hid
      refine ⟨(host, server),hostAndServer_eq_ok_iff.mpr ⟨?_,?_⟩⟩
      · exact Table.get?_eq_some_iff.mpr ⟨hho,rfl⟩
      · rw [hs]
        rfl
    have he : Exports A ids entries := forall₂_of_mapM_eq_ok hen
    obtain ⟨B',hi,hh,hse⟩ := he.import hl hnd hsh []
    refine ⟨_,B',export_eq_ok_iff.mpr ⟨entries,he,rfl⟩,hi,fun id hid => ⟨?_,?_⟩⟩
    · obtain ⟨host,hho,rfl⟩ := Table.contains_iff.mp (hids id hid)
      rw [(he.host_copied_iff hsh hh hho).mpr hid,Table.get?_eq_some_iff.mpr ⟨hho,rfl⟩]
    · rintro server hs rfl
      obtain ⟨only,honly,hosl⟩ := hp _ hid
      have hmem := mem_serversOn.mpr ⟨hs,rfl⟩
      rw [honly,mem_singleton] at hmem
      subst hmem
      refine (he.copied_iff hsh hse hs).mpr ⟨forgetOsl_eq_iff.mpr hosl,?_,hid⟩
      rw [honly]
      rfl

/-- Only the first of two exports is imported. -/
theorem not_bringsBoth (hl : B.isLocked = true) (hs : SharesNoId A B) {ids' : List V}
    (hids : ∀ id ∈ ids', A.hosts.contains id = true) (hnd : (ids ++ ids').Nodup)
    (hne : ids' ≠ []) : ¬ BringsBoth none A B ids ids' := by
  rintro ⟨file,file',B',he,he',hi,hc⟩
  obtain ⟨hnd,-,hd⟩ := nodup_append.mp hnd
  obtain ⟨entries,hex,rfl⟩ := export_eq_ok_iff.mp he
  obtain ⟨entries',-,rfl⟩ := export_eq_ok_iff.mp he'
  obtain ⟨B'',hi',hm,-⟩ := hex.import hl hnd hs [entries'.map tuples]
  obtain rfl : B' = B'' := Except.ok.inj (hi.symm.trans hi')
  obtain ⟨id,hid⟩ := exists_mem_of_ne_nil ids' hne
  obtain ⟨host,hh,rfl⟩ := Table.contains_iff.mp (hids id hid)
  have hg := hc _ (mem_append_right _ hid)
  rw [Table.get?_eq_some_iff.mpr ⟨hh,rfl⟩] at hg
  exact hd _ ((hex.host_copied_iff hs hm hh).mp hg) _ hid rfl

theorem RoundTrips.bringsBoth_nil (h : RoundTrips none A B ids) : BringsBoth none A B ids [] := by
  obtain ⟨file,B',he,hi,hc⟩ := h
  obtain ⟨entries,hexports,rfl⟩ := export_eq_ok_iff.mp he
  refine ⟨_,_,B',he,export_eq_ok_iff.mpr ⟨[],.nil,rfl⟩,hi,fun id hid => ?_⟩
  rw [append_nil] at hid
  exact (hc id hid).1

/-- Hosts are copied with their servers, and both of two exports are imported, exactly when every
host has one server, without OSLs, and the second export is empty. -/
theorem export_import_iff (hlocked : B.isLocked = true) (hshare : SharesNoId A B) {ids' : List V}
    (hids : ∀ id ∈ ids ++ ids', A.hosts.contains id = true) (hnodup : (ids ++ ids').Nodup) :
    RoundTrips none A B ids ∧ BringsBoth none A B ids ids' ↔
      (∀ id ∈ ids, Portable none A id) ∧ ids' = [] := by
  have hids₁ : ∀ id ∈ ids, A.hosts.contains id = true := fun id hid =>
    hids id (mem_append_left _ hid)
  have hids₂ : ∀ id ∈ ids', A.hosts.contains id = true := fun id hid =>
    hids id (mem_append_right _ hid)
  rw [roundTrips_iff hlocked hshare hids₁ (nodup_append.mp hnodup).1]
  constructor
  · rintro ⟨hp,hb⟩
    refine ⟨hp,?_⟩
    by_contra hne
    exact not_bringsBoth hlocked hshare hids₂ hnodup hne hb
  · rintro ⟨hp,rfl⟩
    rw [append_nil] at hnodup
    have ht := (roundTrips_iff hlocked hshare hids₁ hnodup).mpr hp
    exact ⟨hp,ht.bringsBoth_nil⟩

end Import

/-! ### Samples -/

def sampleHost (id : String) : HostRecord String
  | .id => id
  | field => reprStr field

def sampleServer (id hostId oslIds : String) : ServerRecord String
  | .id => id
  | .hostId => hostId
  | .oslIds => oslIds
  | .oslDiscoveryDateRange => "None"
  | field => reprStr field

def emptyDatabase : Database String := ⟨true, .empty _, .empty _⟩

def sampleDatabase (oslIds : String) : Database String :=
  ⟨false, (Table.empty _).add (sampleHost "H"),
    (Table.empty _).add (sampleServer "S" "H" oslIds)⟩

theorem sharesNoId_empty (A : Database String) : SharesNoId A emptyDatabase :=
  ⟨fun _ _ => rfl,fun _ _ => rfl⟩

theorem export_import_sample :
    RoundTrips "None" (sampleDatabase "None") emptyDatabase ["H"] ∧
      BringsBoth "None" (sampleDatabase "None") emptyDatabase ["H"] [] := by
  refine (export_import_iff rfl (sharesNoId_empty _) (by decide) (by decide)).mpr ⟨?_,rfl⟩
  intro id hid
  obtain rfl := mem_singleton.mp hid
  exact ⟨sampleServer "S" "H" "None",rfl,rfl,rfl⟩

/-- Two hosts, one of them with two servers, the other with a server that has OSLs. -/
def crowdedDatabase : Database String :=
  ⟨false, ((Table.empty _).add (sampleHost "H")).add (sampleHost "G"),
    (((Table.empty _).add (sampleServer "S" "H" "None")).add (sampleServer "T" "H" "None")).add
      (sampleServer "U" "G" "[7]")⟩

/-- The second host is not imported, nor is the second server of the first; and an export of the
second host alone loses the OSLs of its server. -/
theorem second_export_lost :
    (∃ file file' B', exportHostAndServer crowdedDatabase ["H"] [] = .ok file ∧
      exportHostAndServer crowdedDatabase ["G"] file = .ok file' ∧
      importHostAndServer "None" emptyDatabase file' = .ok B' ∧
      B'.hosts.contains "G" = false ∧ B'.servers.contains "T" = false) ∧
    ∃ file B', exportHostAndServer crowdedDatabase ["G"] [] = .ok file ∧
      importHostAndServer "None" emptyDatabase file = .ok B' ∧
      (crowdedDatabase.servers.get? "U").map (· .oslIds) = some "[7]" ∧
      (B'.servers.get? "U").map (· .oslIds) = some "None" :=
  ⟨⟨_,_,_,rfl,rfl,rfl,rfl,rfl⟩,_,_,rfl,rfl,rfl,rfl⟩

end Psiphon.Ops.Export
