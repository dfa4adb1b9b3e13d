import Psiphon.Ops.Upgrade

/-!
# What the steps of an upgrade assign

A slot is a place of the database that can be unset.
-/

namespace Psiphon.Ops.Upgrade

open Function Statement Records

inductive Slot where
  | name (a : Attribute)
  | collection (c : Collection)
  | field (c : Collection) (f : Field)
  | capabilities (c : Collection)
  deriving DecidableEq, Repr

/-- The slot is set, in every record of the collection when it is a slot of records. -/
def Present (db : Database) : Slot → Prop
  | .name a => (db.attributes a).isSome
  | .collection c => (db.records c).isSome
  | .field c f => ∃ entries, db.records c = some entries ∧ ∀ e ∈ entries, (e.fields f).isSome
  | .capabilities c => ∃ entries, db.records c = some entries ∧ ∀ e ∈ entries, e.capabilities.isSome

def CapabilityUpdate.creates : CapabilityUpdate → Bool
  | create => true
  | _ => false

/-- The statement leaves the slot set, whatever it was before. -/
def Statement.assigns : Statement → Slot → Bool
  | .assign a, .name b => a.field = b
  | .create c, .collection c' | .create c, .field c' _ | .create c, .capabilities c' => c = c'
  | .forEach c body _, .field c' f => c = c' && f ∈ assigned body
  | .forEach c _ u, .capabilities c' => c = c' && u.creates
  | _, _ => false

def Statement.needs : Statement → List Slot
  | .assign a => a.value.reads.map .name
  | .create _ => []
  | .upgradeHostDatacenterNames => [.name .linodeApiKey]
  | .forEach c body capabilities =>
    .collection c :: (reads body).map (.field c) ++ match capabilities with
      | .keep | .create => []
      | .renameSshPlus | .disable _ => [.capabilities c]

def KeyEmpty (db : Database) : Prop :=
  ∃ key, db.attributes .linodeApiKey = some key ∧ key.truthy = false

/-! ### One statement -/

section Statement

variable {env : Env} {db db' : Database}

variable {c : Collection}

theorem getRecords_eq_ok_iff {entries : List Entry} :
    db.getRecords c = .ok entries ↔ db.records c = some entries := by
  cases h : db.records c <;> simp [Database.getRecords,h]

theorem run_assign_eq_ok {a : Assignment Attribute Value}
    (h : (Statement.assign a).run env db = .ok db') :
    ∃ value,
      db' = { db with attributes := Function.update db.attributes a.field (some value) } := by
  simp only [run,bind_eq_ok_iff] at h
  obtain ⟨attributes,he,h⟩ := h
  obtain ⟨value,rfl⟩ := Assignment.exec_eq_ok he
  cases h
  exact ⟨value,rfl⟩

theorem run_create_eq_ok (h : (create c).run env db = .ok db') :
    db' = db.setRecords c [] := by
  cases h
  rfl

variable {u : CapabilityUpdate} {body : List (Assignment Field Value)}

theorem run_forEach_eq_ok (h : (forEach c body u).run env db = .ok db') :
    ∃ entries entries', db.records c = some entries ∧
      List.Forall₂ (fun e e' => Entry.run body u e = .ok e') entries entries' ∧
      db' = db.setRecords c entries' := by
  simp only [run,bind_eq_ok_iff,getRecords_eq_ok_iff] at h
  obtain ⟨entries,he,entries',hm,h⟩ := h
  cases h
  exact ⟨entries,entries',he,forall₂_of_mapM_eq_ok hm,rfl⟩

/-- Without an API key nothing is asked of the provider. -/
theorem run_upgradeHostDatacenterNames (hk : KeyEmpty db) :
    upgradeHostDatacenterNames.run env db = .ok db := by
  obtain ⟨key,hk,hf⟩ := hk
  simp [run,getField,hk,hf,pure_eq_ok]

theorem entryRun_eq_ok {e e' : Entry} (h : Entry.run body u e = .ok e') :
    exec PyError.attributeError body e.fields = .ok e'.fields ∧
      u.run e.capabilities = .ok e'.capabilities := by
  simp only [Entry.run,bind_eq_ok_iff] at h
  obtain ⟨fields,hf,capabilities,hc,h⟩ := h
  cases h
  exact ⟨hf,hc⟩

theorem isSome_capabilities_run {x x' : CapabilitiesField} (h : u.run x = .ok x') :
    x'.isSome ↔ u.creates = true ∨ x.isSome := by
  cases u with
  | keep => cases h; simp [CapabilityUpdate.creates]
  | create => cases h; simp [CapabilityUpdate.creates]
  | renameSshPlus =>
    match x, h with
    | some (some d), h =>
      cases hd : d .sshPlus with
      | none => simp [CapabilityUpdate.run,hd] at h
      | some b =>
        simp only [CapabilityUpdate.run,hd] at h
        cases h
        simp [CapabilityUpdate.creates]
  | disable keys =>
    match x, h with
    | some none, h => cases h; simp [CapabilityUpdate.creates]
    | some (some d), h => cases h; simp [CapabilityUpdate.creates]

theorem forall_of_forall₂ {α : Type} {R : α → α → Prop} {P Q : α → Prop} {l l' : List α}
    (h : List.Forall₂ R l l') (hPQ : ∀ a b, R a b → (P a ↔ Q b)) :
    (∀ a ∈ l, P a) ↔ ∀ b ∈ l', Q b := by
  induction h with
  | nil => simp
  | cons hab _ ih => simp [hPQ _ _ hab,ih]

theorem setRecords_same (c : Collection) (entries : List Entry) :
    (db.setRecords c entries).records c = some entries := update_self ..

theorem setRecords_of_ne {c c' : Collection} (hne : c' ≠ c) (entries : List Entry) :
    (db.setRecords c entries).records c' = db.records c' := update_of_ne hne ..

def Slot.owner : Slot → Option Collection
  | name _ => none
  | collection c | field c _ | capabilities c => some c

theorem present_setRecords_of_ne {slot : Slot} (h : slot.owner ≠ some c) (entries : List Entry) :
    Present (db.setRecords c entries) slot ↔ Present db slot := by
  cases slot with
  | name b => exact .rfl
  | collection c' | field c' f | capabilities c' =>
    have hne : c' ≠ c := fun hc => h (congrArg some hc)
    simp [Present,setRecords_of_ne hne]

theorem assigns_of_owner_ne {slot : Slot} (h : slot.owner ≠ some c) :
    (create c).assigns slot = false ∧
      ∀ body u, (forEach c body u).assigns slot = false := by
  cases slot with
  | name b => exact ⟨rfl,fun _ _ => rfl⟩
  | collection c' | field c' f | capabilities c' =>
    have hne : ¬ c = c' := fun hc => h (congrArg some hc.symm)
    simp [assigns,hne]

theorem present_assign_iff {a : Assignment Attribute Value}
    (h : (Statement.assign a).run env db = .ok db') (slot : Slot) :
    Present db' slot ↔ (Statement.assign a).assigns slot = true ∨ Present db slot := by
  obtain ⟨value,rfl⟩ := run_assign_eq_ok h
  cases slot with
  | name b =>
    by_cases hb : a.field = b
    · simp [Present,assigns,hb]
    · simp [Present,assigns,hb,update_of_ne (.symm hb)]
  | collection c | field c f | capabilities c => simp [Present,assigns]

theorem present_create_iff (h : (create c).run env db = .ok db') (slot : Slot) :
    Present db' slot ↔ (create c).assigns slot = true ∨ Present db slot := by
  obtain rfl := run_create_eq_ok h
  by_cases hs : slot.owner = some c
  · cases slot <;> cases hs <;> simp [Present,assigns,setRecords_same]
  · rw [present_setRecords_of_ne hs,(assigns_of_owner_ne hs).1]
    simp

/-- A loop sets the fields that its body assigns, and the capabilities when it creates them. -/
theorem present_forEach_iff (h : (forEach c body u).run env db = .ok db') (slot : Slot) :
    Present db' slot ↔ (forEach c body u).assigns slot = true ∨ Present db slot := by
  obtain ⟨entries,entries',hen,hr,rfl⟩ := run_forEach_eq_ok h
  by_cases hs : slot.owner = some c
  · cases slot with
    | name b => cases hs
    | collection c' =>
      cases hs
      simp [Present,assigns,setRecords_same,hen]
    | field c' f =>
      cases hs
      have hiff := forall_of_forall₂ (P := fun e => f ∈ assigned body ∨ (e.fields f).isSome)
        (Q := fun e => (e.fields f).isSome) hr
        fun e e' he => (isSome_exec_iff (entryRun_eq_ok he).1 f).symm
      by_cases hf : f ∈ assigned body
      · simpa [Present,assigns,setRecords_same,hf] using hiff
      · simpa [Present,assigns,setRecords_same,hen,hf] using hiff.symm
    | capabilities c' =>
      cases hs
      have hiff := forall_of_forall₂ (P := fun e => u.creates = true ∨ e.capabilities.isSome)
        (Q := fun e => e.capabilities.isSome) hr
        fun e e' he => (isSome_capabilities_run (entryRun_eq_ok he).2).symm
      cases hu : u.creates with
      | true => simpa [Present,assigns,setRecords_same,hu] using hiff
      | false => simpa [Present,assigns,setRecords_same,hen,hu] using hiff.symm
  · rw [present_setRecords_of_ne hs,(assigns_of_owner_ne hs).2]
    simp

variable {s : Statement}

/-- After a statement a slot is set exactly when the statement assigns it or it was set. -/
theorem present_run_iff (hk : KeyEmpty db) (h : s.run env db = .ok db') (slot : Slot) :
    Present db' slot ↔ s.assigns slot = true ∨ Present db slot := by
  cases s with
  | assign a => exact present_assign_iff h slot
  | create c => exact present_create_iff h slot
  | forEach c body u => exact present_forEach_iff h slot
  | upgradeHostDatacenterNames =>
    rw [run_upgradeHostDatacenterNames hk] at h
    cases h
    simp [assigns]

theorem keyEmpty_run (hk : KeyEmpty db) (h : s.run env db = .ok db')
    (hs : s.assigns (.name .linodeApiKey) = false) : KeyEmpty db' := by
  cases s with
  | assign a =>
    obtain ⟨value,rfl⟩ := run_assign_eq_ok h
    obtain ⟨key,hset,hf⟩ := hk
    have hne : Attribute.linodeApiKey ≠ a.field := by
      simpa [assigns,eq_comm] using hs
    exact ⟨key,by simpa [update_of_ne hne] using hset,hf⟩
  | create c => obtain rfl := run_create_eq_ok h; exact hk
  | upgradeHostDatacenterNames =>
    rw [run_upgradeHostDatacenterNames hk] at h
    cases h
    exact hk
  | forEach c body u => obtain ⟨_,_,_,_,rfl⟩ := run_forEach_eq_ok h; exact hk

/-- The server has capabilities with the key that step `0.11` moves. -/
def HasSshPlus (x : CapabilitiesField) : Prop := ∃ d, x = some (some d) ∧ (d .sshPlus).isSome

variable {x : CapabilitiesField}

theorem run_renameSshPlus_ok_iff :
    (∃ x', CapabilityUpdate.renameSshPlus.run x = .ok x') ↔ HasSshPlus x := by
  match x with
  | none => simp [CapabilityUpdate.run,HasSshPlus]
  | some none => simp [CapabilityUpdate.run,HasSshPlus]
  | some (some d) => cases hd : d .sshPlus <;> simp [CapabilityUpdate.run,HasSshPlus,hd]

/-- Only the renaming asks for more than capabilities that are set. -/
theorem run_capabilities_ok (hs : (∃ keys, u = .disable keys) → x.isSome)
    (hp : u = .renameSshPlus → HasSshPlus x) : ∃ x', u.run x = .ok x' := by
  cases u with
  | keep => exact ⟨x,rfl⟩
  | create => exact ⟨_,rfl⟩
  | renameSshPlus => exact run_renameSshPlus_ok_iff.mpr (hp rfl)
  | disable keys =>
    match x, hs ⟨keys,rfl⟩ with
    | some none, _ => exact ⟨_,rfl⟩
    | some (some d), _ => exact ⟨_,rfl⟩

/-- The loop that renames a key finds it in every record. -/
def Statement.FindsSshPlus (s : Statement) (db : Database) : Prop :=
  ∀ c body, s = .forEach c body .renameSshPlus →
    ∀ entries, db.records c = some entries → ∀ e ∈ entries, HasSshPlus e.capabilities

/-- A statement does not raise when the slots it needs are set. -/
theorem run_ok (hk : KeyEmpty db) (hn : ∀ slot ∈ s.needs, Present db slot)
    (hp : s.FindsSshPlus db) : ∃ db', s.run env db = .ok db' := by
  cases s with
  | assign a =>
    obtain ⟨attributes,hex⟩ : ∃ attributes,
        exec PyError.attributeError [a] db.attributes = .ok attributes :=
      exec_ok fun f hf => hn (.name f) (List.mem_map_of_mem (by simpa [reads] using hf))
    have hex' : a.exec PyError.attributeError db.attributes = .ok attributes := by
      rw [exec_cons] at hex
      cases ha : a.exec PyError.attributeError db.attributes with
      | error e => rw [ha] at hex; cases hex
      | ok r => rw [ha] at hex; exact hex
    exact ⟨_,by rw [run,hex']; rfl⟩
  | create c => exact ⟨_,rfl⟩
  | upgradeHostDatacenterNames => exact ⟨db,run_upgradeHostDatacenterNames hk⟩
  | forEach c body u =>
    obtain ⟨entries,hen⟩ := Option.isSome_iff_exists.mp (hn (.collection c) (by simp [needs]))
    have hr : ∀ e ∈ entries, ∃ e', Entry.run body u e = .ok e' := by
      intro e he
      obtain ⟨fields,hfi⟩ : ∃ fields, exec PyError.attributeError body e.fields = .ok fields := by
        refine exec_ok fun f hf => ?_
        obtain ⟨entries',hen',hall⟩ := hn (.field c f) (by simp [needs,hf])
        obtain rfl : entries' = entries := by simpa [hen] using hen'.symm
        exact hall e he
      obtain ⟨x,hx⟩ : ∃ x, u.run e.capabilities = .ok x := by
        refine run_capabilities_ok ?_ ?_
        · rintro ⟨keys,rfl⟩
          obtain ⟨entries',hen',hall⟩ := hn (.capabilities c) (by simp [needs])
          obtain rfl : entries' = entries := by simpa [hen] using hen'.symm
          exact hall e he
        · rintro rfl
          exact hp c body rfl entries hen e he
      exact ⟨⟨fields,x⟩,by rw [Entry.run,hfi,ok_bind,hx]; rfl⟩
    obtain ⟨entries',hm⟩ := mapM_ok hr
    exact ⟨_,by rw [run,getRecords_eq_ok_iff.mpr hen,ok_bind,hm]; rfl⟩

def size (db : Database) (c : Collection) : Option ℕ := (db.records c).map List.length

theorem size_run (hk : KeyEmpty db) (h : s.run env db = .ok db') (c : Collection) :
    size db' c = if s.assigns (.collection c) then some 0 else size db c := by
  cases s with
  | assign a =>
    obtain ⟨value,rfl⟩ := run_assign_eq_ok h
    rfl
  | create c' =>
    obtain rfl := run_create_eq_ok h
    by_cases hc : c' = c
    · subst hc; simp [size,assigns,setRecords_same]
    · simp [size,assigns,hc,setRecords_of_ne (Ne.symm hc)]
  | upgradeHostDatacenterNames =>
    rw [run_upgradeHostDatacenterNames hk] at h
    cases h
    rfl
  | forEach c' body u =>
    obtain ⟨entries,entries',he,hr,rfl⟩ := run_forEach_eq_ok h
    by_cases hc : c' = c
    · subst hc; simp [size,assigns,setRecords_same,he,hr.length_eq]
    · simp [size,assigns,setRecords_of_ne (Ne.symm hc)]

/-! ### The keys of the capabilities -/

/-- The keys that a dictionary has after the update, with those it had before but for `SSH+`. -/
def CapabilityUpdate.adds : CapabilityUpdate → List CapabilityKey
  | keep => []
  | create => copiedKeys
  | renameSshPlus => [.ossh]
  | disable keys => keys

def Statement.addsKeys : Statement → Collection → List CapabilityKey
  | .forEach c _ u, c' => if c = c' then u.adds else []
  | _, _ => []

/-- The servers of the collection that have capabilities have them with these keys. -/
def HasKeys (db : Database) (c : Collection) (keys : List CapabilityKey) : Prop :=
  ∀ entries, db.records c = some entries → ∀ e ∈ entries, ∀ d, e.capabilities = some (some d) →
    ∀ key ∈ keys, (d key).isSome

theorem isSome_disable_iff (keys : List CapabilityKey) (d : CapabilityDict) (key : CapabilityKey) :
    (keys.foldl (fun d key => Function.update d key (some false)) d key).isSome ↔
      key ∈ keys ∨ (d key).isSome := by
  induction keys generalizing d with
  | nil => simp
  | cons k keys ih =>
    rw [List.foldl_cons,ih]
    by_cases hk : key = k
    · simp [hk]
    · simp [hk]

theorem truthy_of_handshake {d : CapabilityDict} (h : (d .handshake).isSome) : d.truthy = true := by
  simp [CapabilityDict.truthy,copiedKeys,h]

theorem keys_capabilities_run {d' : CapabilityDict} {keys : List CapabilityKey}
    (h : u.run x = .ok (some (some d')))
    (hk : ∀ d, x = some (some d) → ∀ key ∈ keys, (d key).isSome) (hs : .handshake ∈ keys)
    (hp : .sshPlus ∉ keys) : ∀ key ∈ keys ++ u.adds, (d' key).isSome := by
  intro key hkey
  rw [List.mem_append] at hkey
  have hne : .sshPlus ∉ u.adds → key ≠ .sshPlus := by
    rintro ha rfl
    exact hkey.elim hp ha
  cases u with
  | keep =>
    cases h
    exact hk d' rfl key (by simpa [CapabilityUpdate.adds] using hkey)
  | create =>
    cases h
    cases key <;> first | rfl | exact absurd rfl (hne (by decide))
  | renameSshPlus =>
    match x, h with
    | some (some d), h =>
      cases hd : d .sshPlus with
      | none => simp [CapabilityUpdate.run,hd] at h
      | some b =>
        simp only [CapabilityUpdate.run,hd] at h
        cases h
        rw [update_of_ne (hne (by decide))]
        by_cases ho : key = .ossh
        · simp [ho]
        · have hold : key ∈ keys := by simpa [CapabilityUpdate.adds,ho] using hkey
          rw [update_of_ne ho]
          exact hk d rfl key hold
  | disable ks =>
    match x, h with
    | some none, h => cases h
    | some (some d), h =>
      have ht := truthy_of_handshake (hk d rfl _ hs)
      simp only [CapabilityUpdate.run,ht,if_true] at h
      cases h
      rw [isSome_disable_iff]
      rcases hkey with hkey | hkey
      · exact .inr (hk d rfl key hkey)
      · exact .inl hkey

theorem hasKeys_run {keys : List CapabilityKey} (hkey : KeyEmpty db) (h : s.run env db = .ok db')
    (hk : HasKeys db c keys) (hs : .handshake ∈ keys) (hp : .sshPlus ∉ keys) :
    HasKeys db' c (keys ++ s.addsKeys c) := by
  cases s with
  | assign a =>
    obtain ⟨value,rfl⟩ := run_assign_eq_ok h
    simpa [addsKeys,HasKeys] using hk
  | create c' =>
    obtain rfl := run_create_eq_ok h
    by_cases hc : c' = c
    · subst hc
      intro entries hen e he
      rw [setRecords_same] at hen
      cases hen
      cases he
    · simpa [addsKeys,HasKeys,setRecords_of_ne (Ne.symm hc)] using hk
  | upgradeHostDatacenterNames =>
    rw [run_upgradeHostDatacenterNames hkey] at h
    cases h
    simpa [addsKeys] using hk
  | forEach c' body u =>
    obtain ⟨entries,entries',hen,hr,rfl⟩ := run_forEach_eq_ok h
    by_cases hc : c' = c
    · subst hc
      have ha : (forEach c' body u).addsKeys c' = u.adds := if_pos rfl
      rw [ha]
      intro entries'' hen'' e' he' d' hd'
      rw [setRecords_same] at hen''
      cases hen''
      obtain ⟨e,he,hrun⟩ := exists_of_forall₂_mem hr he'
      have hcap := (entryRun_eq_ok hrun).2
      rw [hd'] at hcap
      exact keys_capabilities_run hcap (fun d hd => hk entries hen e he d hd) hs hp
    · simpa [addsKeys,hc,HasKeys,setRecords_of_ne (Ne.symm hc)] using hk

end Statement

end Psiphon.Ops.Upgrade
