import Psiphon.Lib.Hoare
import Psiphon.Python

/-!
# Loading and saving the database

`PersistentObject` of `psi_ops_cms.py`. Only a call that does not raise removes its temporary file
and gives the lock on the document to the object.
-/

namespace Psiphon.Ops.Persistence

structure Object (δ : Type) where
  version : Option String
  isLocked : Option Bool
  members : δ

/-- What a file or the document holds: nothing, the beginning of an encoded object, or all of it. -/
inductive Content (δ : Type) where
  | empty
  | beginning (obj : Object δ)
  | encoded (obj : Object δ)

/-- How much a call of `file.write` writes; it raises unless that is everything. -/
inductive Written where
  | everything
  | part
  | nothing
  deriving DecidableEq

/-- What the calls in one `load` or `save` come to; none of them is made twice. -/
structure Outcomes (δ : Type) where
  /-- `psi_data_config.py` is there. -/
  configured : Bool
  temporaryFile : Bool
  lockDocument : Bool
  exportDocument : Bool
  importDocument : Bool
  openFile : Bool
  read : Bool
  encode : Bool
  write : Written
  decode : Content δ → Py (Object δ)
  classVersion : String
  upgrade : Object δ → Py (Object δ)
  initializePlugins : Bool

structure World (δ : Type) where
  document : Content δ
  locked : Bool
  /-- The file `psi_ops.dat`. -/
  database : Content δ
  /-- The temporary file of the call. -/
  temporary : Option (Content δ)
  self : Object δ

abbrev Run (δ : Type) := EStateM PyError (World δ)

variable {δ : Type}

/-! ### The source -/

/-- A call to the outside that has its effect, or raises and changes nothing. -/
def call (succeeds : Bool) (effect : World δ → World δ) : Run δ Unit :=
  if succeeds then modify effect else throw .external

/-- `file.write(jsonpickle.encode(self))`. -/
def writeEncoded (o : Outcomes δ) (put : Content δ → World δ → World δ) : Run δ Unit := do
  call o.encode id
  let w ← get
  match o.write with
  | .everything => set (put (.encoded w.self) w)
  | .part =>
    set (put (.beginning w.self) w)
    throw .external
  | .nothing => throw .external

def saveToFile (o : Outcomes δ) : Run δ Unit := do
  -- mode `w` empties the file
  call o.openFile fun w => { w with database := .empty }
  writeEncoded o fun content w => { w with database := content }

def save (o : Outcomes δ) : Run δ Unit := do
  if o.configured then
    let isLocked := (← get).self.isLocked
    modify fun w => { w with self := { w.self with isLocked := none } }
    try
      call o.temporaryFile fun w => { w with temporary := some .empty }
      writeEncoded o fun content w => { w with temporary := some content }
    finally
      modify fun w => { w with self := { w.self with isLocked := isLocked } }
    call o.importDocument fun w => { w with document := w.temporary.getD .empty }
    modify fun w => { w with temporary := none }
  else saveToFile o

def loadFromFile (o : Outcomes δ) (content : Content δ) : Py (Object δ) := do
  if !o.openFile || !o.read then .error .external
  let obj ← o.decode content
  let obj := if obj.version = none then { obj with version := some "0.0" } else obj
  let obj ← if obj.version = some o.classVersion then pure obj else o.upgrade obj
  if !o.initializePlugins then .error .external
  return { obj with isLocked := some false }

def load (o : Outcomes δ) (lock : Bool) : Run δ (Object δ) := do
  if o.configured then
    call o.temporaryFile fun w => { w with temporary := some .empty }
    (if lock then call o.lockDocument fun w => { w with locked := true } else pure ())
    call o.exportDocument fun w => { w with temporary := some w.document }
    let obj ← MonadExcept.ofExcept (loadFromFile o ((← get).temporary.getD .empty))
    modify fun w => { w with temporary := none }
    return { obj with isLocked := some lock }
  else MonadExcept.ofExcept (loadFromFile o (← get).database)

/-! ### What must hold after a call -/

/-- No temporary file holds the database or a part of it. -/
def Clean (w : World δ) : Prop := ∀ content ∈ w.temporary, content = .empty

def stored (o : Outcomes δ) (w : World δ) : Content δ :=
  if o.configured then w.document else w.database

def LoadSafe (o : Outcomes δ) (lock : Bool) (w : World δ) : Prop :=
  match load o lock w with
  | .ok _ w' => Clean w'
  | .error _ w' => Clean w' ∧ (lock = true → w'.locked = w.locked)

def SaveSafe (o : Outcomes δ) (w : World δ) : Prop :=
  match save o w with
  | .ok _ w' => Clean w' ∧ w'.self.isLocked = w.self.isLocked ∧
    ∀ obj, stored o w' = .encoded obj → obj.isLocked ≠ some true
  | .error _ w' => Clean w' ∧ w'.self.isLocked = w.self.isLocked ∧ stored o w' = stored o w

/-- The file is read and decoded, and the object has the version of the class or is upgraded. -/
def Loads (o : Outcomes δ) (content : Content δ) : Prop :=
  o.openFile = true ∧ o.read = true ∧ o.initializePlugins = true ∧
    ∃ obj, o.decode content = .ok obj ∧ (obj.version.getD "0.0" = o.classVersion ∨
      ∃ new, o.upgrade { obj with version := some (obj.version.getD "0.0") } = .ok new)

/-- Once the temporary file is there and the lock is taken, the database is loaded; or the lock is
not a new one and there is nothing in the document. -/
def LoadsWell (o : Outcomes δ) (lock : Bool) (w : World δ) : Prop :=
  o.configured = true → o.temporaryFile = true → (lock = true → o.lockDocument = true) →
    (o.exportDocument = true ∧ Loads o w.document) ∨
      (lock = true → w.locked = true) ∧ (o.exportDocument = true → w.document = .empty)

/-- With the configuration, what is written is imported. Without it, the object is written and is
not locked; or what is left of the file is what was there. -/
def SavesWell (o : Outcomes δ) (w : World δ) : Prop :=
  if o.configured then o.temporaryFile = true → o.encode = true →
    o.write = .nothing ∨ (o.write = .everything ∧ o.importDocument = true)
  else o.openFile = true →
    if o.encode = true ∧ o.write = .everything then w.self.isLocked ≠ some true
    else w.database = if o.encode = true ∧ o.write = .part then .beginning w.self else .empty

section

variable {α : Type} {f : World δ → World δ} {g : Unit → Run δ α} {w : World δ}

@[simp] theorem call_true_bind : (call true f >>= g) w = g () (f w) := rfl

@[simp] theorem call_false_bind : (call false f >>= g) w = .error .external w := rfl

@[simp] theorem map_modify {a : PUnit → α} :
    (a <$> (modify f : Run δ PUnit)) w = .ok (a ⟨⟩) (f w) := rfl

@[simp] theorem ofExcept_bind {r : Py α} {g : α → Run δ α} : (MonadExcept.ofExcept r >>= g) w =
    match r with
      | .ok a => g a w
      | .error e => .error e w := by
  cases r <;> rfl

end

variable {o : Outcomes δ} {lock : Bool} {w : World δ}

theorem loads_iff {content : Content δ} :
    Loads o content ↔ ∃ obj, loadFromFile o content = .ok obj := by
  have hv (obj : Object δ) :
      (if obj.version = none then { obj with version := some "0.0" } else obj) =
      { obj with version := some (obj.version.getD "0.0") } := by
    obtain ⟨_ | v,_,_⟩ := obj <;> rfl
  rw [Loads,loadFromFile]
  simp only [hv]
  cases o.openFile with
  | false => exact iff_of_false (fun h => Bool.noConfusion h.1) nofun
  | true =>
    cases o.read with
    | false => exact iff_of_false (fun h => Bool.noConfusion h.2.1) nofun
    | true =>
      cases o.decode content with
      | error e => exact iff_of_false (fun ⟨_,_,_,_,h,_⟩ => nomatch h) nofun
      | ok obj =>
        by_cases hc : obj.version.getD "0.0" = o.classVersion
        · cases o.initializePlugins <;> simp [hc,bind,Except.bind,pure,Except.pure]
        · cases hu : o.upgrade { obj with version := some (obj.version.getD "0.0") } <;>
            cases o.initializePlugins <;> simp [hc,hu,bind,Except.bind,pure,Except.pure]

theorem loadSafe_iff (h : w.temporary = none) : LoadSafe o lock w ↔ LoadsWell o lock w := by
  have hclean : Clean w := by simp [Clean,h]
  rw [LoadSafe,LoadsWell,loads_iff,load]
  cases o.configured with
  | false =>
    refine iff_of_true ?_ nofun
    simp only [Bool.false_eq_true,if_false,Hoare.get_bind]
    cases loadFromFile o w.database with
    | ok obj => exact hclean
    | error e => exact ⟨hclean,fun _ => rfl⟩
  | true =>
    cases o.temporaryFile with
    | false => exact iff_of_true ⟨hclean,fun _ => rfl⟩ nofun
    | true =>
      cases hf : loadFromFile o w.document <;> cases lock <;> cases o.lockDocument <;>
        cases o.exportDocument <;> simp [Hoare.get_bind,hf,Clean,and_comm]

theorem writeEncoded_run (put : Content δ → World δ → World δ) : writeEncoded o put w =
    if o.encode = false ∨ o.write = .nothing then .error .external w
    else if o.write = .part then .error .external (put (.beginning w.self) w)
    else .ok () (put (.encoded w.self) w) := by
  rw [writeEncoded]
  cases o.encode with
  | false => rfl
  | true => cases o.write <;> rfl

theorem save_run (hc : o.configured = false) : save o w =
    if o.openFile then
      writeEncoded o (fun content w => { w with database := content }) { w with database := .empty }
    else .error .external w := by
  rw [save,hc,if_neg Bool.false_ne_true,saveToFile]
  cases o.openFile <;> rfl

/-- With the configuration the object is written as one that is not locked. -/
theorem save_configured_run (hc : o.configured = true) : save o w =
    let unlocked := { w.self with isLocked := none }
    if o.temporaryFile = false then .error .external w
    else if o.encode = false ∨ o.write = .nothing then
      .error .external { w with temporary := some .empty }
    else if o.write = .part then .error .external { w with temporary := some (.beginning unlocked) }
    else if o.importDocument then .ok () { w with document := .encoded unlocked, temporary := none }
    else .error .external { w with temporary := some (.encoded unlocked) } := by
  obtain ⟨configured,temporaryFile,_,_,importDocument,_,_,encode,write,_,_,_,_⟩ := o
  cases hc
  cases temporaryFile with
  | false => rfl
  | true =>
    cases encode with
    | false => rfl
    | true =>
      cases write with
      | nothing => rfl
      | part => rfl
      | everything => cases importDocument <;> rfl

theorem saveSafe_iff (h : w.temporary = none) : SaveSafe o w ↔ SavesWell o w := by
  have hclean : Clean w := by simp [Clean,h]
  rw [SaveSafe,SavesWell]
  cases hc : o.configured with
  | false =>
    -- no document: the file of the database itself is opened and written
    rw [save_run hc]
    cases o.openFile with
    | false => exact iff_of_true ⟨hclean,rfl,rfl⟩ nofun
    | true =>
      rw [if_pos rfl,writeEncoded_run]
      cases o.encode with
      | false => simp [Clean,h,stored,hc,eq_comm]
      | true => cases o.write <;> simp [Clean,h,stored,hc,eq_comm]
  | true =>
    rw [save_configured_run hc]
    cases o.temporaryFile with
    | false => exact iff_of_true ⟨hclean,rfl,rfl⟩ nofun
    | true =>
      cases o.encode with
      | false => simp [Clean,stored,hc]
      | true =>
        cases o.write with
        | nothing => simp [Clean,stored,hc]
        | part => simp [Clean]
        | everything => cases o.importDocument <;> simp [Clean,stored,hc]

/-- A `load` that fails once the document is locked or exported is not safe, nor a `save` that fails
once something is written. -/
theorem load_save_safe_iff (o : Outcomes δ) (lock : Bool) {w : World δ} (h : w.temporary = none) :
    (LoadSafe o lock w ↔ LoadsWell o lock w) ∧ (SaveSafe o w ↔ SavesWell o w) :=
  ⟨loadSafe_iff h,saveSafe_iff h⟩

def idle : Object Unit := ⟨some "0.0", some false, ()⟩

def returning : Outcomes Unit where
  configured := true
  temporaryFile := true
  lockDocument := true
  exportDocument := true
  importDocument := true
  openFile := true
  read := true
  encode := true
  write := .everything
  decode := fun _ => .ok idle
  classVersion := "0.0"
  upgrade := .ok
  initializePlugins := true

def started : World Unit := ⟨.encoded idle, false, .encoded idle, none, idle⟩

/-- The lock is refused. -/
theorem load_save_safe_refused :
    LoadSafe { returning with lockDocument := false } true started ∧
      SaveSafe { returning with lockDocument := false } started := by
  have h := load_save_safe_iff { returning with lockDocument := false } true (w := started) rfl
  exact ⟨h.1.mpr fun _ _ hl => Bool.noConfusion (hl rfl),h.2.mpr fun _ _ => .inr ⟨rfl,rfl⟩⟩

/-- The document stays locked and the temporary file there; and the file of the database is
empty. -/
theorem failed_load_and_save :
    load { returning with decode := fun _ => .error .valueError } true started =
      .error .valueError { started with locked := true, temporary := some (.encoded idle) } ∧
    save { returning with configured := false, encode := false } started =
      .error .external { started with database := .empty } :=
  ⟨rfl, rfl⟩

end Psiphon.Ops.Persistence
