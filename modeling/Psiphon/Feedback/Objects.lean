import Psiphon.Lib.Fallible
import Mathlib.Data.Int.Notation
import Mathlib.Data.List.Nodup

/-!
# The objects of the feedback decryptor

What `json` and `yaml` load, with the operations of Python on them, and the walks of `utils.py`.
-/

namespace Psiphon.Feedback

open List

abbrev Text := List Char

inductive Exn where
  | typeError
  | valueError
  | keyError
  | indexError
  | attributeError
  | runtimeError
  | decryptorException
  | m2CryptoError
  | yamlError
  /-- `yaml.constructor.ConstructorError`, a `YAMLError` -/
  | constructorError
  deriving DecidableEq, Repr

abbrev Raises := Except Exn

inductive Key where
  | str (text : Text)
  | int (n : ℤ)
  deriving DecidableEq, Repr

abbrev Path := List Key

inductive StrKind where
  | byte
  | unicode
  deriving DecidableEq, Repr

inductive Obj where
  | none
  | bool (b : Bool)
  | int (n : ℤ)
  /-- A float that prints so. -/
  | float (repr : Text)
  | str (kind : StrKind) (text : Text)
  | datetime (text : Text)
  | list (items : List Obj)
  | dict (entries : List (Key × Obj))

namespace Obj

def truthy : Obj → Bool
  | none => false
  | bool b => b
  | int n => n != 0
  | float repr => repr != "0.0".toList && repr != "-0.0".toList
  | str _ text => !text.isEmpty
  | datetime _ => true
  | list items => !items.isEmpty
  | dict entries => !entries.isEmpty

def isDict : Obj → Bool
  | dict _ => true
  | _ => false

def isLeaf : Obj → Bool
  | list _ => false
  | dict _ => false
  | _ => true

/-! ### Items -/

def lookup (key : Key) (entries : List (Key × Obj)) : Option Obj :=
  (entries.find? fun entry => entry.1 = key).map Prod.snd

/-- `entries[key] = value` -/
def insert (key : Key) (value : Obj) : List (Key × Obj) → List (Key × Obj)
  | [] => [(key, value)]
  | (k, v) :: entries =>
    if k = key then (k, value) :: entries else (k, v) :: insert key value entries

/-- The position that an index means, negative ones from the end. -/
def position (length : ℕ) (n : ℤ) : Option ℕ :=
  let i := if n < 0 then n + length else n
  if 0 ≤ i ∧ i < length then some i.toNat else .none

/-- `obj[key]` -/
def getItem : Obj → Key → Raises Obj
  | dict entries, key =>
    match lookup key entries with
    | some value => .ok value
    | .none => .error .keyError
  | list items, .int n =>
    match (position items.length n).bind fun i => items[i]? with
    | some value => .ok value
    | .none => .error .indexError
  | str kind text, .int n =>
    match (position text.length n).bind fun i => text[i]? with
    | some c => .ok (str kind [c])
    | .none => .error .indexError
  | _, _ => .error .typeError

/-- `obj[key] = value`, with the object after it -/
def setItem : Obj → Key → Obj → Raises Obj
  | dict entries, key, value => .ok (dict (insert key value entries))
  | list items, .int n, value =>
    match position items.length n with
    | some i => .ok (list (items.set i value))
    | .none => .error .indexError
  | _, _, _ => .error .typeError

/-- `del obj[key]`, with the object after it -/
def delItem : Obj → Key → Raises Obj
  | dict entries, key =>
    match lookup key entries with
    | some _ => .ok (dict (entries.filter fun entry => entry.1 ≠ key))
    | .none => .error .keyError
  | list items, .int n =>
    match position items.length n with
    | some i => .ok (list (items.eraseIdx i))
    | .none => .error .indexError
  | _, _ => .error .typeError

/-- `obj.get(key, default)` -/
def get (obj : Obj) (key : Key) (default : Obj) : Raises Obj :=
  match obj with
  | dict entries => .ok ((lookup key entries).getD default)
  | _ => .error .attributeError

/-- Changes the object at a path. The objects on the way are changed in place. -/
def modifyAt (f : Obj → Raises Obj) : Obj → Path → Raises Obj
  | obj, [] => f obj
  | obj, key :: path => do
    let target ← obj.getItem key
    let target ← modifyAt f target path
    obj.setItem key target

/-- `assign_value_to_obj_at_path` after its first test. -/
def setAt : Obj → Path → Obj → Raises Obj
  | obj, [], _ => .ok obj
  | obj, [key], value => obj.setItem key value
  | obj, key :: next :: path, value => do
    let target ← obj.getItem key
    let target ← setAt target (next :: path) value
    obj.setItem key target

def assignValueToObjAtPath (obj : Obj) (path : Path) (value : Obj) : Raises Obj :=
  if obj.truthy && !path.isEmpty then obj.setAt path value else .ok obj

def renameKeyInObjAtPath (obj : Obj) (path : Path) (newKey : Key) : Raises Obj :=
  match obj.truthy, path.getLast? with
  | true, some key =>
    obj.modifyAt (fun target => do
      let value ← target.getItem key
      let target ← target.setItem newKey value
      target.delItem key) path.dropLast
  | _, _ => .ok obj

/-! ### Walks -/

mutual

def objwalk (path : Path) : Obj → List (Path × Obj)
  | dict entries => walkEntries path entries
  | list items => walkItems path 0 items
  | leaf => [(path, leaf)]

def walkEntries (path : Path) : List (Key × Obj) → List (Path × Obj)
  | [] => []
  | (key, value) :: entries => objwalk (path ++ [key]) value ++ walkEntries path entries

def walkItems (path : Path) (i : ℕ) : List Obj → List (Path × Obj)
  | [] => []
  | value :: items => objwalk (path ++ [.int i]) value ++ walkItems path (i + 1) items

end

mutual

def WellFormed : Obj → Prop
  | dict entries => (entries.map Prod.fst).Nodup ∧ WellFormedEntries entries
  | list items => WellFormedItems items
  | _ => True

def WellFormedEntries : List (Key × Obj) → Prop
  | [] => True
  | (_, value) :: entries => value.WellFormed ∧ WellFormedEntries entries

def WellFormedItems : List Obj → Prop
  | [] => True
  | value :: items => value.WellFormed ∧ WellFormedItems items

end

mutual

def mapLeaves (f : Path → Obj → Obj) (path : Path) : Obj → Obj
  | dict entries => dict (mapEntries f path entries)
  | list items => list (mapItems f path 0 items)
  | leaf => f path leaf

def mapEntries (f : Path → Obj → Obj) (path : Path) : List (Key × Obj) → List (Key × Obj)
  | [] => []
  | (key, value) :: entries =>
    (key, mapLeaves f (path ++ [key]) value) :: mapEntries f path entries

def mapItems (f : Path → Obj → Obj) (path : Path) (i : ℕ) : List Obj → List Obj
  | [] => []
  | value :: items => mapLeaves f (path ++ [.int i]) value :: mapItems f path (i + 1) items

end

theorem objwalk_of_isLeaf {obj : Obj} (h : obj.isLeaf = true) (path : Path) :
    obj.objwalk path = [(path, obj)] := by
  cases obj with
  | list => cases h
  | dict => cases h
  | _ => simp [objwalk]

theorem mapLeaves_of_isLeaf {obj : Obj} (h : obj.isLeaf = true) (f : Path → Obj → Obj)
    (path : Path) : obj.mapLeaves f path = f path obj := by
  cases obj with
  | list => cases h
  | dict => cases h
  | _ => simp [mapLeaves]

mutual

variable {f : Path → Obj → Obj}

/-- When leaves become leaves, the rewritten object has the same paths. -/
theorem objwalk_mapLeaves (hf : ∀ path leaf, leaf.isLeaf = true → (f path leaf).isLeaf = true)
    (path : Path) :
    ∀ obj : Obj, (obj.mapLeaves f path).objwalk path =
      (obj.objwalk path).map fun entry => (entry.1, f entry.1 entry.2)
  | dict entries => by simpa [mapLeaves,objwalk] using walkEntries_mapEntries hf path entries
  | list items => by simpa [mapLeaves,objwalk] using walkItems_mapItems hf path 0 items
  | none => by simp [mapLeaves,objwalk,objwalk_of_isLeaf (hf path none rfl)]
  | bool b => by simp [mapLeaves,objwalk,objwalk_of_isLeaf (hf path (bool b) rfl)]
  | int n => by simp [mapLeaves,objwalk,objwalk_of_isLeaf (hf path (int n) rfl)]
  | float r => by simp [mapLeaves,objwalk,objwalk_of_isLeaf (hf path (float r) rfl)]
  | str kind text => by simp [mapLeaves,objwalk,objwalk_of_isLeaf (hf path (str kind text) rfl)]
  | datetime t => by simp [mapLeaves,objwalk,objwalk_of_isLeaf (hf path (datetime t) rfl)]

theorem walkEntries_mapEntries (hf : ∀ path leaf, leaf.isLeaf = true → (f path leaf).isLeaf = true)
    (path : Path) :
    ∀ entries : List (Key × Obj), walkEntries path (mapEntries f path entries) =
      (walkEntries path entries).map fun entry => (entry.1, f entry.1 entry.2)
  | [] => by simp [mapEntries,walkEntries]
  | (key, value) :: entries => by
    rw [mapEntries,walkEntries,walkEntries,map_append,
      objwalk_mapLeaves hf (path ++ [key]) value,walkEntries_mapEntries hf path entries]

theorem walkItems_mapItems (hf : ∀ path leaf, leaf.isLeaf = true → (f path leaf).isLeaf = true)
    (path : Path) (i : ℕ) :
    ∀ items : List Obj, walkItems path i (mapItems f path i items) =
      (walkItems path i items).map fun entry => (entry.1, f entry.1 entry.2)
  | [] => by simp [mapItems,walkItems]
  | value :: items => by
    rw [mapItems,walkItems,walkItems,map_append,
      objwalk_mapLeaves hf (path ++ [Key.int i]) value,walkItems_mapItems hf path (i + 1) items]

end

/-! ### Walks that assign -/

mutual

theorem objwalk_eq_map (path : Path) : ∀ obj : Obj,
    obj.objwalk path = (obj.objwalk []).map fun entry => (path ++ entry.1, entry.2)
  | dict entries => by simpa [objwalk] using walkEntries_eq_map path entries
  | list items => by simpa [objwalk] using walkItems_eq_map path 0 items
  | none => by simp [objwalk]
  | bool b => by simp [objwalk]
  | int n => by simp [objwalk]
  | float r => by simp [objwalk]
  | str kind text => by simp [objwalk]
  | datetime t => by simp [objwalk]

theorem walkEntries_eq_map (path : Path) : ∀ entries : List (Key × Obj),
    walkEntries path entries =
      (walkEntries [] entries).map fun entry => (path ++ entry.1, entry.2)
  | [] => by simp [walkEntries]
  | (key, value) :: entries => by
    rw [walkEntries,walkEntries,map_append,objwalk_eq_map (path ++ [key]) value,
      objwalk_eq_map ([] ++ [key]) value,walkEntries_eq_map path entries,map_map]
    simp [Function.comp_def]

theorem walkItems_eq_map (path : Path) (i : ℕ) : ∀ items : List Obj,
    walkItems path i items = (walkItems [] i items).map fun entry => (path ++ entry.1, entry.2)
  | [] => by simp [walkItems]
  | value :: items => by
    rw [walkItems,walkItems,map_append,objwalk_eq_map (path ++ [Key.int i]) value,
      objwalk_eq_map ([] ++ [Key.int i]) value,walkItems_eq_map path (i + 1) items,map_map]
    simp [Function.comp_def]

end

theorem objwalk_singleton (key : Key) (obj : Obj) :
    obj.objwalk [key] = (obj.objwalk []).map fun entry => (key :: entry.1, entry.2) :=
  objwalk_eq_map [key] obj

/-- The objects that have a part at a key are given by the part. -/
structure Hole (key : Key) (plug : Obj → Obj) : Prop where
  getItem : ∀ part, (plug part).getItem key = .ok part
  setItem : ∀ part new, (plug part).setItem key new = .ok (plug new)

variable {before : List (Key × Obj)}

theorem insert_append {key : Key} (h : key ∉ before.map Prod.fst) (part new : Obj)
    (after : List (Key × Obj)) :
    insert key new (before ++ (key, part) :: after) = before ++ (key, new) :: after := by
  induction before with
  | nil => simp [insert]
  | cons entry before ih =>
    rw [map_cons,mem_cons,not_or] at h
    rw [cons_append,insert,if_neg (Ne.symm h.1),ih h.2,cons_append]

theorem lookup_append {key : Key} (h : key ∉ before.map Prod.fst) (part : Obj)
    (after : List (Key × Obj)) : lookup key (before ++ (key, part) :: after) = some part := by
  induction before with
  | nil => simp [lookup]
  | cons entry before ih =>
    rw [map_cons,mem_cons,not_or] at h
    rw [cons_append,lookup,find?_cons_of_neg (by simpa using Ne.symm h.1)]
    exact ih h.2

theorem hole_dict {key : Key} (h : key ∉ before.map Prod.fst) (after : List (Key × Obj)) :
    Hole key fun part => dict (before ++ (key, part) :: after) where
  getItem part := by rw [Obj.getItem,lookup_append h]
  setItem part new := by rw [Obj.setItem,insert_append h]

theorem position_length (before : List Obj) (part : Obj) (after : List Obj) :
    position (before ++ part :: after).length before.length = some before.length := by
  have hlt : (before.length : ℤ) < (before ++ part :: after).length := by
    rw [length_append,length_cons]
    omega
  have hn : ¬ (before.length : ℤ) < 0 := by omega
  rw [position,if_neg hn,if_pos ⟨Int.natCast_nonneg _,hlt⟩,Int.toNat_natCast]

theorem hole_list (before after : List Obj) :
    Hole (.int before.length) fun part => list (before ++ part :: after) where
  getItem part := by
    rw [Obj.getItem,position_length,Option.bind_some,getElem?_append_right (Nat.le_refl _),
      Nat.sub_self,getElem?_cons_zero]
  setItem part new := by
    rw [Obj.setItem,position_length]
    show Except.ok (list ((before ++ part :: after).set before.length new)) = _
    rw [set_append_right _ _ (Nat.le_refl _),Nat.sub_self,set_cons_zero]

def setAll (obj : Obj) (path : Path) (values : List Obj) : Raises Obj :=
  values.foldlM (fun obj value => obj.setAt path value) obj

section Hole

variable {key : Key} {plug : Obj → Obj}

theorem Hole.setAt (h : Hole key plug) (part : Obj) {path : Path} (hp : path ≠ [])
    (value : Obj) : (plug part).setAt (key :: path) value = (part.setAt path value).map plug := by
  cases path with
  | nil => exact absurd rfl hp
  | cons next path =>
    rw [Obj.setAt,h.getItem]
    show (part.setAt (next :: path) value).bind _ = _
    cases part.setAt (next :: path) value with
    | error e => rfl
    | ok new => exact h.setItem part new

theorem Hole.setAll (h : Hole key plug) (part : Obj) {path : Path} (hp : path ≠ [])
    (values : List Obj) :
    (plug part).setAll (key :: path) values = (part.setAll path values).map plug := by
  induction values generalizing part with
  | nil => rfl
  | cons value values ih =>
    rw [Obj.setAll,Obj.setAll,foldlM_cons,foldlM_cons,h.setAt part hp]
    cases part.setAt path value with
    | error e => rfl
    | ok new => exact ih new

theorem Hole.setAll_singleton (h : Hole key plug) (part : Obj) (values : List Obj) :
    (plug part).setAll [key] values = .ok (plug (values.getLast?.getD part)) := by
  induction values generalizing part with
  | nil => rfl
  | cons value values ih =>
    rw [Obj.setAll,foldlM_cons]
    have hs : (plug part).setAt [key] value = .ok (plug value) := h.setItem part value
    rw [hs]
    refine (ih value).trans ?_
    cases values with
    | nil => rfl
    | cons next values => rw [getLast?_cons_cons]; simp [getLast?_cons]

/-- A loop over paths through a key is the loop on the part. -/
theorem foldlM_plug {β : Type} {f g : Obj → β → Raises Obj}
    {xs : List β} (hfg : ∀ part, ∀ x ∈ xs, f (plug part) x = (g part x).map plug) (part : Obj) :
    xs.foldlM f (plug part) = (xs.foldlM g part).map plug := by
  induction xs generalizing part with
  | nil => rfl
  | cons x xs ih =>
    rw [foldlM_cons,foldlM_cons,hfg part x mem_cons_self]
    cases g part x with
    | error e => rfl
    | ok new => exact ih (fun part y hy => hfg part y (mem_cons_of_mem x hy)) new

end Hole

/-- The walk from a place in the object, with what is assigned to each leaf. -/
def visit (values : Path → Obj → List Obj) (here : Path) (leaves : List (Path × Obj)) (obj : Obj) :
    Raises Obj :=
  leaves.foldlM (fun obj leaf => obj.setAll leaf.1 (values (here ++ leaf.1) leaf.2)) obj

def lastValue (values : Path → Obj → List Obj) (path : Path) (leaf : Obj) : Obj :=
  (values path leaf).getLast?.getD leaf

theorem objwalk_ne_nil {obj : Obj} (h : obj.isLeaf = false) :
    ∀ entry ∈ obj.objwalk [], entry.1 ≠ [] := by
  have he : ∀ entries : List (Key × Obj), ∀ entry ∈ walkEntries [] entries, entry.1 ≠ [] := by
    intro entries
    induction entries with
    | nil => simp [walkEntries]
    | cons e entries ih =>
      intro entry hen
      rw [walkEntries,nil_append,objwalk_singleton] at hen
      obtain hen | hen := mem_append.mp hen
      · obtain ⟨e,-,rfl⟩ := mem_map.mp hen
        exact cons_ne_nil _ _
      · exact ih entry hen
  have hi : ∀ (items : List Obj) (i : ℕ), ∀ entry ∈ walkItems [] i items, entry.1 ≠ [] := by
    intro items
    induction items with
    | nil => simp [walkItems]
    | cons value items ih =>
      intro i entry hen
      rw [walkItems,nil_append,objwalk_singleton] at hen
      obtain hen | hen := mem_append.mp hen
      · obtain ⟨e,-,rfl⟩ := mem_map.mp hen
        exact cons_ne_nil _ _
      · exact ih (i + 1) entry hen
  cases obj with
  | dict entries => simpa [objwalk] using he entries
  | list items => simpa [objwalk] using hi items 0
  | _ => cases h

theorem Hole.visit {key : Key} {plug : Obj → Obj} (h : Hole key plug)
    (values : Path → Obj → List Obj) (he : Path) {part : Obj} (hp : part.isLeaf = false →
      visit values (he ++ [key]) (part.objwalk []) part =
        .ok (part.mapLeaves (lastValue values) (he ++ [key]))) :
    Obj.visit values he (part.objwalk [key]) (plug part) =
      .ok (plug (part.mapLeaves (lastValue values) (he ++ [key]))) := by
  cases hl : part.isLeaf with
  | true =>
    rw [objwalk_of_isLeaf hl,mapLeaves_of_isLeaf hl,Obj.visit,foldlM_cons,h.setAll_singleton]
    rfl
  | false =>
    have hpl : Obj.visit values he (part.objwalk [key]) (plug part) =
        (Obj.visit values (he ++ [key]) (part.objwalk []) part).map plug := by
      rw [objwalk_singleton,Obj.visit,foldlM_map]
      refine foldlM_plug (fun part' leaf hl' => ?_) part
      rw [h.setAll part' (objwalk_ne_nil hl leaf hl'),append_assoc,singleton_append]
    rw [hpl,hp hl]
    rfl

theorem visit_append (values : Path → Obj → List Obj) (he : Path) (xs ys : List (Path × Obj))
    (obj : Obj) : visit values he (xs ++ ys) obj =
      (visit values he xs obj).bind (visit values he ys) := foldlM_append ..

mutual

/-- The walk rewrites every leaf. -/
theorem visit_objwalk (values : Path → Obj → List Obj) (here : Path) :
    ∀ obj : Obj, obj.WellFormed → obj.isLeaf = false →
      visit values here (obj.objwalk []) obj = .ok (obj.mapLeaves (lastValue values) here)
  | dict entries, hwf, _ => by
    obtain ⟨hnd,he⟩ := hwf
    exact visit_walkEntries values here [] entries hnd he
  | list items, hwf, _ => by
    exact visit_walkItems values here [] items hwf
  | none, _, h => by cases h
  | bool _, _, h => by cases h
  | int _, _, h => by cases h
  | float _, _, h => by cases h
  | str _ _, _, h => by cases h
  | datetime _, _, h => by cases h

theorem visit_walkEntries (values : Path → Obj → List Obj) (here : Path)
    (before : List (Key × Obj)) : ∀ entries : List (Key × Obj),
      ((before ++ entries).map Prod.fst).Nodup → WellFormedEntries entries →
      visit values here (walkEntries [] entries) (dict (before ++ entries)) =
        .ok (dict (before ++ mapEntries (lastValue values) here entries))
  | [], _, _ => by rw [walkEntries,mapEntries]; rfl
  | (key, value) :: entries, hnd, hwf => by
    obtain ⟨hv,he⟩ := hwf
    have hkey : key ∉ before.map Prod.fst := by
      rw [map_append,map_cons] at hnd
      exact fun hmem => (nodup_append.mp hnd).2.2 key hmem key (.head _) rfl
    have hp := (hole_dict hkey entries).visit values here
      (visit_objwalk values (here ++ [key]) value hv)
    rw [walkEntries,nil_append,visit_append,hp,mapEntries]
    have hnd' : ((before ++ [(key, value.mapLeaves (lastValue values) (here ++ [key]))] ++
        entries).map Prod.fst).Nodup := by simpa using hnd
    have hr := visit_walkEntries values here
      (before ++ [(key, value.mapLeaves (lastValue values) (here ++ [key]))]) entries hnd' he
    simpa [Except.bind] using hr

theorem visit_walkItems (values : Path → Obj → List Obj) (here : Path) (before : List Obj) :
    ∀ items : List Obj, WellFormedItems items →
      visit values here (walkItems [] before.length items) (list (before ++ items)) =
        .ok (list (before ++ mapItems (lastValue values) here before.length items))
  | [], _ => by rw [walkItems,mapItems]; rfl
  | value :: items, hwf => by
    obtain ⟨hv,hi⟩ := hwf
    have hp := (hole_list before items).visit values here
      (visit_objwalk values (here ++ [Key.int before.length]) value hv)
    rw [walkItems,nil_append,visit_append,hp,mapItems]
    have hr := visit_walkItems values here
      (before ++ [value.mapLeaves (lastValue values) (here ++ [Key.int before.length])]) items hi
    simpa [Except.bind] using hr

end

end Obj

end Psiphon.Feedback
