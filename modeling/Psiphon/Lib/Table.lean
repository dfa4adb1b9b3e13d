import Mathlib.Data.List.Nodup

/-!
# Tables of records

A table keeps records under a key that is a field of the record itself, with no key twice.
-/

/-- Records with pairwise distinct keys. -/
@[ext]
structure Table {κ α : Type*} (key : α → κ) where
  records : List α
  nodup : (records.map key).Nodup

namespace Table

open List

variable {κ α β : Type*} {key : α → κ} {key' : β → κ}

instance : Membership α (Table key) := ⟨fun t r => r ∈ t.records⟩

variable {t : Table key} {r : α}

theorem mem_def : r ∈ t ↔ r ∈ t.records := .rfl

def empty (key : α → κ) : Table key := ⟨[], List.nodup_nil⟩

def filter (p : α → Bool) (t : Table key) : Table key :=
  ⟨t.records.filter p, t.nodup.sublist (List.filter_sublist.map key)⟩

def map (f : α → β) (hf : ∀ r, key' (f r) = key r) (t : Table key) : Table key' :=
  ⟨t.records.map f, by
    rw [List.map_map, show key' ∘ f = key from funext hf]
    exact t.nodup⟩

theorem eq_of_key_eq {r r' : α} (hr : r ∈ t) (hr' : r' ∈ t) (h : key r = key r') : r = r' :=
  inj_on_of_nodup_map t.nodup hr hr' h

section Lookup

variable [DecidableEq κ]

def get? (t : Table key) (k : κ) : Option α := t.records.find? fun r => key r = k

def contains (t : Table key) (k : κ) : Bool := (t.get? k).isSome

/-- The record is added when its key is new; otherwise the table stays as it is. -/
def add (t : Table key) (r : α) : Table key :=
  if h : key r ∈ t.records.map key then t
  else ⟨t.records ++ [r], by
    rw [List.map_append]
    exact t.nodup.append (List.nodup_singleton _) (by simpa using h)⟩

def modify (k : κ) (f : α → α) (hf : ∀ r, key (f r) = key r) (t : Table key) : Table key :=
  t.map (fun r => if key r = k then f r else r) fun r => by split <;> simp [hf]

def erase (t : Table key) (k : κ) : Table key := t.filter fun r => key r ≠ k

theorem get?_eq_some_iff {k : κ} : t.get? k = some r ↔ r ∈ t ∧ key r = k := by
  refine ⟨fun h => ⟨mem_of_find?_eq_some h,by simpa using List.find?_some h⟩,?_⟩
  rintro ⟨hr,rfl⟩
  cases h : t.get? (key r) with
  | none => exact absurd (List.find?_eq_none.mp h r hr) (by simp)
  | some r' =>
    have hr' : r' ∈ t := mem_of_find?_eq_some h
    exact congrArg some (eq_of_key_eq hr' hr (by simpa using List.find?_some h))

theorem get?_map (t : Table key) (f : α → β) (hf : ∀ r, key' (f r) = key r) (k : κ) :
    (t.map f hf).get? k = (t.get? k).map f := by
  simp only [get?,map,List.find?_map]
  congr 2
  funext r
  simp [hf]

theorem get?_modify (t : Table key) (k : κ) (f : α → α) (hf : ∀ r, key (f r) = key r) (k' : κ) :
    (t.modify k f hf).get? k' = if k' = k then (t.get? k).map f else t.get? k' := by
  rw [modify,get?_map]
  -- a record found under `k'` is changed exactly when `k' = k`
  have hk : ∀ r ∈ t.get? k', key r = k' := fun r hr => (get?_eq_some_iff.mp hr).2
  by_cases h : k' = k
  · subst h
    rw [if_pos rfl]
    exact Option.map_congr fun r hr => if_pos (hk r hr)
  · rw [if_neg h]
    cases hr : t.get? k' with
    | none => rfl
    | some r => simp [hk r hr,h]

theorem contains_iff {k : κ} : t.contains k = true ↔ ∃ r ∈ t, key r = k := by
  simp only [contains,Option.isSome_iff_exists,get?_eq_some_iff]

theorem records_add (h : t.contains (key r) = false) : (t.add r).records = t.records ++ [r] := by
  have hn : key r ∉ t.records.map key := fun hm => by
    obtain ⟨r',hr',hk⟩ := mem_map.mp hm
    exact absurd (contains_iff.mpr ⟨r',hr',hk⟩) (Bool.eq_false_iff.mp h)
  rw [add,dif_neg hn]

theorem mem_add {r r' : α} (h : t.contains (key r) = false) : r' ∈ t.add r ↔ r' ∈ t ∨ r' = r := by
  rw [mem_def,records_add h,mem_append,mem_singleton,← mem_def]

theorem contains_add {k : κ} (h : t.contains (key r) = false) (hk : t.contains k = false)
    (hne : k ≠ key r) : (t.add r).contains k = false := by
  rw [Bool.eq_false_iff] at hk ⊢
  intro hc
  obtain ⟨r',hr',rfl⟩ := contains_iff.mp hc
  rcases (mem_add h).mp hr' with ho | rfl
  · exact hk (contains_iff.mpr ⟨r',ho,rfl⟩)
  · exact hne rfl

theorem map_modify (t : Table key) (k : κ) (f : α → α) (hf : ∀ r, key (f r) = key r)
    (g : α → β) (hg : ∀ r, key' (g r) = key r) (hgf : ∀ r, g (f r) = g r) :
    (t.modify k f hf).map g hg = t.map g hg := by
  apply Table.ext
  simp only [modify,map,map_map]
  apply map_congr_left
  intro r _
  by_cases h : key r = k <;> simp [h,hgf]

end Lookup

end Table
