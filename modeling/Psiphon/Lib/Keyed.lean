import Mathlib.Data.List.Dedup

/-!
# Lists with keys

Lists whose elements have pairwise different keys, and the loops that edit them one key at a time.
-/

namespace Keyed

open List

variable {α κ : Type*} [DecidableEq κ] (key : α → κ)

def find (k : κ) (l : List α) : Option α := l.find? fun a => key a = k

def without (k : κ) (l : List α) : List α := l.filter fun a => key a ≠ k

def outside (ks : List κ) (l : List α) : List α := l.filter fun a => key a ∉ ks

variable {key} {k : κ} {ks : List κ} {a b : α} {l l' as : List α}

theorem find_eq_none_iff : find key k l = none ↔ k ∉ l.map key := by
  simp [find]

theorem find_eq_some_iff (h : (l.map key).Nodup) : find key k l = some a ↔ a ∈ l ∧ key a = k := by
  constructor
  · intro hf
    exact ⟨mem_of_find?_eq_some hf,by simpa using List.find?_some hf⟩
  · rintro ⟨hm,rfl⟩
    obtain ⟨b,hb⟩ : ∃ b, find key (key a) l = some b := by
      refine Option.ne_none_iff_exists'.mp fun hn => ?_
      exact find_eq_none_iff.mp hn (mem_map_of_mem hm)
    have hk : key b = key a := by simpa using List.find?_some hb
    rwa [inj_on_of_nodup_map h (mem_of_find?_eq_some hb) hm hk] at hb

theorem find_perm (h : (l.map key).Nodup) (hp : l'.Perm l) : find key k l' = find key k l := by
  have h' : (l'.map key).Nodup := (hp.map key).nodup_iff.mpr h
  ext a
  rw [find_eq_some_iff h',find_eq_some_iff h,hp.mem_iff]

theorem find_append : find key k (l ++ l') = (find key k l).or (find key k l') :=
  List.find?_append

theorem without_eq_self (h : k ∉ l.map key) : without key k l = l := by
  refine filter_eq_self.mpr fun a ha => ?_
  simp only [ne_eq,decide_not,Bool.not_eq_true',decide_eq_false_iff_not]
  rintro rfl
  exact h (mem_map_of_mem ha)

theorem outside_nil : outside key [] l = l := filter_eq_self.mpr (by simp)

theorem outside_append : outside key ks (l ++ l') = outside key ks l ++ outside key ks l' :=
  filter_append ..

theorem without_outside : without key k (outside key ks l) = outside key (k :: ks) l := by
  rw [without,outside,outside,filter_filter]
  refine filter_congr fun a _ => ?_
  simp [not_or]

theorem outside_cons (h : k ∉ l.map key) : outside key (k :: ks) l = outside key ks l := by
  rw [← without_outside,without_eq_self]
  exact fun hm => h ((filter_sublist.map key).subset hm)

theorem find_outside (h : k ∉ ks) : find key k (outside key ks l) = find key k l := by
  rw [find,outside,List.find?_filter]
  refine congrArg (l.find? ·) (funext fun a => ?_)
  by_cases ha : key a = k
  · simp [ha,h]
  · simp [ha]

theorem notMem_keys_outside (h : k ∈ ks) : k ∉ (outside key ks l).map key := by
  intro hm
  obtain ⟨a,ha,rfl⟩ := mem_map.mp hm
  have ho : key a ∉ ks := by simpa using (mem_filter.mp ha).2
  exact ho h

theorem nodup_append_outside (has : (as.map key).Nodup) (hl : (l.map key).Nodup)
    (hks : ∀ k ∈ as.map key, k ∈ ks) : ((as ++ outside key ks l).map key).Nodup := by
  rw [map_append]
  refine has.append (hl.sublist (filter_sublist.map key)) fun k hk hk' => ?_
  exact notMem_keys_outside (hks k hk) hk'

theorem perm_without (h : (l.map key).Nodup) (hf : find key k l = some a) :
    (a :: without key k l).Perm l := by
  induction l with
  | nil => cases hf
  | cons b l ih =>
    obtain ⟨hb,hl⟩ := nodup_cons.mp h
    by_cases hkey : key b = k
    · have hab : b = a := by simpa [find,hkey] using hf
      subst hab hkey
      rw [show without key (key b) (b :: l) = without key (key b) l by simp [without],
        without_eq_self hb]
    · have hf' : find key k l = some a := by simpa [find,hkey] using hf
      rw [show without key k (b :: l) = b :: without key k l by simp [without,hkey]]
      exact (List.Perm.swap b a _).trans ((ih hl hf').cons b)

/-! ### To the back -/

variable (key) in
/-- The element with the key becomes the last one. -/
def moveBack (l : List α) (k : κ) : List α :=
  match find key k l with
  | none => l
  | some a => without key k l ++ [a]

theorem perm_moveBack (h : (l.map key).Nodup) : (moveBack key l k).Perm l := by
  rw [moveBack]
  split
  · rfl
  · exact (perm_append_singleton _ _).trans (perm_without h ‹_›)

/-- What is not moved keeps its order, and what is moved follows in the order of the last
occurrences. -/
theorem foldl_moveBack (h : (l.map key).Nodup) (ks : List κ) : ks.foldl (moveBack key) l =
      outside key ks l ++ ks.dedup.filterMap fun k => find key k l := by
  induction ks generalizing l with
  | nil => simp [outside_nil]
  | cons k ks ih =>
    have hp : (moveBack key l k).Perm l := perm_moveBack h
    rw [foldl_cons,ih ((hp.map key).nodup_iff.mpr h)]
    simp only [find_perm h hp]
    rw [moveBack]
    by_cases hmem : k ∈ ks
    · -- a later move of the key decides
      have hs : ∀ a, key a = k → outside key ks (without key k l ++ [a]) = outside key ks l := by
        rintro a rfl
        rw [outside,filter_append,without,filter_filter,outside]
        simp only [hmem,filter_cons,not_true_eq_false,decide_false,Bool.false_eq_true,
          if_false,filter_nil,append_nil]
        refine filter_congr fun b _ => ?_
        by_cases hb : key b = key a
        · simp [hb,hmem]
        · simp [hb]
      have hc : outside key (k :: ks) l = outside key ks l := by
        refine filter_congr fun b _ => ?_
        by_cases hb : key b = k
        · simp [hb,hmem]
        · simp [hb]
      rw [dedup_cons_of_mem hmem,hc]
      cases hf : find key k l with
      | none => rfl
      | some a => rw [hs a ((find_eq_some_iff h).mp hf).2]
    · rw [dedup_cons_of_notMem hmem,filterMap_cons]
      cases hf : find key k l with
      | none => rw [outside_cons (find_eq_none_iff.mp hf)]
      | some a =>
        have hkey : key a = k := ((find_eq_some_iff h).mp hf).2
        have ho : outside key ks (without key k l ++ [a]) = outside key (k :: ks) l ++ [a] := by
          rw [← without_outside,outside,filter_append,outside,without,without,
            filter_filter,filter_filter]
          simp [hkey,hmem,Bool.and_comm]
        rw [ho,append_assoc]
        rfl

/-! ### To the front -/

variable (key) in
/-- The element becomes the first one and the only one with its key. -/
def moveFront (a : α) (l : List α) : List α := a :: without key (key a) l

theorem foldr_moveFront (h : (as.map key).Nodup) :
    as.foldr (moveFront key) l = as ++ outside key (as.map key) l := by
  induction as with
  | nil => exact outside_nil.symm
  | cons a as ih =>
    obtain ⟨ha,has⟩ := nodup_cons.mp h
    rw [foldr_cons,ih has,moveFront,without,filter_append]
    show a :: (without key (key a) as ++ without key (key a) (outside key (as.map key) l)) = _
    rw [without_eq_self ha,without_outside]
    rfl

/-! ### Behind a head -/

variable (key) in
/-- What follows a head with the key `k` when the elements are moved behind it. -/
def behind (k : κ) (as l : List α) : List α := without key k as ++ outside key (as.map key) l

theorem behind_nil : behind key k [] l = l := outside_nil

theorem keys_without_sublist : ((without key k as).map key).Sublist (as.map key) :=
  filter_sublist.map key

theorem behind_cons_of_eq (h : key a ∉ l.map key) :
    behind key (key a) (a :: as) l = behind key (key a) as l := by
  rw [behind,map_cons,outside_cons h,without,filter_cons_of_neg (by simp)]
  rfl

theorem behind_cons_of_ne (hne : key a ≠ k) (h : key a ∉ as.map key) :
    behind key k (a :: as) l = moveFront key a (behind key k as l) := by
  have hw : key a ∉ (without key k as).map key :=
    fun hmem => h (keys_without_sublist.subset hmem)
  have hf : without key (key a) (behind key k as l) =
      without key k as ++ without key (key a) (outside key (as.map key) l) := by
    rw [behind,without,filter_append]
    exact congrArg (· ++ _) (without_eq_self hw)
  rw [moveFront,hf,without_outside,behind,without,filter_cons_of_pos (by simpa)]
  rfl

theorem find_behind {k' : κ} (h : k' ∉ as.map key) :
    find key k' (behind key k as l) = find key k' l := by
  have hw : k' ∉ (without key k as).map key :=
    fun hm => h (keys_without_sublist.subset hm)
  rw [behind,find_append,find_eq_none_iff.mpr hw,Option.none_or,find_outside h]

theorem outside_behind : outside key (as.map key) (behind key k as l) =
    outside key (as.map key) l := by
  have hm : outside key (as.map key) (without key k as) = [] := by
    refine filter_eq_nil_iff.mpr fun a ha => ?_
    simpa using ⟨a,mem_of_mem_filter ha,rfl⟩
  have hk : outside key (as.map key) (outside key (as.map key) l) = outside key (as.map key) l :=
    filter_eq_self.mpr fun a ha => (mem_filter.mp ha).2
  rw [behind,outside_append,hm,nil_append,hk]

theorem nodup_cons_behind (has : (as.map key).Nodup) (hl : (key a :: l.map key).Nodup) :
    ((a :: behind key (key a) as l).map key).Nodup := by
  obtain ⟨ha,hl⟩ := nodup_cons.mp hl
  refine nodup_cons.mpr ⟨fun hm => ?_,nodup_append_outside
    (has.sublist keys_without_sublist) hl fun _ hm => keys_without_sublist.subset hm⟩
  rw [behind,map_append] at hm
  rcases mem_append.mp hm with hm | hm
  · obtain ⟨b,hb,hk⟩ := mem_map.mp hm
    have hne : key b ≠ key a := by simpa using (mem_filter.mp hb).2
    exact hne hk
  · exact ha ((filter_sublist.map key).subset hm)

/-! ### Second places -/

def insertSecond (a : α) : List α → List α
  | [] => [a]
  | first :: rest => first :: a :: rest

variable (key) in
/-- The element replaces the one with its key; without one it becomes the second. -/
def upsert (l : List α) (a : α) : List α :=
  if key a ∈ l.map key then l.map fun b => if key b = key a then a else b else insertSecond a l

theorem keys_replace (a : α) (l : List α) :
    (l.map fun b => if key b = key a then a else b).map key = l.map key := by
  rw [map_map]
  refine map_congr_left fun b _ => ?_
  simp only [Function.comp_apply]
  split
  · exact .symm ‹_›
  · rfl

theorem perm_insertSecond (a : α) (l : List α) : (insertSecond a l).Perm (a :: l) := by
  cases l with
  | nil => rfl
  | cons first rest => exact List.Perm.swap a first rest

theorem sublist_insertSecond (a : α) (l : List α) : l.Sublist (insertSecond a l) := by
  cases l with
  | nil => exact nil_sublist _
  | cons first rest => exact (sublist_cons_self a rest).cons_cons first

theorem nodup_upsert (h : (l.map key).Nodup) : ((upsert key l a).map key).Nodup := by
  rw [upsert]
  split
  · rwa [keys_replace]
  · rename_i hn
    exact ((perm_insertSecond a l).map key).nodup_iff.mpr (nodup_cons.mpr ⟨hn,h⟩)

theorem keys_sublist_upsert : (l.map key).Sublist ((upsert key l a).map key) := by
  rw [upsert]
  split
  · rw [keys_replace]
  · exact (sublist_insertSecond a l).map key

theorem mem_keys_upsert : k ∈ (upsert key l a).map key ↔ k = key a ∨ k ∈ l.map key := by
  rw [upsert]
  split
  · rename_i hm
    rw [keys_replace]
    exact ⟨.inr,fun h => h.elim (fun heq => heq ▸ hm) fun h => h⟩
  · rw [((perm_insertSecond a l).map key).mem_iff,map_cons,mem_cons]

theorem head_upsert (h : l ≠ []) : ((upsert key l a).map key).head? = (l.map key).head? := by
  rw [upsert]
  split
  · rw [keys_replace]
  · cases l with
    | nil => exact absurd rfl h
    | cons first rest => rfl

theorem find_upsert (h : (l.map key).Nodup) :
    find key k (upsert key l a) = if key a = k then some a else find key k l := by
  have hnd : ((upsert key l a).map key).Nodup := nodup_upsert h
  by_cases hk : key a = k
  · rw [if_pos hk,find_eq_some_iff hnd]
    refine ⟨?_,hk⟩
    rw [upsert]
    split
    · rename_i hmem
      obtain ⟨b,hb,hkey⟩ := mem_map.mp hmem
      exact mem_map.mpr ⟨b,hb,if_pos hkey⟩
    · exact (perm_insertSecond a l).mem_iff.mpr (.head _)
  · rw [if_neg hk]
    ext b
    rw [find_eq_some_iff hnd,find_eq_some_iff h]
    refine and_congr_left fun hb => ?_
    have hba : key b ≠ key a := fun heq => hk (heq.symm.trans hb)
    rw [upsert]
    split
    · constructor
      · intro hmem
        obtain ⟨c,hc,hbc⟩ := mem_map.mp hmem
        split at hbc
        · exact absurd (congrArg key hbc).symm hba
        · exact hbc ▸ hc
      · exact fun hmem => mem_map.mpr ⟨b,hmem,if_neg hba⟩
    · rw [(perm_insertSecond a l).mem_iff,mem_cons]
      exact ⟨fun h => h.resolve_left fun heq => hba (heq ▸ rfl),.inr⟩

/-- What a list is after a loop of `upsert`. -/
structure Upserted (key : α → κ) (l as l' : List α) : Prop where
  nodup : (l'.map key).Nodup
  sublist : (l.map key).Sublist (l'.map key)
  mem_keys : ∀ k, k ∈ l'.map key ↔ k ∈ l.map key ∨ k ∈ as.map key
  head : l ≠ [] → (l'.map key).head? = (l.map key).head?
  /-- The last element with a key counts. -/
  find : ∀ k, find key k l' = (find key k as.reverse).or (find key k l)

theorem upserted_foldl (h : (l.map key).Nodup) (as : List α) :
    Upserted key l as (as.foldl (upsert key) l) := by
  induction as generalizing l with
  | nil => exact ⟨h,.refl _,by simp,fun _ => rfl,fun _ => rfl⟩
  | cons a as ih =>
    have hr := ih (nodup_upsert (a := a) h)
    have hsub : (l.map key).Sublist ((upsert key l a).map key) := keys_sublist_upsert
    refine ⟨hr.nodup,hsub.trans hr.sublist,fun k => ?_,fun hne => ?_,fun k => ?_⟩
    · rw [foldl_cons,hr.mem_keys,mem_keys_upsert,map_cons,mem_cons]
      tauto
    · have hne' : upsert key l a ≠ [] := by
        intro hnil
        rw [hnil] at hsub
        exact hne (map_eq_nil_iff.mp (sublist_nil.mp hsub))
      rw [foldl_cons,hr.head hne',head_upsert hne]
    · rw [foldl_cons,hr.find,find_upsert h,reverse_cons,find_append]
      cases Keyed.find key k as.reverse with
      | some b => rfl
      | none =>
        by_cases hk : key a = k
        · simp [Keyed.find,hk]
        · simp [Keyed.find,hk]

/-- The number of keys that a list has gained. -/
theorem Upserted.length (h : Upserted key l as l') (hl : (l.map key).Nodup) {p : κ → Bool}
    (hp : ∀ k, p k = true ↔ k ∉ l.map key) :
    l'.length = l.length + ((l'.map key).filter p).length := by
  have hold : ((l'.map key).filter (!p ·)).Perm (l.map key) := by
    refine (perm_ext_iff_of_nodup (h.nodup.filter _) hl).mpr fun k => ?_
    have hk : (!p k) = true ↔ k ∈ l.map key := by
      rw [Bool.not_eq_true',← Bool.not_eq_true,hp,not_not]
    rw [mem_filter,hk]
    exact ⟨And.right,fun hmem => ⟨h.sublist.subset hmem,hmem⟩⟩
  have hsum := (l'.map key).length_eq_length_filter_add p
  rw [hold.length_eq,length_map,length_map] at hsum
  omega

end Keyed
