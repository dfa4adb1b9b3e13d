import Mathlib.Data.List.Basic

/-!
# Files with names and open streams

A name refers to a node, and a node has a content. A stream stays with the node that it was opened
on.
-/

namespace Files

open List Function Option

/-- A directory. Every node has at most one name. -/
structure Directory (ν β : Type*) where
  entry : ν → Option ℕ
  content : ℕ → List β
  /-- The nodes from here on are not in use. -/
  next : ℕ
  entry_lt : ∀ n i, entry n = some i → i < next
  entry_inj : ∀ m n i, entry m = some i → entry n = some i → m = n

structure Stream where
  node : ℕ
  position : ℕ
  deriving DecidableEq, Repr

/-- A content after some bytes are written at a position; a gap is filled. -/
def overwrite {β : Type*} [Inhabited β] (old : List β) (position : ℕ) (chunk : List β) : List β :=
  old.take position ++ List.replicate (position - old.length) default ++ chunk ++
    old.drop (position + chunk.length)

theorem overwrite_length {β : Type*} [Inhabited β] (old c : List β) :
    overwrite old old.length c = old ++ c := by
  have hd : old.drop (old.length + c.length) = [] :=
    drop_eq_nil_of_le (Nat.le_add_right _ _)
  rw [overwrite,take_length,Nat.sub_self,replicate_zero,hd,append_nil,append_nil]

namespace Directory

variable {ν β : Type*}

def empty : Directory ν β where
  entry _ := none
  content _ := []
  next := 0
  entry_lt _ _ h := by cases h
  entry_inj _ _ _ h := by cases h

def read (d : Directory ν β) (n : ν) : Option (List β) := (d.entry n).map d.content

theorem read_congr {d d' : Directory ν β} {m : ν} (he : d'.entry m = d.entry m)
    (hc : ∀ i, d.entry m = some i → d'.content i = d.content i) : d'.read m = d.read m := by
  rw [read,read,he]
  cases h : d.entry m with
  | none => rfl
  | some i => rw [map_some,map_some,hc i h]

def setContent (d : Directory ν β) (i : ℕ) (content : List β) : Directory ν β :=
  { d with content := update d.content i content }

def write [Inhabited β] (d : Directory ν β) (stream : Stream) (chunk : List β) :
    Directory ν β × Stream :=
  (d.setContent stream.node (overwrite (d.content stream.node) stream.position chunk),
    ⟨stream.node, stream.position + chunk.length⟩)

variable {d : Directory ν β}

theorem read_setContent_of_ne {n m : ν} {i : ℕ} (hn : d.entry n = some i) (h : m ≠ n)
    (c : List β) : (d.setContent i c).read m = d.read m := by
  refine read_congr rfl fun j hj => update_of_ne ?_ _ _
  rintro rfl
  exact h (d.entry_inj m n j hj hn)

theorem content_write [Inhabited β] {s : Stream} (c : List β)
    (h : s.position = (d.content s.node).length) :
    (d.write s c).1.content s.node = d.content s.node ++ c := by
  have hw : (d.write s c).1.content s.node =
      overwrite (d.content s.node) s.position c := update_self _ _ _
  rw [hw,h,overwrite_length]

theorem read_write_of_ne [Inhabited β] {n m : ν} {s : Stream} (c : List β)
    (hn : d.entry n = some s.node) (h : m ≠ n) :
    (d.write s c).1.read m = d.read m :=
  read_setContent_of_ne hn h _

variable [DecidableEq ν]

theorem update_entry_lt (d : Directory ν β) {n : ν} {node : Option ℕ} {k : ℕ} (hk : d.next ≤ k)
    (hn : ∀ i, node = some i → i < k) (m : ν) (i : ℕ) (h : update d.entry n node m = some i) :
    i < k := by
  by_cases hm : m = n
  · subst hm
    rw [update_self] at h
    exact hn i h
  · rw [update_of_ne hm] at h
    exact Nat.lt_of_lt_of_le (d.entry_lt m i h) hk

theorem update_entry_inj (d : Directory ν β) {n : ν} {node : Option ℕ}
    (hn : ∀ m i, d.entry m = some i → node ≠ some i) (l m : ν) (i : ℕ)
    (hl : update d.entry n node l = some i) (hm : update d.entry n node m = some i) : l = m := by
  by_cases hln : l = n <;> by_cases hmn : m = n
  · rw [hln, hmn]
  · subst hln
    rw [update_self] at hl
    rw [update_of_ne hmn] at hm
    exact absurd hl (hn m i hm)
  · subst hmn
    rw [update_self] at hm
    rw [update_of_ne hln] at hl
    exact absurd hm (hn l i hl)
  · rw [update_of_ne hln] at hl
    rw [update_of_ne hmn] at hm
    exact d.entry_inj l m i hl hm

def create (d : Directory ν β) (n : ν) (content : List β) : Directory ν β where
  entry := update d.entry n (some d.next)
  content := update d.content d.next content
  next := d.next + 1
  entry_lt := by
    refine d.update_entry_lt (Nat.le_succ _) ?_
    rintro _ ⟨⟩
    exact Nat.lt_succ_self _
  entry_inj := by
    refine d.update_entry_inj ?_
    rintro m _ h ⟨⟩
    exact absurd (d.entry_lt m _ h) (Nat.lt_irrefl _)

/-- Opens a file for writing: it is created, or its node emptied. -/
def openTruncate (d : Directory ν β) (n : ν) : Directory ν β × Stream :=
  match d.entry n with
  | some i => (d.setContent i [], ⟨i, 0⟩)
  | none => (d.create n [], ⟨d.next, 0⟩)

def delete (d : Directory ν β) (n : ν) : Directory ν β where
  entry := update d.entry n none
  content := d.content
  next := d.next
  entry_lt := d.update_entry_lt (Nat.le_refl _) nofun
  entry_inj := d.update_entry_inj fun _ _ _ => nofun

/-- A name refers to a node that has no name. -/
def link (d : Directory ν β) (n : ν) (i : ℕ) (hi : i < d.next) (hfree : ∀ m, d.entry m ≠ some i) :
    Directory ν β where
  entry := update d.entry n (some i)
  content := d.content
  next := d.next
  entry_lt := by
    refine d.update_entry_lt (Nat.le_refl _) ?_
    rintro _ ⟨⟩
    exact hi
  entry_inj := by
    refine d.update_entry_inj ?_
    rintro m _ h ⟨⟩
    exact hfree m h

theorem entry_delete_self (d : Directory ν β) (n : ν) : (d.delete n).entry n = none :=
  update_self _ _ _

theorem entry_delete_of_ne (d : Directory ν β) {n m : ν} (h : m ≠ n) :
    (d.delete n).entry m = d.entry m := update_of_ne h _ _

theorem entry_delete_ne (d : Directory ν β) (n : ν) {i : ℕ} (h : d.entry n = some i) (m : ν) :
    (d.delete n).entry m ≠ some i := by
  intro hm
  by_cases hmn : m = n
  · subst hmn
    rw [entry_delete_self] at hm
    cases hm
  · rw [entry_delete_of_ne d hmn] at hm
    exact hmn (d.entry_inj m n i hm h)

/-- Renames a file that exists; a file of the new name is replaced. -/
def rename (d : Directory ν β) (n m : ν) : Option (Directory ν β) :=
  match h : d.entry n with
  | some i => some ((d.delete n).link m i (d.entry_lt n i h) (d.entry_delete_ne n h))
  | none => none

/-! ### What the other names see -/

section

variable {d : Directory ν β} {n m : ν}

theorem entry_create_of_ne (h : m ≠ n) (c : List β) :
    (d.create n c).entry m = d.entry m :=
  update_of_ne h _ _

theorem content_create_of_lt {i : ℕ} (h : i < d.next) (c : List β) :
    (d.create n c).content i = d.content i := update_of_ne (Nat.ne_of_lt h) _ _

theorem read_create_of_ne (h : m ≠ n) (c : List β) : (d.create n c).read m = d.read m :=
  read_congr (entry_create_of_ne h c) fun _ hi => content_create_of_lt (d.entry_lt _ _ hi) _

theorem read_delete_self : (d.delete n).read n = none := by
  rw [read,entry_delete_self,map_none]

theorem read_delete_of_ne (h : m ≠ n) : (d.delete n).read m = d.read m :=
  read_congr (d.entry_delete_of_ne h) fun _ _ => rfl

/-- Opening leaves the stream at the start of an empty node that has the name. -/
theorem openTruncate_spec (d : Directory ν β) (n : ν) :
    (d.openTruncate n).1.entry n = some (d.openTruncate n).2.node ∧
      (d.openTruncate n).1.content (d.openTruncate n).2.node = [] ∧
      (d.openTruncate n).2.position = 0 := by
  rw [openTruncate]
  split
  · rename_i i hi
    exact ⟨hi,update_self _ _ _,rfl⟩
  · exact ⟨update_self _ _ _,update_self _ _ _,rfl⟩

theorem read_openTruncate_of_ne (h : m ≠ n) : (d.openTruncate n).1.read m = d.read m := by
  rw [openTruncate]
  split
  · rename_i i hi
    exact read_setContent_of_ne hi h []
  · exact read_create_of_ne h []

/-- After a renaming the new name refers to what the old name did. -/
theorem read_rename {d' : Directory ν β} (h : d.rename n m = some d') : d'.read m = d.read n := by
  rw [rename] at h
  split at h
  · rename_i i hi
    cases h
    have ho : d.read n = some (d.content i) := by rw [read,hi,map_some]
    rw [ho]
    exact congrArg (Option.map d.content) (update_self m (some i) (d.delete n).entry)
  · cases h

end

end Directory

end Files
