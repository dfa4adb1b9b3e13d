import Mathlib.Data.List.Infix
import Mathlib.Data.Nat.Find

/-!
# Entries between delimiters

A scanner takes what stands between the next opener of any kind and its closer as an entry, and goes
on after it; it stops at an opener without a closer.
-/

namespace Delimited

open List

variable {α κ : Type*}

def At (needle text : List α) (i : ℕ) : Prop := needle <+: text.drop i

def IsFirst (needle text : List α) (i : ℕ) : Prop :=
  At needle text i ∧ ∀ j < i, ¬ At needle text j

section At

variable {needle text r t : List α} {i : ℕ}

theorem At.add_le (h : At needle text i) (hne : needle ≠ []) : i + needle.length ≤ text.length := by
  have hlen := h.length_le
  have hpos := length_pos_iff.mpr hne
  rw [length_drop] at hlen
  omega

theorem at_append_left (h : i + needle.length ≤ r.length) :
    At needle (r ++ t) i ↔ At needle r i := by
  rw [At,At,drop_append_of_le_length (by omega)]
  constructor
  · intro hat
    refine prefix_of_prefix_length_le hat (prefix_append _ _) ?_
    rw [length_drop]
    omega
  · exact fun hat => hat.trans (prefix_append _ _)

theorem at_append_right : At needle (r ++ t) (r.length + i) ↔ At needle t i := by
  rw [At,At,drop_append,drop_eq_nil_of_le (by omega),Nat.add_sub_cancel_left,nil_append]

theorem at_drop {n : ℕ} : At needle (text.drop n) i ↔ At needle text (n + i) := by
  rw [At,At,drop_drop]

theorem At.append (h : At needle r i) (hne : needle ≠ []) (t : List α) : At needle (r ++ t) i :=
  (at_append_left (h.add_le hne)).mpr h

theorem At.inside {needle' : List α} {d : ℕ} (h : At needle text i) (h' : At needle' text (i + d))
    (hle : d + needle'.length ≤ needle.length) : At needle' needle d := by
  obtain ⟨rest,hr⟩ := h
  rw [← at_drop,← hr] at h'
  exact (at_append_left hle).mp h'

theorem IsFirst.left (h : IsFirst needle (r ++ t) i)
    (hle : i + needle.length ≤ r.length) : IsFirst needle r i := by
  refine ⟨(at_append_left hle).mp h.1,fun j hj hat => h.2 j hj ?_⟩
  exact (at_append_left (by omega)).mpr hat

end At

/-- Kinds of entries: none is opened inside the opener of another, and no closer starts in an
opener. -/
structure Grammar (α κ : Type*) where
  opener : κ → List α
  closer : List α
  close : α
  opener_ne_nil : ∀ k, opener k ≠ []
  closer_head : closer.head? = some close
  close_notMem : ∀ k, close ∉ opener k
  separate : ∀ k k' d, d + (opener k').length ≤ (opener k).length →
    At (opener k') (opener k) d → k' = k

/-- An entry: its place with its delimiters, and the text between them. -/
structure Entry (α κ : Type*) where
  kind : κ
  start : ℕ
  stop : ℕ
  text : List α
  deriving DecidableEq

namespace Grammar

variable (g : Grammar α κ)

def IsNext (text : List α) (k : κ) (i : ℕ) : Prop :=
  At (g.opener k) text i ∧ ∀ k' j, At (g.opener k') text j → i ≤ j

/-- The entries that are found in a text; `place` is where it starts. -/
inductive Scanned : ℕ → List α → List (Entry α κ) → Prop
  | none {place : ℕ} {text : List α} (h : ∀ k i, ¬ At (g.opener k) text i) : Scanned place text []
  | unclosed {place : ℕ} {text : List α} {k : κ} {i : ℕ} (hnext : g.IsNext text k i)
      (hopen : ∀ j, ¬ At g.closer (text.drop (i + (g.opener k).length)) j) :
      Scanned place text []
  | entry {place : ℕ} {text : List α} {k : κ} {i j : ℕ} {es : List (Entry α κ)}
      (hnext : g.IsNext text k i)
      (hclose : IsFirst g.closer (text.drop (i + (g.opener k).length)) j)
      (hrest : Scanned (place + (i + (g.opener k).length + j + g.closer.length))
        (text.drop (i + (g.opener k).length + j + g.closer.length)) es) :
      Scanned place text (⟨k, place + i, place + (i + (g.opener k).length + j + g.closer.length),
        (text.drop (i + (g.opener k).length)).take j⟩ :: es)

variable {g} {text r t : List α} {k k' : κ} {i j place : ℕ} {es : List (Entry α κ)}

theorem closer_ne_nil (g : Grammar α κ) : g.closer ≠ [] := by
  intro hn
  have := g.closer_head
  rw [hn] at this
  cases this

theorem kind_unique (h : At (g.opener k) text i) (h' : At (g.opener k') text i) : k' = k := by
  rcases Nat.le_total (g.opener k').length (g.opener k).length with hle | hle
  · exact g.separate k k' 0 (by omega) (h.inside h' (by omega))
  · exact (g.separate k' k 0 (by omega) (h'.inside h (by omega))).symm

theorem IsNext.unique (h : g.IsNext text k i) (h' : g.IsNext text k' j) : k' = k ∧ j = i := by
  obtain rfl : j = i := le_antisymm (h'.2 k i h.1) (h.2 k' j h'.1)
  exact ⟨kind_unique h.1 h'.1,rfl⟩

theorem exists_isNext (h : At (g.opener k) text i) : ∃ k i, g.IsNext text k i := by
  classical
  have hex : ∃ i k, At (g.opener k) text i := ⟨i,k,h⟩
  obtain ⟨k,hk⟩ := Nat.find_spec hex
  exact ⟨k,Nat.find hex,hk,fun k' j hj => Nat.find_min' hex ⟨k',hj⟩⟩

theorem scanned_of_no_closer (h : ∀ j, ¬ At g.closer text j) : g.Scanned place text [] := by
  by_cases ha : ∃ k i, At (g.opener k) text i
  · obtain ⟨k,i,hat⟩ := ha
    obtain ⟨k,i,hn⟩ := exists_isNext hat
    exact .unclosed hn fun j hj => h _ (at_drop.mp hj)
  · exact .none fun k i hat => ha ⟨k,i,hat⟩

/-! ### Two pieces -/

theorem IsNext.left (h : g.IsNext (r ++ t) k i) (hle : i + (g.opener k).length ≤ r.length) :
    g.IsNext r k i :=
  ⟨(at_append_left hle).mp h.1,fun k' j hj => h.2 k' j (hj.append (g.opener_ne_nil k') t)⟩

theorem IsNext.right (h : g.IsNext (r ++ t) k (r.length + i)) : g.IsNext t k i := by
  refine ⟨at_append_right.mp h.1,fun k' j hj => ?_⟩
  have hle := h.2 k' (r.length + j) (at_append_right.mpr hj)
  omega

theorem IsNext.none_left (h : g.IsNext (r ++ t) k i) (hlt : r.length < i + (g.opener k).length) :
    ∀ k' j, ¬ At (g.opener k') r j := by
  intro k' j hj
  have hle := h.2 k' j (hj.append (g.opener_ne_nil k') t)
  have hend := hj.add_le (g.opener_ne_nil k')
  obtain ⟨d,rfl⟩ := Nat.exists_eq_add_of_le hle
  have hi := h.1.inside (hj.append (g.opener_ne_nil k') t) (by omega)
  have hk := g.separate k k' d (by omega) hi
  subst hk
  omega

theorem IsNext.no_closer_right (h : g.IsNext (r ++ t) k i)
    (ho : ∀ j, ¬ At g.closer ((r ++ t).drop (i + (g.opener k).length)) j) (hi : i ≤ r.length) :
    ∀ j, ¬ At g.closer t j := by
  intro j hj
  have hat : At g.closer (r ++ t) (r.length + j) := at_append_right.mpr hj
  rcases Nat.lt_or_ge (r.length + j) (i + (g.opener k).length) with hlt | hge
  · -- the closer would start in the opener
    obtain ⟨d,hd⟩ := Nat.exists_eq_add_of_le (show i ≤ r.length + j by omega)
    obtain ⟨rest,hr⟩ := h.1
    rw [hd,← at_drop,← hr,At,drop_append_of_le_length (by omega)] at hat
    obtain ⟨rest',hr'⟩ := hat
    have hh : ((g.opener k).drop d ++ rest).head? = some g.close := by
      rw [← hr',List.head?_append,g.closer_head]
      rfl
    have hne : (g.opener k).drop d ≠ [] := by
      intro hnil
      have := drop_eq_nil_iff.mp hnil
      omega
    rw [List.head?_append_of_ne_nil _ hne] at hh
    exact g.close_notMem k (mem_of_mem_drop (mem_of_head? hh))
  · obtain ⟨d,hd⟩ := Nat.exists_eq_add_of_le hge
    rw [hd] at hat
    exact ho d (at_drop.mpr hat)

/-- Entries that lie in one of two pieces are those of the pieces. -/
theorem Scanned.append (h : g.Scanned place text es) {r t : List α} (ht : text = r ++ t)
    (hes : ∀ e ∈ es, e.stop ≤ place + r.length ∨ place + r.length ≤ e.start) :
    ∃ es₁ es₂, es = es₁ ++ es₂ ∧ g.Scanned place r es₁ ∧ g.Scanned (place + r.length) t es₂ := by
  induction h generalizing r with
  | none h =>
    subst ht
    refine ⟨[],[],rfl,.none fun k i hat => ?_,.none fun k i hat => ?_⟩
    · exact h k i (hat.append (g.opener_ne_nil k) t)
    · exact h k _ (at_append_right.mpr hat)
  | @unclosed place text k i hn ho =>
    subst ht
    refine ⟨[],[],rfl,?_⟩
    rcases Nat.lt_or_ge r.length (i + (g.opener k).length) with hlt | hge
    · refine ⟨.none (hn.none_left hlt),?_⟩
      rcases Nat.lt_or_ge r.length i with hb | hbe
      · obtain ⟨d,rfl⟩ := Nat.exists_eq_add_of_le hb.le
        refine .unclosed hn.right fun j hj => ho j ?_
        rw [at_drop] at hj ⊢
        rw [Nat.add_assoc,Nat.add_assoc]
        exact at_append_right.mpr (by rwa [Nat.add_assoc] at hj)
      · exact scanned_of_no_closer (hn.no_closer_right ho hbe)
    · have hl := hn.left hge
      refine ⟨.unclosed hl fun j hj => ho j ?_,?_⟩
      · rw [drop_append_of_le_length hge]
        exact hj.append g.closer_ne_nil t
      · exact scanned_of_no_closer (hn.no_closer_right ho (by omega))
  | @entry place text k i j es hn hc hr ih =>
    subst ht
    obtain ⟨hf,hlater⟩ := forall_mem_cons.mp hes
    rcases hf with hst | hs
    · have hle : i + (g.opener k).length + j + g.closer.length ≤ r.length := by
        simpa using hst
      have hp : ∀ n ≤ r.length, place + n + (r.drop n).length = place + r.length := by
        intro n hn
        rw [length_drop]
        omega
      obtain ⟨es₁,es₂,rfl,hsc₁,hsc₂⟩ := ih (drop_append_of_le_length hle) (by rwa [hp _ hle])
      rw [hp _ hle] at hsc₂
      rw [drop_append_of_le_length (by omega)] at hc ⊢
      have hj : j + g.closer.length ≤ (r.drop (i + (g.opener k).length)).length := by
        rw [length_drop]
        omega
      rw [take_append_of_le_length (by omega)]
      exact ⟨_ :: es₁,es₂,rfl,.entry (hn.left (by omega)) (hc.left hj) hsc₁,hsc₂⟩
    · obtain ⟨d,rfl⟩ : ∃ d, i = r.length + d := Nat.exists_eq_add_of_le (by simpa using hs)
      have hpos := length_pos_iff.mpr (g.opener_ne_nil k)
      refine ⟨[],_,rfl,.none (hn.none_left (by omega)),?_⟩
      have hd : ∀ n, (r ++ t).drop (r.length + d + n) = t.drop (d + n) := by
        intro n
        rw [Nat.add_assoc,drop_append,drop_eq_nil_of_le (by omega),
          Nat.add_sub_cancel_left,nil_append]
      have hd' := hd ((g.opener k).length + j + g.closer.length)
      simp only [← Nat.add_assoc] at hd'
      have hsc : g.Scanned (place + r.length) t (⟨k,place + r.length + d,
          place + r.length + (d + (g.opener k).length + j + g.closer.length),
          (t.drop (d + (g.opener k).length)).take j⟩ :: es) := by
        refine .entry hn.right ?_ ?_
        · rwa [← hd]
        · rw [← hd']
          convert hr using 1
          omega
      rw [hd]
      convert hsc using 3
      · omega
      · omega

/-! ### Many pieces -/

/-- Entries are found from the start of the text on, and are not empty. -/
theorem Scanned.start_lt_stop (h : g.Scanned place text es) :
    ∀ e ∈ es, place ≤ e.start ∧ e.start < e.stop := by
  induction h with
  | none h => simp
  | unclosed hn hopen => simp
  | @entry place text k i j es hn hclose hrest ih =>
    have hpos := length_pos_iff.mpr (g.opener_ne_nil k)
    refine forall_mem_cons.mpr ⟨⟨by simp,by simp only; omega⟩,fun e he => ?_⟩
    obtain ⟨hstart,hs⟩ := ih e he
    exact ⟨by omega,hs⟩

/-- The entry lies in one of the pieces; `place` is where the first one starts. -/
def InOne (place : ℕ) (pieces : List (List α)) (e : Entry α κ) : Prop :=
  ∃ before piece after, pieces = before ++ piece :: after ∧
    place + before.flatten.length ≤ e.start ∧
    e.stop ≤ place + before.flatten.length + piece.length

/-- Entries that lie in one of the pieces are those of the pieces. -/
theorem Scanned.pieces {pieces : List (List α)} (h : g.Scanned place pieces.flatten es)
    (hes : ∀ e ∈ es, InOne place pieces e) : ∃ ess, es = ess.flatten ∧
      List.Forall₂ (fun p es => ∃ place, g.Scanned place p es) pieces ess := by
  induction pieces generalizing place es with
  | nil =>
    refine ⟨[],?_,.nil⟩
    rw [flatten_nil,eq_nil_iff_forall_not_mem]
    intro e he
    obtain ⟨b,p,after,heq,-⟩ := hes e he
    cases b <;> cases heq
  | cons p pieces ih =>
    have hsi : ∀ e ∈ es, e.stop ≤ place + p.length ∨ place + p.length ≤ e.start := by
      intro e he
      obtain ⟨b,o,after,heq,hs,hst⟩ := hes e he
      cases b with
      | nil =>
        cases heq
        exact .inl hst
      | cons first b =>
        cases heq
        right
        rw [flatten_cons,length_append] at hs
        omega
    obtain ⟨es₁,es₂,rfl,hsc₁,hsc₂⟩ := h.append flatten_cons hsi
    have hl : ∀ e ∈ es₂, InOne (place + p.length) pieces e := by
      intro e he
      obtain ⟨hfrom,hlt⟩ := hsc₂.start_lt_stop e he
      obtain ⟨b,o,after,heq,hs,hst⟩ := hes e (mem_append_right _ he)
      cases b with
      | nil =>
        cases heq
        rw [flatten_nil,length_nil] at hst
        omega
      | cons first b =>
        cases heq
        rw [flatten_cons,length_append] at hs hst
        exact ⟨b,o,after,rfl,by omega,by omega⟩
    obtain ⟨ess,rfl,hall⟩ := ih hsc₂ hl
    exact ⟨es₁ :: ess,rfl,.cons ⟨place,hsc₁⟩ hall⟩

end Grammar

end Delimited
