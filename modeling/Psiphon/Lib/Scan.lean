import Mathlib.Data.List.Infix

/-!
# Scanning a text with a pattern

Where the pattern matches, a scan takes the match and goes on after it; elsewhere it passes one
character.
-/

namespace Scan

open List

variable {α : Type*}

/-- The size of the match at the start of a text. -/
structure Pattern (α : Type*) where
  size : List α → Option ℕ
  size_pos : ∀ {text n}, size text = some n → 0 < n
  size_le : ∀ {text n}, size text = some n → n ≤ text.length

/-- The matches with the text before each, and the text after the last. -/
structure Split (α : Type*) where
  parts : List (List α × List α)
  last : List α
  deriving DecidableEq, Repr

namespace Split

def consChar (c : α) : Split α → Split α
  | ⟨[], last⟩ => ⟨[], c :: last⟩
  | ⟨(before, m) :: parts, last⟩ => ⟨(c :: before, m) :: parts, last⟩

def consMatch (m : List α) (s : Split α) : Split α := ⟨([], m) :: s.parts, s.last⟩

def found (s : Split α) : List (List α) := s.parts.map Prod.snd

def between (s : Split α) : List (List α) := s.parts.map Prod.fst ++ [s.last]

def join (f : List α → List α) (s : Split α) : List α :=
  s.parts.flatMap (fun part => part.1 ++ f part.2) ++ s.last

@[simp] theorem found_consChar (c : α) (s : Split α) : (s.consChar c).found = s.found := by
  obtain ⟨parts,last⟩ := s
  cases parts <;> rfl

@[simp] theorem found_consMatch (m : List α) (s : Split α) :
    (s.consMatch m).found = m :: s.found := rfl

@[simp] theorem join_consChar (f : List α → List α) (c : α) (s : Split α) :
    (s.consChar c).join f = c :: s.join f := by
  obtain ⟨parts,last⟩ := s
  cases parts with
  | nil => rfl
  | cons part parts => simp [consChar,join]

@[simp] theorem join_consMatch (f : List α → List α) (m : List α) (s : Split α) :
    (s.consMatch m).join f = f m ++ s.join f := by simp [consMatch,join]

theorem join_const (separator : List α) (s : Split α) :
    s.join (fun _ => separator) = List.intercalate separator s.between := by
  obtain ⟨parts,last⟩ := s
  induction parts with
  | nil => simp [join,between,List.intercalate]
  | cons part parts ih =>
    have hne : between ⟨parts,last⟩ ≠ [] := by simp [between]
    have hc : between ⟨part :: parts,last⟩ = part.1 :: between ⟨parts,last⟩ := rfl
    rw [hc,intercalate_cons_of_ne_nil hne,← ih]
    simp [join]

end Split

namespace Pattern

variable (p : Pattern α)

/-- The scan, with a bound on the number of its steps. -/
def scan : ℕ → List α → Split α
  | 0, text => ⟨[], text⟩
  | _ + 1, [] => ⟨[], []⟩
  | fuel + 1, c :: rest =>
    match p.size (c :: rest) with
    | some n => (scan fuel ((c :: rest).drop n)).consMatch ((c :: rest).take n)
    | none => (scan fuel rest).consChar c

def split (text : List α) : Split α := p.scan text.length text

def found (text : List α) : List (List α) := (p.split text).found

def replace (f : List α → List α) (text : List α) : List α := (p.split text).join f

variable {text : List α}

theorem length_drop_lt {n : ℕ} (h : p.size text = some n) : (text.drop n).length < text.length := by
  have hpos := p.size_pos h
  have hle := p.size_le h
  rw [length_drop]
  omega

theorem scan_eq {fuel : ℕ} (h : text.length ≤ fuel) : p.scan fuel text = p.split text := by
  have hm : ∀ (fuel k : ℕ) (text : List α), text.length ≤ fuel →
      p.scan (fuel + k) text = p.scan fuel text := by
    intro fuel
    induction fuel with
    | zero =>
      intro k text h
      obtain rfl := eq_nil_of_length_eq_zero (Nat.le_zero.mp h)
      cases k <;> rfl
    | succ fuel ih =>
      intro k text h
      cases text with
      | nil => rw [Nat.add_right_comm]; rfl
      | cons c rest =>
        rw [Nat.add_right_comm,scan,scan]
        cases hs : p.size (c :: rest) with
        | none => exact congrArg (Split.consChar c) (ih k rest (Nat.le_of_succ_le_succ h))
        | some n =>
          have hlt := p.length_drop_lt hs
          exact congrArg (Split.consMatch _) (ih k _ (Nat.le_of_lt_succ (Nat.lt_of_lt_of_le hlt h)))
  obtain ⟨k,rfl⟩ := Nat.exists_eq_add_of_le h
  exact hm text.length k text (Nat.le_refl _)

theorem split_of_none {c : α} {rest : List α} (h : p.size (c :: rest) = none) :
    p.split (c :: rest) = (p.split rest).consChar c := by
  rw [split,length_cons,scan,h]
  rfl

theorem split_of_some {n : ℕ} (h : p.size text = some n) :
    p.split text = (p.split (text.drop n)).consMatch (text.take n) := by
  cases text with
  | nil =>
    have hpos := p.size_pos h
    have hle := p.size_le h
    rw [length_nil] at hle
    omega
  | cons c rest =>
    have hlt := p.length_drop_lt h
    rw [split,length_cons,scan,h]
    exact congrArg (Split.consMatch _) (p.scan_eq (Nat.le_of_lt_succ hlt))

/-- A property of every text, along a scan of it. -/
theorem scan_induction {m : List α → Prop} (nil : m [])
    (pass : ∀ c rest, p.size (c :: rest) = none → m rest → m (c :: rest))
    (take : ∀ text n, p.size text = some n → m (text.drop n) → m text)
    (text : List α) : m text := by
  induction hl : text.length using Nat.strong_induction_on generalizing text with
  | _ length ih =>
    subst hl
    cases text with
    | nil => exact nil
    | cons c rest =>
      cases hs : p.size (c :: rest) with
      | none => exact pass c rest hs (ih _ (Nat.lt_succ_self _) rest rfl)
      | some n => exact take _ n hs (ih _ (p.length_drop_lt hs) _ rfl)

theorem found_of_none {c : α} {rest : List α} (h : p.size (c :: rest) = none) :
    p.found (c :: rest) = p.found rest := by rw [found,p.split_of_none h,Split.found_consChar]; rfl

theorem found_of_some {n : ℕ} (h : p.size text = some n) :
    p.found text = text.take n :: p.found (text.drop n) := by
  rw [found,p.split_of_some h,Split.found_consMatch]
  rfl

theorem replace_of_none (f : List α → List α) {c : α} {rest : List α}
    (h : p.size (c :: rest) = none) : p.replace f (c :: rest) = c :: p.replace f rest := by
  rw [replace,p.split_of_none h,Split.join_consChar]
  rfl

theorem replace_of_some (f : List α → List α) {n : ℕ} (h : p.size text = some n) :
    p.replace f text = f (text.take n) ++ p.replace f (text.drop n) := by
  rw [replace,p.split_of_some h,Split.join_consMatch]
  rfl

theorem replace_eq_self {f : List α → List α} (h : ∀ m ∈ p.found text, f m = m) :
    p.replace f text = text := by
  induction text using p.scan_induction with
  | nil => rfl
  | pass c rest hs ih =>
    rw [p.found_of_none hs] at h
    rw [p.replace_of_none f hs,ih h]
  | take text n hs ih =>
    rw [p.found_of_some hs] at h
    rw [p.replace_of_some f hs,ih fun m hm => h m (.tail _ hm),h _ mem_cons_self,take_append_drop]

theorem found_eq_nil_iff : p.found text = [] ↔ ∀ s, s <:+ text → p.size s = none := by
  have hnil : p.size [] = none := by
    cases h : p.size [] with
    | none => rfl
    | some n =>
      have hpos := p.size_pos h
      have hle := p.size_le h
      rw [length_nil] at hle
      omega
  induction text using p.scan_induction with
  | nil =>
    refine ⟨fun _ s hs => ?_,fun _ => rfl⟩
    rw [suffix_nil.mp hs,hnil]
  | pass c rest hsi ih =>
    rw [p.found_of_none hsi]
    refine ih.trans ⟨fun h s hs => ?_,fun h s hs => h s (hs.trans (suffix_cons c rest))⟩
    obtain rfl | hs := suffix_cons_iff.mp hs
    · exact hsi
    · exact h s hs
  | take text n hsi _ =>
    rw [p.found_of_some hsi]
    refine ⟨fun h => (by cases h),fun h => ?_⟩
    cases (h text suffix_rfl).symm.trans hsi

/-- A first part in which no match starts, whatever follows, is passed. -/
theorem found_append {xs ys : List α} (h : ∀ s, s <:+ xs → s ≠ [] → p.size (s ++ ys) = none) :
    p.found (xs ++ ys) = p.found ys := by
  induction xs with
  | nil => rfl
  | cons c xs ih =>
    have hn : p.size (c :: (xs ++ ys)) = none := h _ suffix_rfl (cons_ne_nil c xs)
    rw [cons_append,p.found_of_none hn]
    exact ih fun s hs hne => h s (hs.trans (suffix_cons c xs)) hne

/-- Up to the first match that changes the text stays as it is. -/
theorem replace_cases (f : List α → List α) (text : List α) :
    p.replace f text = text ∨ ∃ b m rest, text = b ++ m ++ rest ∧ f m ≠ m ∧
      p.replace f text = b ++ f m ++ p.replace f rest := by
  induction text using p.scan_induction with
  | nil => exact .inl rfl
  | pass c rest hs ih =>
    rw [p.replace_of_none f hs]
    obtain hsa | ⟨b,m,rest',rfl,hm,hr⟩ := ih
    · exact .inl (by rw [hsa])
    · exact .inr ⟨c :: b,m,rest',rfl,hm,by rw [hr]; rfl⟩
  | take text n hs ih =>
    rw [p.replace_of_some f hs]
    by_cases hm : f (text.take n) = text.take n
    · rw [hm]
      obtain hsa | ⟨b,m,rest',hre,hm',hr⟩ := ih
      · exact .inl (by rw [hsa,take_append_drop])
      · refine .inr ⟨text.take n ++ b,m,rest',?_,hm',?_⟩
        · rw [append_assoc,append_assoc,← append_assoc b,← hre,take_append_drop]
        · rw [hr,append_assoc,append_assoc,append_assoc]
    · exact .inr ⟨[],text.take n,text.drop n,(take_append_drop n text).symm,hm,rfl⟩

end Pattern

end Scan
