import Mathlib.Data.List.Basic

/-!
# The words of a text

The words of a list are the longest runs of elements that do not separate. A text in a fixed form is
read from the left, with `run` and `literal`.
-/

namespace Words

open List

variable {α : Type*} (sep : α → Bool)

/-- The words of a text, from left to right. -/
def words (text : List α) : List (List α) := (text.splitOnP sep).filter fun part => !part.isEmpty

def IsWord (text : List α) : Prop := text ≠ [] ∧ ∀ c ∈ text, sep c = false

instance [DecidableEq α] (text : List α) : Decidable (IsWord sep text) :=
  inferInstanceAs (Decidable (_ ∧ _))

variable {sep}

theorem words_of_isWord {text : List α} (h : IsWord sep text) : words sep text = [text] := by
  obtain ⟨hne,hs⟩ := h
  rw [words,splitOnP_eq_singleton hs]
  simp [hne]

theorem words_append_cons {c : α} (hc : sep c = true) (a b : List α) :
    words sep (a ++ c :: b) = words sep a ++ words sep b := by
  rw [words,splitOnP_append_cons a b hc,filter_append]
  rfl

/-- Parts with a separator between them have their own words. -/
theorem words_intercalate {c : α} (hc : sep c = true) (parts : List (List α)) :
    words sep ([c].intercalate parts) = parts.flatMap (words sep) := by
  induction parts with
  | nil => rfl
  | cons part parts ih =>
    cases parts with
    | nil => simp
    | cons next parts =>
      rw [intercalate_cons_cons,append_assoc,singleton_append,words_append_cons hc,ih]
      rfl

/-- Words are read back from the text they were put together to. -/
theorem words_intercalate_of_isWord {c : α} (hc : sep c = true) {parts : List (List α)}
    (h : ∀ part ∈ parts, IsWord sep part) : words sep ([c].intercalate parts) = parts := by
  rw [words_intercalate hc,flatMap_congr fun part hp => words_of_isWord (h part hp)]
  exact flatMap_singleton' parts

theorem mem_intercalate {c d : α} {parts : List (List α)} (h : d ∈ [c].intercalate parts) :
    d = c ∨ ∃ part ∈ parts, d ∈ part := by
  induction parts with
  | nil => cases h
  | cons part parts ih =>
    by_cases hp : parts = []
    · subst hp
      rw [intercalate_singleton] at h
      exact .inr ⟨part,(.head _),h⟩
    · rw [intercalate_cons_of_ne_nil hp,append_assoc,mem_append] at h
      rcases h with h | h
      · exact .inr ⟨part,(.head _),h⟩
      · rcases mem_cons.mp h with rfl | h
        · exact .inl rfl
        · obtain rfl | ⟨later,hl,hd⟩ := ih h
          · exact .inl rfl
          · exact .inr ⟨later,mem_cons_of_mem _ hl,hd⟩

theorem sep_of_mem_splitOnP {text part : List α} {c : α} (hp : part ∈ text.splitOnP sep)
    (hc : c ∈ part) : sep c = false := by
  induction text generalizing part with
  | nil =>
    rw [splitOnP_nil,mem_singleton] at hp
    rw [hp] at hc
    cases hc
  | cons d text ih =>
    rw [splitOnP_cons_eq_if_modifyHead] at hp
    by_cases hd : sep d = true
    · rw [if_pos hd] at hp
      rcases mem_cons.mp hp with rfl | hp
      · cases hc
      · exact ih hp hc
    · rw [if_neg hd] at hp
      -- the first part got the character, the others are as before
      cases hs : text.splitOnP sep with
      | nil => rw [hs] at hp; cases hp
      | cons first parts =>
        rw [hs,modifyHead_cons] at hp
        rcases mem_cons.mp hp with rfl | hp
        · rcases mem_cons.mp hc with rfl | hc
          · exact eq_false_of_ne_true hd
          · exact ih (hs ▸ (.head _)) hc
        · exact ih (hs ▸ mem_cons_of_mem _ hp) hc

theorem isWord_of_mem {text word : List α} (h : word ∈ words sep text) : IsWord sep word := by
  obtain ⟨hm,hne⟩ := mem_filter.mp h
  exact ⟨by simpa using hne,fun _ hc => sep_of_mem_splitOnP hm hc⟩

/-! ### Reading from the left -/

section Reading

variable {p : α → Bool}

/-- The elements of the class at the start, if there are any, and the rest. -/
def run (p : α → Bool) (text : List α) : Option (List α × List α) :=
  if text.takeWhile p = [] then none else some (text.takeWhile p, text.dropWhile p)

/-- What follows the given text. -/
def literal [DecidableEq α] (given text : List α) : Option (List α) :=
  if text.take given.length = given then some (text.drop given.length) else none

theorem run_eq_some_iff {text first rest : List α} : run p text = some (first, rest) ↔
    text = first ++ rest ∧ first ≠ [] ∧ (∀ c ∈ first, p c = true) ∧
      ∀ c ∈ rest.head?, p c = false := by
  unfold run
  constructor
  · intro h
    split at h
    · exact absurd h (Option.some_ne_none _).symm
    · next hne =>
      cases h
      refine ⟨takeWhile_append_dropWhile.symm,hne,fun c hc => all_eq_true.mp all_takeWhile c hc,?_⟩
      intro c hc
      have hh := List.head?_dropWhile_not p text
      rw [Option.mem_def.mp hc] at hh
      simpa using hh
  · rintro ⟨rfl,hne,hf,hr⟩
    have hn : rest.takeWhile p = [] := by
      cases rest with
      | nil => rfl
      | cons c rest => exact takeWhile_cons_of_neg (by simp [hr c rfl])
    have hall : rest.dropWhile p = rest := by
      cases rest with
      | nil => rfl
      | cons c rest => exact dropWhile_cons_of_neg (by simp [hr c rfl])
    rw [takeWhile_append_of_pos hf,dropWhile_append_of_pos hf,hn,hall,append_nil,if_neg hne]

theorem literal_eq_some_iff [DecidableEq α] {given text rest : List α} :
    literal given text = some rest ↔ text = given ++ rest := by
  unfold literal
  constructor
  · intro h
    split at h
    · next hg =>
      have ha := take_append_drop given.length text
      rw [hg] at ha
      rw [← Option.some.inj h,ha]
    · cases h
  · rintro rfl
    rw [take_left,if_pos rfl,drop_left]

end Reading

end Words
