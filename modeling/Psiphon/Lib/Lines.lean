import Mathlib.Data.List.Basic

/-!
# The lines of a text

A line ends with a separator, or is what follows the last one.
-/

namespace Lines

open List

variable {α : Type*} (sep : α)

def IsLine (line : List α) : Prop := ∃ body, sep ∉ body ∧ line = body ++ [sep]

/-- Lines of which only the last may lack its separator. -/
inductive Split : List (List α) → Prop
  | nil : Split []
  | last {line : List α} (hne : line ≠ []) (hsep : sep ∉ line) : Split [line]
  | cons {line : List α} {rest : List (List α)} (hline : IsLine sep line) (hrest : Split rest) :
      Split (line :: rest)

variable {sep} {line text : List α} {ls : List (List α)}

theorem Split.map (h : Split sep ls) {f : List α → List α}
    (hf : ∀ line, f line = line ∨ IsLine sep (f line)) : Split sep (ls.map f) := by
  induction h with
  | nil => exact .nil
  | @last line hne hsep =>
    obtain hs | hl := hf line
    · rw [map_singleton,hs]
      exact .last hne hsep
    · exact .cons hl .nil
  | @cons line rest hl _ ih =>
    refine .cons ?_ ih
    obtain hs | hl' := hf line
    · rwa [hs]
    · exact hl'

theorem Split.cases_last (h : Split sep ls) : (∀ line ∈ ls, IsLine sep line) ∨
    ∃ first last, ls = first ++ [last] ∧ (∀ line ∈ first, IsLine sep line) ∧ last ≠ [] ∧
      sep ∉ last := by
  induction h with
  | nil => exact .inl fun _ h => (by cases h)
  | @last line hne hs => exact .inr ⟨[],line,rfl,fun _ h => (by cases h),hne,hs⟩
  | @cons line rest hl _ ih =>
    obtain ha | ⟨first,last,rfl,hf,hne,hs⟩ := ih
    · exact .inl (forall_mem_cons.mpr ⟨hl,ha⟩)
    · exact .inr ⟨line :: first,last,rfl,forall_mem_cons.mpr ⟨hl,hf⟩,hne,hs⟩

theorem isLine_append (hs : sep ∉ text) (hl : IsLine sep line) : IsLine sep (text ++ line) := by
  obtain ⟨body,hb,rfl⟩ := hl
  refine ⟨text ++ body,fun hm => ?_,(append_assoc ..).symm⟩
  exact (mem_append.mp hm).elim hs hb

variable (sep) in
def unlines (ls : List (List α)) : List α := ls.flatMap fun line => line ++ [sep]

theorem unlines_cons (line : List α) (ls : List (List α)) :
    unlines sep (line :: ls) = line ++ sep :: unlines sep ls := by
  rw [unlines,flatMap_cons,append_assoc]
  rfl

theorem unlines_append (ls ls' : List (List α)) :
    unlines sep (ls ++ ls') = unlines sep ls ++ unlines sep ls' :=
  flatMap_append

/-! ### Dividing a text -/

variable [DecidableEq α]

variable (sep) in
/-- The lines of a text, each with its separator. -/
def lines : List α → List (List α)
  | [] => []
  | c :: rest =>
    if c = sep then [c] :: lines rest
    else match lines rest with
      | [] => [[c]]
      | line :: others => (c :: line) :: others

variable (sep) in
theorem flatten_lines (text : List α) : (lines sep text).flatten = text := by
  induction text with
  | nil => rfl
  | cons c rest ih =>
    rw [lines]
    split
    · rw [flatten_cons,ih,singleton_append]
    · split
      · next hn => rw [← ih,hn]; rfl
      · next first others hc => rw [← ih,hc]; rfl

theorem split_lines (text : List α) : Split sep (lines sep text) := by
  induction text with
  | nil => exact .nil
  | cons c rest ih =>
    rw [lines]
    split
    · next hc => exact .cons ⟨[],not_mem_nil,by rw [hc]; rfl⟩ ih
    · next hc =>
      have ha : ∀ body : List α, sep ∉ body → sep ∉ c :: body := fun body hb hm =>
        (mem_cons.mp hm).elim (fun h => hc h.symm) hb
      split
      · exact .last (cons_ne_nil _ _) (ha [] not_mem_nil)
      · next first others hco =>
        rw [hco] at ih
        cases ih with
        | last hne hs => exact .last (cons_ne_nil _ _) (ha first hs)
        | cons hl hr =>
          obtain ⟨body,hb,rfl⟩ := hl
          exact .cons ⟨c :: body,ha body hb,rfl⟩ hr

theorem lines_of_notMem (hne : line ≠ []) (hs : sep ∉ line) : lines sep line = [line] := by
  induction line with
  | nil => exact absurd rfl hne
  | cons c rest ih =>
    have hc : c ≠ sep := fun h => hs (h ▸ (.head _))
    rw [lines,if_neg hc]
    cases rest with
    | nil => rfl
    | cons d rest => rw [ih (cons_ne_nil _ _) fun h => hs (.tail _ h)]

theorem lines_append (hl : IsLine sep line) (text : List α) :
    lines sep (line ++ text) = line :: lines sep text := by
  obtain ⟨body,hb,rfl⟩ := hl
  induction body with
  | nil => rw [nil_append,singleton_append,lines,if_pos rfl]
  | cons c body ih =>
    have hc : c ≠ sep := fun h => hb (h ▸ (.head _))
    rw [cons_append,cons_append,lines,if_neg hc,ih fun h => hb (.tail _ h)]

theorem lines_flatten_append (h : ∀ line ∈ ls, IsLine sep line) :
    lines sep (ls.flatten ++ text) = ls ++ lines sep text := by
  induction ls with
  | nil => rfl
  | cons line ls ih =>
    obtain ⟨hl,hls⟩ := forall_mem_cons.mp h
    rw [flatten_cons,append_assoc,lines_append hl,ih hls,cons_append]

theorem lines_concat (h : ∀ line ∈ ls, IsLine sep line) (hl : IsLine sep line) :
    lines sep (ls.flatten ++ line) = ls ++ [line] := by
  have hs := lines_append hl []
  rw [append_nil] at hs
  rw [lines_flatten_append h,hs,lines]

/-- Lines are read back from the text that they make. -/
theorem Split.lines_flatten (h : Split sep ls) : lines sep ls.flatten = ls := by
  induction h with
  | nil => rfl
  | last hne hs => rw [flatten_singleton,lines_of_notMem hne hs]
  | cons hl _ ih => rw [flatten_cons,lines_append hl,ih]

theorem forall_isLine_iff : (∀ line ∈ lines sep text, IsLine sep line) ↔
    text = [] ∨ text.getLast? = some sep := by
  have ht := flatten_lines sep text
  constructor
  · intro h
    rcases eq_nil_or_concat (lines sep text) with hn | ⟨first,last,hla⟩
    · left
      rw [← ht,hn]
      rfl
    · right
      obtain ⟨body,-,hb⟩ := h last (by rw [hla]; simp)
      rw [← ht,hla,hb]
      simp
  · intro h
    obtain ha | ⟨first,last,hl,-,hne,hs⟩ := (split_lines text).cases_last
    · exact ha
    · rw [hl,flatten_append,flatten_singleton] at ht
      obtain rfl | he := h
      · exact absurd (append_eq_nil_iff.mp ht).2 hne
      · rw [← ht,List.getLast?_append_of_ne_nil _ hne] at he
        exact absurd (mem_of_getLast? he) hs

/-! ### Lines without their separators -/

variable (sep)

/-- The lines of a text that end, without their separators. -/
def ended (text : List α) : List (List α) :=
  ((lines sep text).filter fun line => line.getLast? = some sep).map List.dropLast

/-- What follows the last separator of a text. -/
def unended (text : List α) : List α :=
  ((lines sep text).filter fun line => line.getLast? ≠ some sep).flatten

variable {sep}

theorem exists_unlines (sep : α) (text : List α) : ∃ ls tail, text = unlines sep ls ++ tail ∧
    (∀ line ∈ ls, sep ∉ line) ∧ sep ∉ tail := by
  induction text with
  | nil => exact ⟨[],[],rfl,nofun,not_mem_nil⟩
  | cons c text ih =>
    obtain ⟨ls,tail,rfl,hls,ht⟩ := ih
    by_cases hc : c = sep
    · subst hc
      exact ⟨[] :: ls,tail,rfl,forall_mem_cons.mpr ⟨not_mem_nil,hls⟩,ht⟩
    · have ha : ∀ body : List α, sep ∉ body → sep ∉ c :: body :=
        fun body hb => not_mem_cons_of_ne_of_not_mem (.symm hc) hb
      cases ls with
      | nil => exact ⟨[],c :: tail,rfl,nofun,ha tail ht⟩
      | cons line ls =>
        obtain ⟨hl,hls⟩ := forall_mem_cons.mp hls
        refine ⟨(c :: line) :: ls,tail,?_,forall_mem_cons.mpr ⟨ha line hl,hls⟩,ht⟩
        rfl

theorem lines_unlines {tail : List α} (h : ∀ line ∈ ls, sep ∉ line) :
    lines sep (unlines sep ls ++ tail) = ls.map (· ++ [sep]) ++ lines sep tail := by
  exact lines_flatten_append (forall_mem_map.mpr fun line hl => ⟨line,h line hl,rfl⟩)

theorem ended_unlines {tail : List α} (h : ∀ line ∈ ls, sep ∉ line) (ht : sep ∉ tail) :
    ended sep (unlines sep ls ++ tail) = ls ∧ unended sep (unlines sep ls ++ tail) = tail := by
  have hr : (lines sep tail).filter (fun line => line.getLast? = some sep) = [] ∧
      ((lines sep tail).filter fun line => line.getLast? ≠ some sep).flatten = tail := by
    cases tail with
    | nil => exact ⟨rfl,rfl⟩
    | cons c tail =>
      have hl : (c :: tail).getLast? ≠ some sep :=
        fun hl => ht (mem_of_getLast? hl)
      rw [lines_of_notMem (cons_ne_nil c tail) ht]
      simp [hl]
  have he : (ls.map (· ++ [sep])).filter (fun line => line.getLast? = some sep) =
      ls.map (· ++ [sep]) := by
    refine filter_eq_self.mpr fun line hli => ?_
    obtain ⟨body,-,rfl⟩ := mem_map.mp hli
    simp
  have hn : (ls.map (· ++ [sep])).filter (fun line => line.getLast? ≠ some sep) = [] := by
    refine filter_eq_nil_iff.mpr fun line hli => ?_
    obtain ⟨body,-,rfl⟩ := mem_map.mp hli
    simp
  rw [ended,unended,lines_unlines h,filter_append,filter_append,he,hn,
    hr.1,append_nil,nil_append,map_map]
  refine ⟨?_,hr.2⟩
  refine (map_congr_left fun line _ => ?_).trans (map_id ls)
  exact dropLast_concat

theorem ended_append (text more : List α) : ended sep (text ++ more) =
    ended sep text ++ ended sep (unended sep text ++ more) := by
  obtain ⟨ls,tail,rfl,hls,ht⟩ := exists_unlines sep text
  obtain ⟨ls',tail',hm,hls',ht'⟩ := exists_unlines sep (tail ++ more)
  rw [(ended_unlines hls ht).1,(ended_unlines hls ht).2,append_assoc,hm,← append_assoc,
    ← unlines_append,(ended_unlines (forall_mem_append.mpr ⟨hls,hls'⟩) ht').1,
    (ended_unlines hls' ht').1]

/-! ### Splitting at separators -/

theorem splitOn_unlines {tail : List α} (h : ∀ line ∈ ls, sep ∉ line) (ht : sep ∉ tail) :
    (unlines sep ls ++ tail).splitOn sep = ls ++ [tail] := by
  induction ls with
  | nil => exact splitOn_eq_singleton ht
  | cons line ls ih =>
    obtain ⟨hl,hls⟩ := forall_mem_cons.mp h
    rw [unlines_cons,append_assoc,cons_append,
      splitOn_append_cons_self_of_not_mem hl,ih hls,cons_append]

theorem filter_of_notMem (h : sep ∉ text) : text.filter (· ≠ sep) = text := by
  refine filter_eq_self.mpr fun c hc => ?_
  simp only [ne_eq,decide_not,Bool.not_eq_true',decide_eq_false_iff_not]
  rintro rfl
  exact h hc

theorem filter_unlines {tail : List α} (h : ∀ line ∈ ls, sep ∉ line) (ht : sep ∉ tail) :
    (unlines sep ls ++ tail).filter (· ≠ sep) = ls.flatten ++ tail := by
  rw [filter_append,filter_of_notMem ht]
  congr 1
  induction ls with
  | nil => rfl
  | cons line ls ih =>
    obtain ⟨hl,hls⟩ := forall_mem_cons.mp h
    rw [unlines_cons,filter_append,filter_of_notMem hl,filter_cons_of_neg (by simp),
      ih hls,flatten_cons]

end Lines
