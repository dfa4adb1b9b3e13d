import Mathlib.Data.List.Infix
import Mathlib.Tactic.FinCases

/-!
# JSON values as byte strings

JSON values, a printer that writes them without spaces, and a reader that reads back what it wrote.
-/

namespace Json

open List

abbrev Bytes := List UInt8

def ascii (text : String) : Bytes := text.toList.map fun c => UInt8.ofNat c.toNat

/-- JSON values, by what their keys and their floating-point numbers are. -/
inductive ValueOver (Key Real : Type) where
  | null
  | bool (b : Bool)
  | int (n : ℤ)
  | real (r : Real)
  | str (s : Bytes)
  | arr (items : List (ValueOver Key Real))
  | obj (members : List (Key × ValueOver Key Real))

/-- A value without floating-point numbers. -/
abbrev Value := ValueOver Bytes Empty

/-! ### Printing -/

def printNat (n : ℕ) : Bytes := (Nat.toDigits 10 n).map fun c => UInt8.ofNat c.toNat

def printInt : ℤ → Bytes
  | .ofNat n => printNat n
  | .negSucc n => 45 :: printNat (n + 1)

def hexDigit (d : ℕ) : UInt8 := UInt8.ofNat (if d < 10 then 48 + d else 55 + d)

/-- The byte cannot stand in a string as it is. -/
def escaped (c : UInt8) : Bool := c == 34 || c == 92 || c < 32

def printByte (c : UInt8) : Bytes :=
  if escaped c then [92, 117, 48, 48, hexDigit (c.toNat / 16), hexDigit (c.toNat % 16)] else [c]

def printString (s : Bytes) : Bytes := 34 :: s.flatMap printByte ++ [34]

mutual

def print : Value → Bytes
  | .null => ascii "null"
  | .bool true => ascii "true"
  | .bool false => ascii "false"
  | .int n => printInt n
  | .real r => r.elim
  | .str s => printString s
  | .arr items => 91 :: printItems items
  | .obj members => 123 :: printMembers members

/-- The items up to the closing bracket. -/
def printItems : List Value → Bytes
  | [] => [93]
  | [v] => print v ++ [93]
  | v :: w :: rest => print v ++ 44 :: printItems (w :: rest)

/-- The members up to the closing brace. -/
def printMembers : List (Bytes × Value) → Bytes
  | [] => [125]
  | [(key, v)] => printString key ++ 58 :: print v ++ [125]
  | (key, v) :: m :: rest => printString key ++ 58 :: print v ++ 44 :: printMembers (m :: rest)

end

/-! ### Reading -/

def isSpace (c : UInt8) : Bool := c == 32 || c == 9 || c == 10 || c == 13

def skipSpaces (text : Bytes) : Bytes := text.dropWhile isSpace

def isDigit (c : UInt8) : Bool := 48 ≤ c && c ≤ 57

def numberOf (digits : Bytes) : ℕ :=
  Nat.ofDigitChars 10 (digits.map fun c => Char.ofNat c.toNat) 0

def readNat (text : Bytes) : Option (ℕ × Bytes) :=
  match text.takeWhile isDigit with
  | [] => none
  | digits => some (numberOf digits, text.dropWhile isDigit)

def hexValue (c : UInt8) : Option ℕ :=
  if isDigit c then some (c.toNat - 48)
  else if 65 ≤ c && c ≤ 70 then some (c.toNat - 55)
  else if 97 ≤ c && c ≤ 102 then some (c.toNat - 87)
  else none

def hexByte (high low : UInt8) : Option UInt8 := do
  let h ← hexValue high
  let l ← hexValue low
  return UInt8.ofNat (16 * h + l)

/-- The rest of a string, after its opening quote. -/
def readString : Bytes → Option (Bytes × Bytes)
  | [] => none
  | 34 :: rest => some ([], rest)
  | 92 :: 117 :: 48 :: 48 :: high :: low :: rest =>
    (hexByte high low).bind fun c => (readString rest).map fun (s, rest) => (c :: s, rest)
  | 92 :: 34 :: rest => (readString rest).map fun (s, rest) => (34 :: s, rest)
  | 92 :: 92 :: rest => (readString rest).map fun (s, rest) => (92 :: s, rest)
  | 92 :: 47 :: rest => (readString rest).map fun (s, rest) => (47 :: s, rest)
  | 92 :: _ => none
  | c :: rest => (readString rest).map fun (s, rest) => (c :: s, rest)

section Sequences

variable {α : Type} (p : Bytes → Option (α × Bytes)) (close : UInt8)

/-- One element or more, separated by commas, up to the closing byte. -/
def readElements : ℕ → Bytes → Option (List α × Bytes)
  | 0, _ => none
  | fuel + 1, text => do
    let (a, rest) ← p text
    match skipSpaces rest with
    | [] => none
    | c :: rest =>
      if c = 44 then (readElements fuel rest).map fun (l, rest) => (a :: l, rest)
      else if c = close then some ([a], rest)
      else none

def readSequence (text : Bytes) : Option (List α × Bytes) :=
  match skipSpaces text with
  | [] => none
  | c :: rest => if c = close then some ([], rest) else readElements p close text.length text

end Sequences

def readMember (p : Bytes → Option (Value × Bytes)) (text : Bytes) :
    Option ((Bytes × Value) × Bytes) :=
  match skipSpaces text with
  | 34 :: rest => do
    let (key, rest) ← readString rest
    match skipSpaces rest with
    | 58 :: rest => (p rest).map fun (v, rest) => ((key, v), rest)
    | _ => none
  | _ => none

def readWord (text : Bytes) : Option (Value × Bytes) :=
  if ascii "null" <+: text then some (.null, text.drop 4)
  else if ascii "true" <+: text then some (.bool true, text.drop 4)
  else if ascii "false" <+: text then some (.bool false, text.drop 5)
  else none

/-- A value at the start of a text, and what follows it. -/
def readValue : ℕ → Bytes → Option (Value × Bytes)
  | 0, _ => none
  | fuel + 1, text =>
    match skipSpaces text with
    | [] => none
    | c :: rest =>
      if c = 34 then (readString rest).map fun (s, rest) => (.str s, rest)
      else if c = 91 then
        (readSequence (readValue fuel) 93 rest).map fun (items, rest) => (.arr items, rest)
      else if c = 123 then
        (readSequence (readMember (readValue fuel)) 125 rest).map
          fun (members, rest) => (.obj members, rest)
      else if c = 45 then (readNat rest).map fun (n, rest) => (.int (-n), rest)
      else if isDigit c then (readNat (c :: rest)).map fun (n, rest) => (.int n, rest)
      else readWord (c :: rest)

/-- The value at the start of a text; what follows it is ignored. -/
def read (text : Bytes) : Option Value := (readValue text.length text).map Prod.fst

/-! ### Numbers and strings read back -/

theorem isDigit_ofChar {c : Char} (h : c.isDigit = true) :
    isDigit (UInt8.ofNat c.toNat) = true ∧ Char.ofNat (UInt8.ofNat c.toNat).toNat = c := by
  have hr : 48 ≤ c.toNat ∧ c.toNat ≤ 57 := by
    simpa [Char.isDigit,UInt32.le_iff_toNat_le] using h
  have hs : (UInt8.ofNat c.toNat).toNat = c.toNat := by
    rw [UInt8.toNat_ofNat']
    omega
  refine ⟨?_,?_⟩
  · simp only [isDigit,UInt8.le_iff_toNat_le,hs,Bool.and_eq_true,decide_eq_true_eq]
    exact hr
  · rw [hs,Char.ofNat_toNat]

variable {c : UInt8}

theorem isDigit_of_mem_printNat {n : ℕ} (h : c ∈ printNat n) : isDigit c = true := by
  obtain ⟨d,hd,rfl⟩ := mem_map.mp h
  exact (isDigit_ofChar (Nat.isDigit_of_mem_toDigits (by decide) (by decide) hd)).1

theorem numberOf_printNat (n : ℕ) : numberOf (printNat n) = n := by
  have hch : (printNat n).map (fun c => Char.ofNat c.toNat) = Nat.toDigits 10 n := by
    rw [printNat,map_map]
    refine (map_congr_left fun c hc => ?_).trans (map_id _)
    exact (isDigit_ofChar (Nat.isDigit_of_mem_toDigits (by decide) (by decide) hc)).2
  rw [numberOf,hch,Nat.ofDigitChars_toDigits (by decide) (by decide)]

/-- What follows a value does not continue a number. -/
def Stops (rest : Bytes) : Prop := ∀ c ∈ rest.head?, isDigit c = false

variable {rest : Bytes}

theorem Stops.takeWhile (h : Stops rest) : rest.takeWhile isDigit = [] := by
  cases rest with
  | nil => rfl
  | cons c rest => rw [takeWhile_cons_of_neg (by simp [h c rfl])]

theorem Stops.dropWhile (h : Stops rest) : rest.dropWhile isDigit = rest := by
  cases rest with
  | nil => rfl
  | cons c rest => rw [dropWhile_cons_of_neg (by simp [h c rfl])]

theorem printNat_ne_nil (n : ℕ) : printNat n ≠ [] := by
  simp [printNat,Nat.toDigits_ne_nil]

theorem readNat_printNat (n : ℕ) (h : Stops rest) :
    readNat (printNat n ++ rest) = some (n, rest) := by
  have hd : ∀ c ∈ printNat n, isDigit c = true := fun c hc => isDigit_of_mem_printNat hc
  have ht : (printNat n ++ rest).takeWhile isDigit = printNat n := by
    rw [takeWhile_append_of_pos hd,h.takeWhile,append_nil]
  have hdr : (printNat n ++ rest).dropWhile isDigit = rest := by
    rw [dropWhile_append_of_pos hd,h.dropWhile]
  rw [readNat,ht,hdr]
  split
  case h_1 hnil => exact absurd hnil (printNat_ne_nil n)
  case h_2 => rw [numberOf_printNat]

theorem hexValue_hexDigit {d : ℕ} (h : d < 16) : hexValue (hexDigit d) = some d := by
  have ha : ∀ d < 16, hexValue (hexDigit d) = some d := by decide
  exact ha d h

theorem hexByte_hexDigit (c : UInt8) :
    hexByte (hexDigit (c.toNat / 16)) (hexDigit (c.toNat % 16)) = some c := by
  have hc : c.toNat < 256 := c.toNat_lt
  have hb : UInt8.ofNat (16 * (c.toNat / 16) + c.toNat % 16) = c := by
    rw [Nat.div_add_mod,UInt8.ofNat_toNat]
  rw [hexByte,hexValue_hexDigit (by omega),hexValue_hexDigit (by omega)]
  exact congrArg some hb

theorem readString_printByte (c : UInt8) (text : Bytes) :
    readString (printByte c ++ text) = (readString text).map fun (s, rest) => (c :: s, rest) := by
  cases he : escaped c with
  | true =>
    rw [printByte,if_pos he]
    show readString (92 :: 117 :: 48 :: 48 :: hexDigit (c.toNat / 16) ::
      hexDigit (c.toNat % 16) :: text) = _
    rw [readString,hexByte_hexDigit,Option.bind_some]
  | false =>
    rw [printByte,if_neg (by simp [he])]
    simp only [escaped,Bool.or_eq_false_iff,beq_eq_false_iff_ne] at he
    -- a byte that is neither a quote nor a backslash stands for itself
    have hs : c = 92 → False := he.1.2
    show readString (c :: text) = _
    rw [readString]
    · exact he.1.1
    · exact fun _ _ _ h _ => hs h
    · exact fun _ h _ => hs h
    · exact fun _ h _ => hs h
    · exact fun _ h _ => hs h
    · exact hs

theorem readString_printString (s rest : Bytes) :
    readString (s.flatMap printByte ++ 34 :: rest) = some (s, rest) := by
  induction s with
  | nil => rfl
  | cons c s ih => rw [flatMap_cons,append_assoc,readString_printByte,ih]; rfl

/-! ### Sequences read back -/

/-- The text starts with a byte that a reader looks at. -/
def Starts (close : UInt8) (text : Bytes) : Prop :=
  ∃ c rest, text = c :: rest ∧ isSpace c = false ∧ c ≠ close

section Sequences

variable {α : Type} {p : Bytes → Option (α × Bytes)} {q : α → Bytes} {close : UInt8}

/-- Elements up to the closing byte. -/
def printElements (q : α → Bytes) (close : UInt8) : List α → Bytes
  | [] => [close]
  | [a] => q a ++ [close]
  | a :: b :: l => q a ++ 44 :: printElements q close (b :: l)

theorem length_lt_printElements (q : α → Bytes) (close : UInt8) {l : List α} {a : α} (h : a ∈ l) :
    (q a).length < (printElements q close l).length := by
  induction l with
  | nil => cases h
  | cons b l ih =>
    cases l with
    | nil =>
      obtain rfl := mem_singleton.mp h
      simp [printElements]
    | cons c l =>
      rw [printElements,length_append,length_cons]
      rcases mem_cons.mp h with rfl | h
      · omega
      · have := ih h
        omega

theorem length_le_printElements (q : α → Bytes) (close : UInt8) (l : List α) :
    l.length ≤ (printElements q close l).length := by
  induction l with
  | nil => simp
  | cons a l ih =>
    cases l with
    | nil => simp [printElements]
    | cons b l =>
      rw [length_cons] at ih ⊢
      rw [printElements,length_append,length_cons,length_cons]
      omega

theorem skipSpaces_cons (h : isSpace c = false) (rest : Bytes) :
    skipSpaces (c :: rest) = c :: rest :=
  dropWhile_cons_of_neg (by simp [h])

theorem stops_cons (h : isDigit c = false) (rest : Bytes) : Stops (c :: rest) := by
  intro d hd
  obtain rfl : c = d := by simpa using hd
  exact h

theorem readElements_print (hs : isSpace close = false) (hd : isDigit close = false)
    (hc : close ≠ 44) {l : List α}
    (hp : ∀ a ∈ l, ∀ rest, Stops rest → p (q a ++ rest) = some (a, rest)) (hne : l ≠ [])
    {fuel : ℕ} (hf : l.length ≤ fuel) (rest : Bytes) :
    readElements p close fuel (printElements q close l ++ rest) = some (l, rest) := by
  induction l generalizing fuel with
  | nil => exact absurd rfl hne
  | cons a l ih =>
    obtain ⟨fuel,rfl⟩ : ∃ n, fuel = n + 1 := ⟨fuel - 1,by rw [length_cons] at hf; omega⟩
    cases l with
    | nil =>
      have ha := hp a (.head _) (close :: rest) (stops_cons hd rest)
      rw [printElements,append_assoc,singleton_append,readElements,ha]
      simp [skipSpaces_cons hs,hc]
    | cons b l =>
      have ha := hp a (.head _) (44 :: printElements q close (b :: l) ++ rest) (stops_cons rfl _)
      have hr := ih (fun a ha => hp a (.tail _ ha)) (by simp) (Nat.le_of_succ_le_succ hf)
      rw [printElements,append_assoc,readElements,ha]
      simp [skipSpaces_cons (show isSpace 44 = false by decide),hr]

theorem readSequence_print (hsp : isSpace close = false) (hd : isDigit close = false)
    (hco : close ≠ 44) {l : List α} (hs : ∀ a ∈ l, Starts close (q a))
    (hp : ∀ a ∈ l, ∀ rest, Stops rest → p (q a ++ rest) = some (a, rest)) (rest : Bytes) :
    readSequence p close (printElements q close l ++ rest) = some (l, rest) := by
  cases l with
  | nil =>
    show readSequence p close (close :: rest) = _
    simp [readSequence,skipSpaces_cons hsp]
  | cons a l =>
    obtain ⟨c,text,hc,hsp',hcl⟩ := hs a (.head _)
    have hh : ∃ text', printElements q close (a :: l) ++ rest = c :: text' := by
      cases l with
      | nil => exact ⟨text ++ [close] ++ rest,by simp [printElements,hc]⟩
      | cons b l => exact ⟨text ++ 44 :: printElements q close (b :: l) ++ rest,by
          simp [printElements,hc]⟩
    have hf : (a :: l).length ≤ (printElements q close (a :: l) ++ rest).length := by
      have := length_le_printElements q close (a :: l)
      rw [length_append]
      omega
    have hr := readElements_print hsp hd hco hp (by simp) hf rest
    obtain ⟨text',ht⟩ := hh
    rw [readSequence,ht,skipSpaces_cons hsp']
    rw [ht] at hr
    exact (if_neg hcl).trans hr

end Sequences

/-! ### Values read back -/

theorem printItems_eq (items : List Value) : printItems items = printElements print 93 items := by
  induction items with
  | nil => rfl
  | cons v items ih =>
    cases items with
    | nil => rfl
    | cons w items => rw [printItems,printElements,ih]

def printMember (m : Bytes × Value) : Bytes := printString m.1 ++ 58 :: print m.2

theorem printMembers_eq (members : List (Bytes × Value)) :
    printMembers members = printElements printMember 125 members := by
  induction members with
  | nil => rfl
  | cons m members ih =>
    cases members with
    | nil => simp [printMembers,printElements,printMember]
    | cons m' members => simp [printMembers,printElements,printMember,ih]

theorem of_isDigit (h : isDigit c = true) : isSpace c = false ∧ c ∉ [34,45,91,93,123,125] := by
  refine ⟨?_,fun hm => ?_⟩
  · by_contra hs
    simp only [isSpace,Bool.not_eq_false,Bool.or_eq_true,beq_iff_eq] at hs
    rcases hs with ((rfl | rfl) | rfl) | rfl <;> exact absurd h (by decide)
  · fin_cases hm <;> exact absurd h (by decide)

theorem starts_print (v : Value) {close : UInt8} (hcl : close = 93 ∨ close = 125) :
    Starts close (print v) := by
  have hne : ∀ c : UInt8, c ≠ 93 → c ≠ 125 → c ≠ close := by
    intro c h93 h125
    rcases hcl with rfl | rfl
    · exact h93
    · exact h125
  have hnat : ∀ n, Starts close (printNat n) := by
    intro n
    cases hn : printNat n with
    | nil => exact absurd hn (printNat_ne_nil n)
    | cons c rest =>
      have hc : isDigit c = true := isDigit_of_mem_printNat (by rw [hn]; exact (.head _))
      obtain ⟨hs,hnot⟩ := of_isDigit hc
      refine ⟨c,rest,rfl,hs,hne c ?_ ?_⟩
      · rintro rfl
        exact hnot (by decide)
      · rintro rfl
        exact hnot (by decide)
  cases v with
  | null => exact ⟨110,_,rfl,rfl,hne _ (by decide) (by decide)⟩
  | bool b => cases b <;> exact ⟨_,_,rfl,rfl,hne _ (by decide) (by decide)⟩
  | int n =>
    cases n with
    | ofNat n => exact hnat n
    | negSucc n => exact ⟨45,_,rfl,rfl,hne _ (by decide) (by decide)⟩
  | real r => exact r.elim
  | str s => exact ⟨34,_,rfl,rfl,hne _ (by decide) (by decide)⟩
  | arr items => exact ⟨91,_,by rw [print],rfl,hne _ (by decide) (by decide)⟩
  | obj members => exact ⟨123,_,by rw [print],rfl,hne _ (by decide) (by decide)⟩

theorem readMember_print {p : Bytes → Option (Value × Bytes)} {m : Bytes × Value}
    (h : p (print m.2 ++ rest) = some (m.2, rest)) :
    readMember p (printMember m ++ rest) = some (m, rest) := by
  have ht : printMember m ++ rest =
      34 :: (m.1.flatMap printByte ++ 34 :: 58 :: (print m.2 ++ rest)) := by
    simp [printMember,printString]
  rw [ht,readMember,skipSpaces_cons (show isSpace 34 = false by decide)]
  simp [readString_printString,skipSpaces_cons (show isSpace 58 = false by decide),h]

theorem readValue_of_head {fuel : ℕ} (hs : isSpace c = false) (rest : Bytes) :
    readValue (fuel + 1) (c :: rest) =
      if c = 34 then (readString rest).map fun (s, rest) => (.str s, rest) else if c = 91 then
        (readSequence (readValue fuel) 93 rest).map fun (items, rest) => (.arr items, rest)
      else if c = 123 then (readSequence (readMember (readValue fuel)) 125 rest).map
          fun (members, rest) => (.obj members, rest)
      else if c = 45 then (readNat rest).map fun (n, rest) => (.int (-n), rest)
      else if isDigit c then (readNat (c :: rest)).map fun (n, rest) => (.int n, rest)
      else readWord (c :: rest) := by
  rw [readValue,skipSpaces_cons hs]

theorem readValue_printNat {fuel n : ℕ} (hs : Stops rest) :
    readValue (fuel + 1) (printNat n ++ rest) = some (.int n, rest) := by
  have hr := readNat_printNat n hs
  cases hn : printNat n with
  | nil => exact absurd hn (printNat_ne_nil n)
  | cons c digits =>
    have hc : isDigit c = true := isDigit_of_mem_printNat (by rw [hn]; exact (.head _))
    obtain ⟨hsp,hnot⟩ := of_isDigit hc
    simp only [mem_cons,not_or] at hnot
    rw [hn,cons_append] at hr
    rw [cons_append,readValue_of_head hsp]
    simp [hnot,hc,hr]

/-- A value reads back, with enough fuel. -/
theorem readValue_print {fuel : ℕ} {v : Value} (hf : (print v).length ≤ fuel)
    (hs : Stops rest) : readValue fuel (print v ++ rest) = some (v, rest) := by
  induction fuel generalizing v rest with
  | zero =>
    obtain ⟨c,text,ht,-,-⟩ := starts_print v (.inl rfl)
    simp [ht] at hf
  | succ fuel ih =>
    cases v with
    | null => rfl
    | bool b => cases b <;> rfl
    | int n =>
      cases n with
      | ofNat n => exact readValue_printNat hs
      | negSucc n =>
        have hre := readNat_printNat (n + 1) hs
        show readValue (fuel + 1) (45 :: (printNat (n + 1) ++ rest)) = _
        rw [readValue_of_head rfl]
        simp [hre,Int.negSucc_eq]
    | real r => exact r.elim
    | str s =>
      have ht : print (.str s) ++ rest = 34 :: (s.flatMap printByte ++ 34 :: rest) := by
        simp [print,printString]
      rw [ht,readValue_of_head rfl,if_pos rfl,readString_printString]
      rfl
    | arr items =>
      have hlen : ∀ v ∈ items, (print v).length ≤ fuel := by
        intro v hv
        have := length_lt_printElements print 93 hv
        rw [print,printItems_eq,length_cons] at hf
        omega
      have hi : readSequence (readValue fuel) 93 (printElements print 93 items ++ rest) =
          some (items, rest) :=
        readSequence_print rfl rfl (by decide) (fun v _ => starts_print v (.inl rfl))
          (fun v hv rest hr => ih (hlen v hv) hr) rest
      rw [print,printItems_eq,cons_append,readValue_of_head rfl]
      simp [hi]
    | obj members =>
      have hlen : ∀ m ∈ members, (print m.2).length ≤ fuel := by
        intro m hm
        have := length_lt_printElements printMember 125 hm
        rw [print,printMembers_eq,length_cons] at hf
        rw [printMember,length_append,length_cons] at this
        omega
      have hme : readSequence (readMember (readValue fuel)) 125
          (printElements printMember 125 members ++ rest) = some (members, rest) :=
        readSequence_print rfl rfl (by decide) (fun m _ => ⟨34,_,rfl,rfl,by decide⟩)
          (fun m hm rest hr => readMember_print (ih (hlen m hm) hr)) rest
      rw [print,printMembers_eq,cons_append,readValue_of_head rfl]
      simp [hme]

theorem readValue_spaces {s : Bytes} (h : ∀ c ∈ s, isSpace c = true) (fuel : ℕ)
    (text : Bytes) : readValue fuel (s ++ text) = readValue fuel text := by
  cases fuel with
  | zero => rfl
  | succ fuel => rw [readValue,readValue,skipSpaces,dropWhile_append_of_pos h,skipSpaces]

/-- The reader reads back what the printer wrote, after spaces and before anything that does not
continue a number. -/
theorem read_print_append {s rest : Bytes} (hs : ∀ c ∈ s, isSpace c = true)
    (hst : Stops rest) (v : Value) : read (s ++ (print v ++ rest)) = some v := by
  have hf : (print v).length ≤ (s ++ (print v ++ rest)).length := by
    rw [length_append,length_append]
    omega
  rw [read,readValue_spaces hs,readValue_print hf hst]
  rfl

theorem read_print (v : Value) : read (print v) = some v := by
  have h := @read_print_append [] [] nofun nofun v
  rwa [nil_append,append_nil] at h

/-! ### What a printed value is made of -/

theorem of_mem_printElements {α : Type} {q : α → Bytes} {close c : UInt8} {l : List α}
    (h : c ∈ printElements q close l) : c = 44 ∨ c = close ∨ ∃ a ∈ l, c ∈ q a := by
  induction l with
  | nil => exact .inr (.inl (mem_singleton.mp h))
  | cons a l ih =>
    cases l with
    | nil =>
      rcases mem_append.mp h with h | h
      · exact .inr (.inr ⟨a,(.head _),h⟩)
      · exact .inr (.inl (mem_singleton.mp h))
    | cons b l =>
      rcases mem_append.mp h with h | h
      · exact .inr (.inr ⟨a,(.head _),h⟩)
      · rcases mem_cons.mp h with h | h
        · exact .inl h
        · rcases ih h with h | h | ⟨a',ha',h⟩
          · exact .inl h
          · exact .inr (.inl h)
          · exact .inr (.inr ⟨a',mem_cons_of_mem _ ha',h⟩)

theorem le_of_mem_printNat {n : ℕ} (h : c ∈ printNat n) : 32 ≤ c := by
  have hd := isDigit_of_mem_printNat h
  simp only [isDigit,Bool.and_eq_true,decide_eq_true_eq] at hd
  exact UInt8.le_trans (by decide) hd.1

theorem le_of_mem_printString {s : Bytes} (h : c ∈ printString s) : 32 ≤ c := by
  have hhex : ∀ d < 16, 32 ≤ hexDigit d := by decide
  rw [printString,cons_append,mem_cons,mem_append,mem_singleton] at h
  rcases h with rfl | h | rfl
  · decide
  · obtain ⟨b,-,hb⟩ := mem_flatMap.mp h
    have hbyte : b.toNat < 256 := b.toNat_lt
    rw [printByte] at hb
    split at hb
    case isTrue =>
      simp only [mem_cons,not_mem_nil,or_false] at hb
      rcases hb with rfl | rfl | rfl | rfl | rfl | rfl
      · decide
      · decide
      · decide
      · decide
      · exact hhex _ (by omega)
      · exact hhex _ (by omega)
    case isFalse hesc =>
      obtain rfl := mem_singleton.mp hb
      simp only [escaped,Bool.or_eq_true,decide_eq_true_eq,not_or] at hesc
      exact UInt8.not_lt.mp hesc.2
  · decide

/-- A printed value has no control characters. -/
theorem le_of_mem_print {v : Value} (h : c ∈ print v) : 32 ≤ c := by
  -- by induction on the length of the text, as for reading
  obtain ⟨n,hn⟩ : ∃ n, (print v).length ≤ n := ⟨_,le_rfl⟩
  induction n generalizing v with
  | zero => simp [length_eq_zero_iff.mp (Nat.le_zero.mp hn)] at h
  | succ n ih =>
    cases v with
    | null => exact (show ∀ c ∈ ascii "null", 32 ≤ c by decide +kernel) c h
    | bool b =>
      cases b
      · exact (show ∀ c ∈ ascii "false", 32 ≤ c by decide +kernel) c h
      · exact (show ∀ c ∈ ascii "true", 32 ≤ c by decide +kernel) c h
    | int m =>
      cases m with
      | ofNat m => exact le_of_mem_printNat h
      | negSucc m =>
        rcases mem_cons.mp h with rfl | h
        · decide
        · exact le_of_mem_printNat h
    | real r => exact r.elim
    | str s => exact le_of_mem_printString h
    | arr items =>
      rw [print,printItems_eq] at h hn
      rcases mem_cons.mp h with rfl | h
      · decide
      · rcases of_mem_printElements h with rfl | rfl | ⟨v,hv,h⟩
        · decide
        · decide
        · have := length_lt_printElements print 93 hv
          exact ih h (by rw [length_cons] at hn; omega)
    | obj members =>
      rw [print,printMembers_eq] at h hn
      rcases mem_cons.mp h with rfl | h
      · decide
      · rcases of_mem_printElements h with rfl | rfl | ⟨m,hm,h⟩
        · decide
        · decide
        · rcases mem_append.mp h with h | h
          · exact le_of_mem_printString h
          · rcases mem_cons.mp h with rfl | h
            · decide
            · have := length_lt_printElements printMember 125 hm
              rw [printMember,length_append,length_cons] at this
              exact ih h (by rw [length_cons] at hn; omega)

end Json
