import Psiphon.Web.ServerInstance

/-!
# Flat JSON objects

A writer and a reader for objects of texts and natural numbers, like the records of the stores.
-/

namespace Psiphon.Web.Flat

open List

/-! ### Writing -/

def escape (c : Char) : Text := if c = '"' ∨ c = '\\' then ['\\', c] else [c]

def quoted (text : Text) : Text := '"' :: text.flatMap escape ++ ['"']

def dumpsItem : Value → Text
  | .int n => decimal n
  | .text t => quoted t
  | _ => []

def dumpsMember (member : Text × Value) : Text :=
  quoted member.1 ++ ':' :: ' ' :: dumpsItem member.2

def dumpsMembers : List (Text × Value) → Text
  | [] => ['\x7d']
  | [member] => dumpsMember member ++ ['\x7d']
  | member :: rest => dumpsMember member ++ ',' :: ' ' :: dumpsMembers rest

def dumps : Value → Text
  | .object members => '\x7b' :: dumpsMembers members
  | value => dumpsItem value

/-! ### Reading -/

/-- The text up to the closing quote, and what follows. -/
def unquote : Text → Option (Text × Text)
  | '"' :: rest => some ([], rest)
  | '\\' :: c :: rest => (unquote rest).map fun read => (c :: read.1, read.2)
  | c :: rest => (unquote rest).map fun read => (c :: read.1, read.2)
  | [] => none

def loadsItem : Text → Option (Value × Text)
  | '"' :: rest => (unquote rest).map fun read => (.text read.1, read.2)
  | text => (digits? (text.takeWhile Char.isDigit)).map fun n =>
    (.int n, text.dropWhile Char.isDigit)

def loadsMember (text : Text) : Option ((Text × Value) × Text) := do
  let (key, rest) ← character '"' text >>= unquote
  let (value, rest) ← character ':' rest >>= character ' ' >>= loadsItem
  return ((key, value), rest)

def loadsMembers : ℕ → Text → Option (List (Text × Value))
  | 0, _ => none
  | fuel + 1, text => do
    let (member, rest) ← loadsMember text
    match rest with
    | ['\x7d'] => return [member]
    | ',' :: ' ' :: rest => return member :: (← loadsMembers fuel rest)
    | _ => none

/-- Arrays are not read, and raise when they are nested too deep. -/
def loads : Text → Py Value
  | ['\x7b', '\x7d'] => .ok (.object [])
  | '\x7b' :: rest =>
    match loadsMembers rest.length rest with
    | some members => .ok (.object members)
    | none => .error .valueError
  | text =>
    if 1000 ≤ (text.takeWhile (· = '[')).length then .error .runtimeError else .error .valueError

/-! ### What was written is read -/

theorem unquote_quoted (text rest : Text) :
    unquote (text.flatMap escape ++ '"' :: rest) = some (text, rest) := by
  induction text with
  | nil => rfl
  | cons c text ih =>
    rw [flatMap_cons,append_assoc,escape]
    split
    · simp [unquote,ih]
    · next hc =>
      obtain ⟨hq,hb⟩ := not_or.mp hc
      simp [unquote,ih,hb]

theorem digits?_toDigits (n : ℕ) : digits? (Nat.toDigits 10 n) = some n := by
  have hd : (Nat.toDigits 10 n).all Char.isDigit = true :=
    all_eq_true.mpr fun _ => Nat.isDigit_of_mem_toDigits (by decide) (by decide)
  rw [digits?,if_pos ⟨Nat.toDigits_ne_nil,hd⟩]
  exact congrArg some (Nat.ofDigitChars_toDigits (by decide) (by decide))

/-- The writer writes the value, and the reader reads it. -/
def IsFlat (value : Value) : Prop := (∃ t, value = .text t) ∨ ∃ n : ℕ, value = .int n

variable {c : Char} (hc : c.isDigit = false)
include hc

theorem loadsItem_dumpsItem {value : Value} (h : IsFlat value) (rest : Text) :
    loadsItem (dumpsItem value ++ c :: rest) = some (value, c :: rest) := by
  rcases h with ⟨t,rfl⟩ | ⟨n,rfl⟩
  · simp [dumpsItem,quoted,loadsItem,unquote_quoted]
  · have hd : ∀ d ∈ Nat.toDigits 10 n, d.isDigit = true := fun _ =>
      Nat.isDigit_of_mem_toDigits (by decide) (by decide)
    have hq : ∀ tail, Nat.toDigits 10 n ++ c :: rest ≠ '"' :: tail := by
      obtain ⟨d,ds,hds⟩ := exists_cons_of_ne_nil (Nat.toDigits_ne_nil (b := 10) (n := n))
      rw [hds] at hd ⊢
      rintro tail h
      exact absurd ((cons.inj h).1 ▸ hd d (.head _)) (by decide)
    show loadsItem (Nat.toDigits 10 n ++ c :: rest) = _
    rw [loadsItem.eq_2 _ hq,takeWhile_append_of_pos hd,takeWhile_cons_of_neg (by simp [hc]),
      dropWhile_append_of_pos hd,dropWhile_cons_of_neg (by simp [hc]),append_nil,digits?_toDigits]
    rfl

theorem loadsMember_dumpsMember {member : Text × Value} (h : IsFlat member.2) (rest : Text) :
    loadsMember (dumpsMember member ++ c :: rest) = some (member, c :: rest) := by
  simp [loadsMember,dumpsMember,quoted,character,unquote_quoted,loadsItem_dumpsItem hc h]

omit hc

theorem loadsMembers_dumpsMembers {members : List (Text × Value)} (hne : members ≠ [])
    (h : ∀ member ∈ members, IsFlat member.2) {fuel : ℕ} (hf : members.length ≤ fuel) :
    loadsMembers fuel (dumpsMembers members) = some members := by
  induction members generalizing fuel with
  | nil => exact absurd rfl hne
  | cons member members ih =>
    obtain ⟨hm,hms⟩ := forall_mem_cons.mp h
    obtain ⟨fuel,rfl⟩ := Nat.exists_eq_add_one.mpr (Nat.lt_of_lt_of_le (by simp) hf)
    cases members with
    | nil => simp [dumpsMembers,loadsMembers,loadsMember_dumpsMember (c := '\x7d') rfl hm]
    | cons next members =>
      have hl := ih (cons_ne_nil _ _) hms (Nat.le_of_succ_le_succ hf)
      simp [dumpsMembers,loadsMembers,loadsMember_dumpsMember (c := ',') rfl hm,hl]

theorem length_le_dumpsMembers (members : List (Text × Value)) :
    members.length ≤ (dumpsMembers members).length := by
  induction members using dumpsMembers.induct with
  | case1 => simp
  | case2 member => simp [dumpsMembers]
  | case3 member rest hne ih =>
    rw [dumpsMembers.eq_3 _ _ hne]
    simp
    omega

/-- What was written is read back. -/
theorem loads_dumps {members : List (Text × Value)} (hne : members ≠ [])
    (h : ∀ member ∈ members, IsFlat member.2) :
    loads (dumps (.object members)) = .ok (.object members) := by
  have hl := loadsMembers_dumpsMembers hne h (length_le_dumpsMembers members)
  have hq : dumpsMembers members ≠ ['\x7d'] := by
    obtain ⟨member,rest,rfl⟩ := exists_cons_of_ne_nil hne
    cases rest <;> simp [dumpsMembers,dumpsMember,quoted]
  rw [dumps,loads.eq_2 _ hq,hl]

end Psiphon.Web.Flat
