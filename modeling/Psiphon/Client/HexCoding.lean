import Psiphon.Client.ServerEntryText

/-!
# Hexadecimal text

`Hexlify` and `Dehexlify` of `utilities.cpp`, with the table that they look digits up in.
-/

namespace Psiphon.Client.HexCoding

open List
open Json (Bytes ascii hexDigit hexValue)

def lut : Bytes := ascii "0123456789ABCDEF"

/-- What a pointer into the table reads; there is a NUL behind the digits. -/
def lutAt (p : ℕ) : UInt8 := lut.getD p 0

def hexlify (input : Bytes) : Bytes :=
  input.flatMap fun c : UInt8 => [lutAt (c >>> 4).toNat, lutAt (c &&& 15).toNat]

/-- `toupper` in the C locale. -/
def toupper (c : UInt8) : UInt8 := if 97 ≤ c ∧ c ≤ 122 then c - 32 else c

/-- `std::lower_bound` over `count` characters from `first` on; `char` is signed. -/
def lowerBound (a : UInt8) (first count : ℕ) : ℕ :=
  if count = 0 then first
  else if (lutAt (first + count / 2)).toInt8 < a.toInt8 then
    lowerBound a (first + count / 2 + 1) (count - (count / 2 + 1))
  else lowerBound a first (count / 2)
termination_by count

/-- The position of a digit in the table. -/
def position (c : UInt8) : Cpp ℕ :=
  let p := lowerBound (toupper c) 0 16
  if lutAt p ≠ toupper c then throw "Dehexlify: not a hex digit" else return p

/-- The byte of two digits. -/
def byteOf (p q : ℕ) : UInt8 := UInt8.ofNat (p <<< 4 ||| q)

def dehexlifyPairs : Bytes → Cpp Bytes
  | a :: b :: rest => do
    let p ← position a
    let q ← position b
    let output ← dehexlifyPairs rest
    return byteOf p q :: output
  | _ => return []

def dehexlify (input : Bytes) : Cpp Bytes :=
  if input.length % 2 = 1 then throw "Dehexlify: odd length" else dehexlifyPairs input

/-! ### Digits -/

def IsHexDigit (c : UInt8) : Prop := 48 ≤ c ∧ c ≤ 57 ∨ 65 ≤ c ∧ c ≤ 70 ∨ 97 ≤ c ∧ c ≤ 102

instance (c : UInt8) : Decidable (IsHexDigit c) := inferInstanceAs (Decidable (_ ∨ _))

/-- The search finds a digit of the table, the one of the character, or there is none. -/
def Finds (c : UInt8) : Prop :=
  match hexValue c with
  | some d => position c = .ok d ∧ d < 16 ∧ hexDigit d = toupper c ∧ IsHexDigit c
  | none => position c = .error "Dehexlify: not a hex digit" ∧ ¬ IsHexDigit c

instance (c : UInt8) : Decidable (Finds c) := by
  unfold Finds
  split <;> infer_instance

/-- Each of the 256 characters, NUL and those above 127 among them. -/
theorem finds (c : UInt8) : Finds c := by
  have hall : ∀ n < 256, Finds (UInt8.ofNat n) := by decide +kernel
  rw [← UInt8.ofNat_toNat (x := c)]
  exact hall _ c.toNat_lt

theorem lutAt_halves (c : UInt8) : lutAt (c >>> 4).toNat = hexDigit (c.toNat / 16) ∧
    lutAt (c &&& 15).toNat = hexDigit (c.toNat % 16) := by
  have hall : ∀ n < 256, lutAt (UInt8.ofNat n >>> 4).toNat = hexDigit (n / 16) ∧
      lutAt (UInt8.ofNat n &&& 15).toNat = hexDigit (n % 16) := by decide +kernel
  simpa using hall _ c.toNat_lt

theorem byteOf_spec {p q : ℕ} (hp : p < 16) (hq : q < 16) : byteOf p q = UInt8.ofNat (16 * p + q) ∧
    lutAt (byteOf p q >>> 4).toNat = hexDigit p ∧ lutAt (byteOf p q &&& 15).toNat = hexDigit q := by
  have hall : ∀ p < 16, ∀ q < 16, byteOf p q = UInt8.ofNat (16 * p + q) ∧
      lutAt (byteOf p q >>> 4).toNat = hexDigit p ∧
      lutAt (byteOf p q &&& 15).toNat = hexDigit q := by decide +kernel
  exact hall p hp q hq

/-! ### Texts -/

theorem hexlify_eq (input : Bytes) : hexlify input = Client.hexlify input := by
  refine congrArg (flatMap · input) (funext fun c => ?_)
  rw [(lutAt_halves c).1,(lutAt_halves c).2]

/-- What is decoded of a text is encoded to its upper case; or a character is no digit. -/
def Decodes (s : Bytes) : Cpp Bytes → Prop
  | .ok t => hexlify t = s.map toupper ∧ ∀ c ∈ s, IsHexDigit c
  | .error _ => ∃ c ∈ s, ¬ IsHexDigit c

theorem dehexlifyPairs_spec {s : Bytes} (h : s.length % 2 = 0) :
    dehexlifyPairs s = Client.dehexlifyPairs s ∧ Decodes s (dehexlifyPairs s) := by
  fun_induction dehexlifyPairs s with
  | case1 a b rest ih =>
    have ha := finds a
    have hb := finds b
    rw [Finds] at ha hb
    rw [Client.dehexlifyPairs,Json.hexByte]
    cases hp : hexValue a with
    | none =>
      rw [hp] at ha
      rw [ha.1]
      exact ⟨rfl,a,.head _,ha.2⟩
    | some p =>
      rw [hp] at ha
      rw [ha.1]
      cases hq : hexValue b with
      | none =>
        rw [hq] at hb
        rw [hb.1]
        exact ⟨rfl,b,.tail _ (.head _),hb.2⟩
      | some q =>
        rw [hq] at hb
        rw [hb.1]
        obtain ⟨he,hd⟩ := ih (by simp only [length_cons] at h; omega)
        rw [he] at hd ⊢
        cases hr : Client.dehexlifyPairs rest with
        | error e =>
          rw [hr] at hd
          obtain ⟨c,hc,hn⟩ := hd
          exact ⟨rfl,c,.tail _ (.tail _ hc),hn⟩
        | ok t =>
          rw [hr] at hd
          obtain ⟨hc,hh,hl⟩ := byteOf_spec ha.2.1 hb.2.1
          refine ⟨congrArg (fun c => Except.ok (c :: t)) hc,?_,?_⟩
          · show lutAt _ :: lutAt _ :: hexlify t = _
            rw [hh,hl,ha.2.2.1,hb.2.2.1,hd.1]
            rfl
          · exact forall_mem_cons.mpr ⟨ha.2.2.2,forall_mem_cons.mpr ⟨hb.2.2.2,hd.2⟩⟩
  | case2 s hs =>
    cases s with
    | nil => exact ⟨rfl,rfl,forall_mem_nil _⟩
    | cons a s =>
      cases s with
      | nil => cases h
      | cons b rest => exact absurd rfl (hs a b rest)

/-- `Dehexlify` inverts `Hexlify`, and accepts the texts of even length with digits of either
case. -/
theorem hex_coding_exact :
    (∀ b, dehexlify (hexlify b) = .ok b) ∧ ∀ s,
      ((∃ t, dehexlify s = .ok t) ↔ s.length % 2 = 0 ∧ ∀ c ∈ s, IsHexDigit c) ∧
      (∀ t, dehexlify s = .ok t → hexlify t = s.map toupper) ∧
      ∀ c ∈ s, ∀ p, position c = .ok p → p < 16 := by
  refine ⟨fun b => ?_,fun s => ?_⟩
  · have hb := dehexlify_hexlify b
    rw [← hexlify_eq,Client.dehexlify] at hb
    split at hb
    · cases hb
    · rw [dehexlify,if_neg ‹_›,(dehexlifyPairs_spec (by omega)).1,hb]
  · have hp : ∀ c ∈ s, ∀ p, position c = .ok p → p < 16 := by
      intro c _ p hp
      have hc := finds c
      rw [Finds] at hc
      split at hc
      · cases hp.symm.trans hc.1
        exact hc.2.1
      · cases hp.symm.trans hc.1
    rw [dehexlify]
    split
    · refine ⟨⟨?_,fun h => by omega⟩,fun t ht => (by cases ht),hp⟩
      rintro ⟨t,ht⟩
      cases ht
    · have hd := (dehexlifyPairs_spec (s := s) (by omega)).2
      cases hr : dehexlifyPairs s with
      | ok t =>
        rw [hr] at hd
        exact ⟨⟨fun _ => ⟨by omega,hd.2⟩,fun _ => ⟨t,rfl⟩⟩,fun t' ht => Except.ok.inj ht ▸ hd.1,hp⟩
      | error e =>
        rw [hr] at hd
        obtain ⟨c,hc,hn⟩ := hd
        refine ⟨⟨?_,fun h => absurd (h.2 c hc) hn⟩,fun t ht => (by cases ht),hp⟩
        rintro ⟨t,ht⟩
        cases ht

end Psiphon.Client.HexCoding
