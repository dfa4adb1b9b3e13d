import Mathlib.Data.List.Basic

/-!
# Base 64

The reader skips what is not a digit, and drops the bits that do not fill a byte at the end.
-/

namespace Base64

open List

/-! ### Bits -/

def ofBits (bits : List Bool) : ℕ := bits.foldl (fun n bit => 2 * n + bit.toNat) 0

def toBits (w n : ℕ) : List Bool := (List.range w).map fun i => n.testBit (w - 1 - i)

@[simp] theorem length_toBits (w n : ℕ) : (toBits w n).length = w := by simp [toBits]

/-- The bytes of a list of bits; the last ones may not fill a byte. -/
def octets (bits : List Bool) : List UInt8 :=
  if 8 ≤ bits.length then UInt8.ofNat (ofBits (bits.take 8)) :: octets (bits.drop 8) else []
termination_by bits.length
decreasing_by rw [List.length_drop]; omega

/-- The bits with zeros after them, six or more. -/
def pad (bits : List Bool) : List Bool := bits ++ List.replicate (6 - bits.length) false

def sextets (bits : List Bool) : List ℕ :=
  if bits = [] then [] else ofBits (pad (bits.take 6)) :: sextets (bits.drop 6)
termination_by bits.length
decreasing_by
  have := List.length_pos_iff.mpr ‹_›
  rw [List.length_drop]
  omega

/-! ### Texts -/

def digit (d : ℕ) : UInt8 :=
  UInt8.ofNat (if d < 26 then 65 + d else if d < 52 then 71 + d else if d < 62 then d - 4
    else if d = 62 then 43 else 47)

def value (c : UInt8) : Option ℕ :=
  if 65 ≤ c ∧ c ≤ 90 then some (c.toNat - 65)
  else if 97 ≤ c ∧ c ≤ 122 then some (c.toNat - 71)
  else if 48 ≤ c ∧ c ≤ 57 then some (c.toNat + 4)
  else if c = 43 then some 62
  else if c = 47 then some 63
  else none

def encode (bytes : List UInt8) : List UInt8 :=
  let digits := sextets (bytes.flatMap fun c => toBits 8 c.toNat)
  digits.map digit ++ List.replicate ((4 - digits.length % 4) % 4) 61

def decode (text : List UInt8) : List UInt8 := octets ((text.filterMap value).flatMap (toBits 6))

/-! ### Reading back -/

theorem value_digit : ∀ d < 64, value (digit d) = some d := by decide

theorem ofBits_toBits_byte (c : UInt8) : UInt8.ofNat (ofBits (toBits 8 c.toNat)) = c := by
  have ha : ∀ n < 256, ofBits (toBits 8 n) = n := by decide +kernel
  rw [ha _ c.toNat_lt,UInt8.ofNat_toNat]

theorem toBits_ofBits {bits : List Bool} (h : bits.length = 6) :
    toBits 6 (ofBits bits) = bits ∧ ofBits bits < 64 := by
  match bits, h with
  | [a,b,c,d,e,f], _ =>
    revert a b c d e f
    decide

theorem octets_bytes (bytes : List UInt8) {rest : List Bool} (h : rest.length < 8) :
    octets ((bytes.flatMap fun c => toBits 8 c.toNat) ++ rest) = bytes := by
  induction bytes with
  | nil =>
    rw [octets,flatMap_nil,nil_append,if_neg (by omega)]
  | cons c bytes ih =>
    have hl : (toBits 8 c.toNat).length = 8 := length_toBits 8 c.toNat
    rw [octets,flatMap_cons,append_assoc,if_pos (by rw [length_append,hl]; omega),
      take_left' hl,drop_left' hl,ofBits_toBits_byte,ih]

theorem length_pad_take (bits : List Bool) : (pad (bits.take 6)).length = 6 := by
  rw [pad,length_append,length_replicate,length_take]
  omega

/-- The digits are the bits, with fewer than six zeros after them. -/
theorem sextets_bits (bits : List Bool) : (∀ d ∈ sextets bits, d < 64) ∧
      ∃ k < 6, (sextets bits).flatMap (toBits 6) = bits ++ List.replicate k false := by
  fun_induction sextets bits with
  | case1 => exact ⟨nofun,0,by decide,rfl⟩
  | case2 bits hne ih =>
    obtain ⟨hd,k,hk,hb⟩ := ih
    obtain ⟨hr,hlt⟩ := toBits_ofBits (length_pad_take bits)
    refine ⟨forall_mem_cons.mpr ⟨hlt,hd⟩,?_⟩
    rw [flatMap_cons,hr]
    by_cases hlen : 6 ≤ bits.length
    · refine ⟨k,hk,?_⟩
      have hpad : pad (bits.take 6) = bits.take 6 := by
        rw [pad,length_take,Nat.min_eq_left hlen]
        exact append_nil _
      rw [hb,hpad,← append_assoc,take_append_drop]
    · -- the last digit has all the bits that are left
      have hpos := length_pos_iff.mpr hne
      refine ⟨6 - bits.length,by omega,?_⟩
      rw [take_of_length_le (by omega),drop_eq_nil_of_le (by omega),pad,sextets,
        if_pos rfl,flatMap_nil,append_nil]

theorem decode_encode (bytes : List UInt8) : decode (encode bytes) = bytes := by
  obtain ⟨hdi,k,hk,hb⟩ := sextets_bits (bytes.flatMap fun c => toBits 8 c.toNat)
  have hv : (encode bytes).filterMap value = sextets (bytes.flatMap fun c => toBits 8 c.toNat) := by
    have hp : ∀ n, (List.replicate n (61 : UInt8)).filterMap value = [] := fun n =>
      filterMap_replicate_of_none rfl
    have hmap : ∀ l : List ℕ, (∀ d ∈ l, d < 64) → (l.map digit).filterMap value = l := by
      intro l hl
      rw [filterMap_map]
      refine (filterMap_congr fun d hd => value_digit d (hl d hd)).trans ?_
      exact filterMap_some
    rw [encode,filterMap_append,hp,append_nil,hmap _ hdi]
  rw [decode,hv,hb]
  exact octets_bytes bytes (by rw [length_replicate]; omega)

/-! ### Groups -/

theorem length_sextets (bits : List Bool) : (sextets bits).length = (bits.length + 5) / 6 := by
  fun_induction sextets bits with
  | case1 => rfl
  | case2 bits hne ih =>
    have hpos := length_pos_iff.mpr hne
    rw [length_cons,ih,length_drop]
    omega

theorem sextets_append {xs : List Bool} (h : 6 ∣ xs.length) (ys : List Bool) :
    sextets (xs ++ ys) = sextets xs ++ sextets ys := by
  fun_induction sextets xs with
  | case1 => rfl
  | case2 xs hne ih =>
    have hpos := length_pos_iff.mpr hne
    have hsix : 6 ≤ xs.length := Nat.le_of_dvd hpos h
    rw [sextets,if_neg (append_ne_nil_of_left_ne_nil hne ys),take_append_of_le_length hsix,
      drop_append_of_le_length hsix,ih (by rw [length_drop]; omega),cons_append]

/-- The text of whole groups is the start of the text. -/
theorem encode_append {xs : List UInt8} (h : 3 ∣ xs.length) (ys : List UInt8) :
    encode (xs ++ ys) = encode xs ++ encode ys := by
  have hb : (xs.flatMap fun c => toBits 8 c.toNat).length = 8 * xs.length := by
    simp [length_flatMap,Nat.mul_comm]
  have hsix : 6 ∣ (xs.flatMap fun c => toBits 8 c.toNat).length := by omega
  have hf : (sextets (xs.flatMap fun c => toBits 8 c.toNat)).length % 4 = 0 := by
    rw [length_sextets,hb]
    omega
  have hmod (n : ℕ) :
      ((sextets (xs.flatMap fun c => toBits 8 c.toNat)).length + n) % 4 = n % 4 := by
    omega
  simp [encode,sextets_append hsix,hf,hmod]

end Base64
