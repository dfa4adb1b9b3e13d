import Mathlib.Tactic.Ring

/-!
# Ranges of numbers as aligned blocks

A block of size `k` is the `2 ^ k` numbers from a multiple of `2 ^ k` on. A range is written with
the fewest blocks by taking the largest that fits, again and again.
-/

namespace Dyadic

open List

structure Block where
  base : ℕ
  size : ℕ
  aligned : 2 ^ size ∣ base

namespace Block

def stop (b : Block) : ℕ := b.base + 2 ^ b.size

instance : Membership ℕ Block := ⟨fun b n => b.base ≤ n ∧ n < b.stop⟩

variable {b c : Block} {n : ℕ}

theorem mem_iff : n ∈ b ↔ b.base ≤ n ∧ n < b.stop := .rfl

theorem base_lt_stop (b : Block) : b.base < b.stop := Nat.lt_add_of_pos_right (Nat.two_pow_pos _)

theorem base_mem (b : Block) : b.base ∈ b := ⟨le_rfl,b.base_lt_stop⟩

theorem mem_iff_div : n ∈ b ↔ n / 2 ^ b.size = b.base / 2 ^ b.size := by
  obtain ⟨q,hq⟩ := b.aligned
  have hp : 0 < 2 ^ b.size := Nat.two_pow_pos _
  rw [mem_iff,stop,hq,Nat.mul_div_cancel_left q hp,Nat.div_eq_iff hp]
  rw [Nat.mul_comm q]
  omega

/-- Of two blocks with a common number the smaller one lies in the larger. -/
theorem subset_of_mem (hb : n ∈ b) (hc : n ∈ c) (hs : b.size ≤ c.size) {m : ℕ} (hm : m ∈ b) :
    m ∈ c := by
  obtain ⟨d,hd⟩ := Nat.exists_eq_add_of_le hs
  rw [mem_iff_div] at hb hc hm ⊢
  -- what agrees above the bits of the smaller block agrees above those of the larger
  have hdiv : ∀ k : ℕ, k / 2 ^ c.size = k / 2 ^ b.size / 2 ^ d := fun k => by
    rw [hd,Nat.pow_add,Nat.div_div_eq_div_mul]
  rw [← hc,hdiv m,hdiv n,hm,hb]

end Block

/-- The numbers of the blocks are those from `first` up to `stop`. -/
def Covers (blocks : List Block) (first stop : ℕ) : Prop :=
  ∀ n, (∃ b ∈ blocks, n ∈ b) ↔ first ≤ n ∧ n < stop

/-- The block ends by `stop`, and no larger one that starts with it does. -/
structure Largest (b : Block) (stop : ℕ) : Prop where
  fits : b.stop ≤ stop
  greatest : ∀ c : Block, c.base = b.base → c.stop ≤ stop → c.size ≤ b.size

/-- A block is the largest one as soon as the next larger one is not aligned or does not fit. -/
theorem Largest.of_next {b : Block} {stop : ℕ} (hf : b.stop ≤ stop)
    (hn : 2 ^ (b.size + 1) ∣ b.base → stop < b.base + 2 ^ (b.size + 1)) : Largest b stop := by
  refine ⟨hf,fun c hb hs => Nat.le_of_not_lt fun hlt => ?_⟩
  have hdvd : 2 ^ (b.size + 1) ∣ b.base := hb ▸ (Nat.pow_dvd_pow 2 hlt).trans c.aligned
  have hle : 2 ^ (b.size + 1) ≤ 2 ^ c.size := Nat.pow_le_pow_right Nat.two_pos hlt
  rw [Block.stop,hb] at hs
  omega

/-- A block inside the range that shares a number with the largest block lies in it. -/
theorem Largest.subset {b c : Block} {stop : ℕ} (hb : Largest b stop)
    (hc : ∀ n ∈ c, b.base ≤ n ∧ n < stop) {n : ℕ} (hnb : n ∈ b) (hnc : n ∈ c) {m : ℕ}
    (hm : m ∈ c) : m ∈ b := by
  refine Block.subset_of_mem hnc hnb ?_ hm
  by_contra hlt
  -- a larger block would start with this one, and is ruled out
  have hba : b.base ∈ c := Block.subset_of_mem hnb hnc (by omega) b.base_mem
  have hs : c.base = b.base := le_antisymm hba.1 (hc _ c.base_mem).1
  have hend : c.stop - 1 < stop := by
    refine (hc (c.stop - 1) ?_).2
    have hlt := c.base_lt_stop
    exact ⟨by omega,by omega⟩
  exact hlt (hb.greatest c hs (by omega))

/-- From `first` up to `stop`, the largest block at every step. -/
inductive Greedy : ℕ → ℕ → List Block → Prop
  | nil (n : ℕ) : Greedy n n []
  | cons {b : Block} {stop : ℕ} {rest : List Block} (hb : Largest b stop)
      (hrest : Greedy b.stop stop rest) : Greedy b.base stop (b :: rest)

namespace Greedy

variable {first stop : ℕ} {blocks : List Block}

theorem covers (h : Greedy first stop blocks) : Covers blocks first stop := by
  induction h with
  | nil m =>
    intro n
    constructor
    · rintro ⟨b,hb,-⟩
      cases hb
    · intro hn
      omega
  | @cons b stop rest hb hrest ih =>
    intro n
    have hlt := b.base_lt_stop
    have hfits := hb.fits
    constructor
    · rintro ⟨c,hc,hn⟩
      obtain rfl | hc := mem_cons.mp hc
      · rw [Block.mem_iff] at hn
        omega
      · have hn := (ih n).mp ⟨c,hc,hn⟩
        omega
    · intro hn
      rcases Nat.lt_or_ge n b.stop with hlow | hh
      · exact ⟨b,(.head _),hn.1,hlow⟩
      · obtain ⟨c,hc,hnc⟩ := (ih n).mpr ⟨hh,hn.2⟩
        exact ⟨c,mem_cons_of_mem _ hc,hnc⟩

/-- Every block starts where those before it have ended, or later. -/
theorem pairwise (h : Greedy first stop blocks) : blocks.Pairwise fun b c => b.stop ≤ c.base := by
  induction h with
  | nil => exact .nil
  | @cons b stop rest hb hr ih =>
    refine .cons (fun c hc => ?_) ih
    exact ((hr.covers c.base).mp ⟨c,hc,c.base_mem⟩).1

/-- No list of blocks for the same range is shorter. -/
theorem length_le (h : Greedy first stop blocks) {o : List Block}
    (ho : Covers o first stop) : blocks.length ≤ o.length := by
  induction h generalizing o with
  | nil => exact Nat.zero_le _
  | @cons b stop rest hb hr ih =>
    have hi : ∀ c ∈ o, ∀ n ∈ c, b.base ≤ n ∧ n < stop :=
      fun c hc n hn => (ho n).mp ⟨c,hc,hn⟩
    -- the blocks after the first one cover the rest of the range
    have hl : Covers (o.filter fun c => b.stop ≤ c.base) b.stop stop := by
      intro n
      constructor
      · rintro ⟨c,hc,hn⟩
        obtain ⟨hc,hs⟩ := mem_filter.mp hc
        exact ⟨(of_decide_eq_true hs).trans hn.1,(hi c hc n hn).2⟩
      · rintro ⟨hlow,hh⟩
        obtain ⟨c,hc,hn⟩ := (ho n).mpr ⟨b.base_lt_stop.le.trans hlow,hh⟩
        refine ⟨c,mem_filter.mpr ⟨hc,decide_eq_true (Nat.le_of_not_lt fun hs => ?_)⟩,hn⟩
        have hba : c.base ∈ b := ⟨(hi c hc _ c.base_mem).1,hs⟩
        have hmem : n ∈ b := hb.subset (hi c hc) hba c.base_mem hn
        exact absurd hmem.2 (Nat.not_lt.mpr hlow)
    -- and one block, with the first number, is not among them
    obtain ⟨c,hc,hn⟩ := (ho b.base).mpr ⟨le_rfl,b.base_lt_stop.trans_le hb.fits⟩
    have hfewer : (o.filter fun c => b.stop ≤ c.base).length < o.length := by
      refine length_filter_lt_length_iff_exists.mpr ⟨c,hc,?_⟩
      have hs := hn.1
      have hlt := b.base_lt_stop
      simp only [decide_eq_true_eq]
      omega
    have hr := ih hl
    rw [length_cons]
    omega

end Greedy

end Dyadic
