import Mathlib.Data.Nat.Bitwise
import Mathlib.Tactic.IntervalCases
import Psiphon.Discovery.StrategyValue
import Psiphon.Lib.Dyadic
import Psiphon.Lib.Hoare
import Psiphon.Python

/-!
# Routes for the addresses of a country

`consume_line` of `psi_routes.py` writes a range of addresses as pairs of an address and a mask.
-/

namespace Psiphon.Routes

open Function Option

open Discovery (Ipv4)

-- for the literals among the places and the values of octets
local instance octetCount_neZero : NeZero 4 := ⟨by decide⟩

local instance octetValues_neZero : NeZero 256 := ⟨by decide⟩

abbrev Text := List Char

/-! ### Addresses as numbers -/

/-- `struct.unpack('!I', val)[0]` -/
def unpack (val : Ipv4) : ℕ :=
  val.octets 0 * 2 ^ 24 + val.octets 1 * 2 ^ 16 + val.octets 2 * 2 ^ 8 + val.octets 3

/-- `struct.pack('!I', ip)` -/
def pack (ip : ℕ) : Py Ipv4 :=
  if ip < 2 ^ 32 then
    .ok ⟨![Fin.ofNat 256 (ip / 2 ^ 24), Fin.ofNat 256 (ip / 2 ^ 16), Fin.ofNat 256 (ip / 2 ^ 8),
      Fin.ofNat 256 ip]⟩
  else .error .structError

/-- `ip2int`; `none` stands for `False`. -/
def ip2int (inetAton : Text → Option Ipv4) (ip : Text) : Option ℕ := (inetAton ip).map unpack

def int2ip (ip : ℕ) : Py Text := (pack ip).map Ipv4.dotted

/-- `not value`, for what `ip2int` returns -/
def falsy (value : Option ℕ) : Bool := value.getD 0 = 0

/-! ### Route files -/

/-- The open files by their paths, with what was written through them. -/
abbrev Files := Text → Option (List Text)

abbrev Script := EStateM PyError Files

def raise {α : Type} : Py α → Script α
  | .ok a => pure a
  | .error e => throw e

/-- `GEO_ROUTES_ROOT`, seen from the directory of the script -/
def geoRoutesRoot : Text := "../Data/GeoData/Routes".toList

/-- `os.path.join(GEO_ROUTES_ROOT, '%s.route' % country_code)` -/
def routePath (countryCode : Text) : Text :=
  let name := countryCode ++ ".route".toList
  -- an absolute path replaces what stands before it
  if name.head? = some '/' then name else geoRoutesRoot ++ '/' :: name

/-- The file of the path, opened if it is not open. -/
def openRoutes (path : Text) : Script Unit :=
  modify fun files => if (files path).isSome then files else update files path (some [])

def write (path line : Text) : Script Unit :=
  modify fun files => update files path ((files path).map (· ++ [line]))

/-- `"%s\t%s\n" % (int2ip(base), int2ip(bitmask))` -/
def routeLine (base bitmask : ℕ) : Py Text := do
  let address ← int2ip base
  let mask ← int2ip bitmask
  return address ++ '\t' :: mask ++ ['\n']

/-! ### The loops -/

/-- The inner loop, which ends with `step`. A shift by a negative number raises. -/
def growStep (base last step : ℕ) : Py ℕ :=
  if base ||| (1 <<< step) ≠ base then
    if 31 < step then .error .valueError
    else if last < (base ||| (0xffffffff >>> (31 - step))) then .ok step
    else growStep base last (step + 1)
  else .ok step
termination_by 32 - step

/-- The outer loop. -/
def writeBlocks (path : Text) (base last : ℕ) : Script Unit :=
  if base ≤ last then do
    let step ← raise (growStep base last 0)
    let bitmask := 0xffffffff ^^^ ((1 <<< step) - 1)
    let line ← raise (routeLine base bitmask)
    write path line
    writeBlocks path (base + 1 <<< step) last
  else pure ()
termination_by last + 1 - base
decreasing_by
  have hpos : 0 < 1 <<< step := by
    rw [Nat.one_shiftLeft]
    exact Nat.two_pow_pos step
  omega

/-- `consume_line`, which returns `False` or nothing. -/
def consumeLine (inetAton : Text → Option Ipv4) (startIp endIp countryCode : Text) :
    Script (Option Bool) := do
  let start := ip2int inetAton startIp
  let last := ip2int inetAton endIp
  if falsy start || falsy last || countryCode.length ≠ 2 then return some false
  let path := routePath countryCode
  openRoutes path
  writeBlocks path (start.getD 0) (last.getD 0)
  return none

/-! ### Bits -/

/-- Setting the lowest bit above zeros changes a number unless it is set. -/
theorem or_bit_eq_iff {base step : ℕ} (h : 2 ^ step ∣ base) :
    base ||| (1 <<< step) = base ↔ ¬ 2 ^ (step + 1) ∣ base := by
  have hb : base.testBit step = true ↔ ¬ 2 ^ (step + 1) ∣ base := by
    obtain ⟨q,rfl⟩ := h
    rw [Nat.testBit_eq_decide_div_mod_eq,decide_eq_true_eq,pow_succ,
      Nat.mul_div_cancel_left q (Nat.two_pow_pos step),
      Nat.mul_dvd_mul_iff_left (Nat.two_pow_pos step)]
    omega
  rw [← hb,Nat.one_shiftLeft]
  constructor
  · intro heq
    rw [← heq,Nat.testBit_or,Nat.testBit_two_pow_self,Bool.or_true]
  · intro hs
    refine Nat.eq_of_testBit_eq fun i => ?_
    rw [Nat.testBit_or,Nat.testBit_two_pow]
    by_cases hi : step = i
    · rw [← hi,hs,Bool.true_or]
    · rw [decide_eq_false hi,Bool.or_false]

theorem or_ones {base step : ℕ} (h : 2 ^ (step + 1) ∣ base) (hstep : step ≤ 31) :
    (base ||| (0xffffffff >>> (31 - step))) = base + (2 ^ (step + 1) - 1) := by
  have ho : 0xffffffff >>> (31 - step) = 2 ^ (step + 1) - 1 := by
    interval_cases step <;> rfl
  obtain ⟨q,rfl⟩ := h
  rw [ho,← Nat.two_pow_add_eq_or_of_lt (Nat.sub_lt (Nat.two_pow_pos _) one_pos)]

theorem mask_eq {step : ℕ} (hstep : step ≤ 31) :
    0xffffffff ^^^ ((1 <<< step) - 1) = 2 ^ 32 - 2 ^ step := by
  interval_cases step <;> rfl

/-- The inner loop ends with the size of the largest block that fits, and shifts by no negative
number. -/
theorem growStep_eq {base last step : ℕ} (hba : 1 ≤ base) (hlast : last < 2 ^ 32)
    (ha : 2 ^ step ∣ base) (hf : base + 2 ^ step ≤ last + 1) :
    ∃ b : Dyadic.Block, b.base = base ∧ b.size ≤ 31 ∧ growStep base last step = .ok b.size ∧
      Dyadic.Largest b (last + 1) := by
  have hs : ∀ {k : ℕ}, 2 ^ k ∣ base → k ≤ 31 := fun {k} hk => by
    have hle : 2 ^ k ≤ base := Nat.le_of_dvd hba hk
    have hlt : 2 ^ k < 2 ^ 32 := by omega
    exact Nat.le_of_lt_succ ((Nat.pow_lt_pow_iff_right one_lt_two).mp hlt)
  induction hn : 32 - step generalizing step with
  | zero =>
    have hle := hs ha
    omega
  | succ n ih =>
    have hb : (⟨base,step,ha⟩ : Dyadic.Block).stop ≤ last + 1 := hf
    rw [growStep]
    by_cases hd : 2 ^ (step + 1) ∣ base
    · -- the bit is not set, and the larger block is tried
      have hc : base ||| (1 <<< step) ≠ base := fun h => (or_bit_eq_iff ha).mp h hd
      rw [if_pos hc,if_neg (by omega),or_ones hd (by omega)]
      by_cases ho : last < base + (2 ^ (step + 1) - 1)
      · rw [if_pos ho]
        refine ⟨⟨base,step,ha⟩,rfl,hs ha,rfl,.of_next hb fun _ => ?_⟩
        show last + 1 < base + 2 ^ (step + 1)
        omega
      · rw [if_neg ho]
        exact ih hd (by omega) (by omega)
    · rw [if_neg (not_not_intro ((or_bit_eq_iff ha).mpr hd))]
      exact ⟨⟨base,step,ha⟩,rfl,hs ha,rfl, .of_next hb fun h => absurd h hd⟩

-- from 4 to 6: the block of 4 and 5
example : growStep 4 6 0 = .ok 1 := by decide +kernel

/-! ### Lines -/

/-- The line gives the first address of the block and the mask for its size. -/
def Denotes (line : Text) (b : Dyadic.Block) : Prop :=
  ∃ address mask : Ipv4, line = address.dotted ++ '\t' :: mask.dotted ++ ['\n'] ∧
    unpack address = b.base ∧ unpack mask = 2 ^ 32 - 2 ^ b.size

theorem unpack_lt (val : Ipv4) : unpack val < 2 ^ 32 := by
  rw [unpack]
  omega

theorem pack_eq {n : ℕ} (h : n < 2 ^ 32) : ∃ val, pack n = .ok val ∧ unpack val = n := by
  refine ⟨_,if_pos h,?_⟩
  simp only [unpack,Matrix.cons_val,Fin.val_ofNat]
  omega

theorem routeLine_denotes {b : Dyadic.Block} (hb : b.base < 2 ^ 32) (hs : b.size ≤ 31) :
    ∃ line, routeLine b.base (0xffffffff ^^^ ((1 <<< b.size) - 1)) = .ok line ∧ Denotes line b := by
  have hm : 2 ^ 32 - 2 ^ b.size < 2 ^ 32 := Nat.sub_lt (by decide) (Nat.two_pow_pos _)
  obtain ⟨a,ha,hu⟩ := pack_eq hb
  obtain ⟨mask,hp,hu'⟩ := pack_eq hm
  refine ⟨_,?_,a,mask,rfl,hu,hu'⟩
  rw [mask_eq hs,routeLine,int2ip,int2ip,ha,hp]
  rfl

/-! ### The outer loop -/

theorem writeBlocks_eq {path : Text} {base last : ℕ} (hb : 1 ≤ base) (hle : base ≤ last + 1)
    (hla : last < 2 ^ 32) {f : Files} {old : List Text} (ho : f path = some old) :
    ∃ lines blocks, writeBlocks path base last f =
        .ok () (update f path (some (old ++ lines))) ∧
      List.Forall₂ Denotes lines blocks ∧ (∀ b ∈ blocks, b.size ≤ 31) ∧
      Dyadic.Greedy base (last + 1) blocks := by
  induction hn : last + 1 - base using Nat.strong_induction_on generalizing base f old with
  | _ n ih =>
    rw [writeBlocks]
    by_cases hm : base ≤ last
    · obtain ⟨b,rfl,hsi,hgr,hl⟩ :=
        growStep_eq hb hla (show 2 ^ 0 ∣ base from one_dvd _) (by omega)
      obtain ⟨line,hli,hd⟩ := routeLine_denotes (b := b) (by omega) hsi
      have hst : b.base + 1 <<< b.size = b.stop := by rw [Nat.one_shiftLeft,Dyadic.Block.stop]
      have hlt := b.base_lt_stop
      have ho' : update f path (some (old ++ [line])) path = some (old ++ [line]) := update_self ..
      obtain ⟨lines,blocks,hr,hall,hs,hg⟩ :=
        ih (last + 1 - b.stop) (by omega) (by omega) hl.fits ho' rfl
      refine ⟨line :: lines,b :: blocks,?_,.cons hd hall,?_,.cons hl hg⟩
      · rw [if_pos hm,hgr]
        show (raise (routeLine b.base _) >>= fun line => write path line >>= fun _ =>
          writeBlocks path (b.base + 1 <<< b.size) last) f = _
        rw [hli,hst]
        show writeBlocks path b.stop last (update f path ((f path).map _)) = _
        rw [ho,map_some,hr,update_idem,List.append_assoc,List.singleton_append]
      · exact List.forall_mem_cons.mpr ⟨hsi,hs⟩
    · obtain rfl : base = last + 1 := by omega
      refine ⟨[],[],?_,.nil,fun _ h => (by cases h),.nil _⟩
      rw [if_neg hm,List.append_nil,← ho,update_eq_self]
      rfl

theorem openRoutes_eq (path : Text) (f : Files) : ∃ o : Files, openRoutes path f = .ok () o ∧
      o path = some ((f path).getD []) ∧
      ∀ c, update o path c = update f path c := by
  refine ⟨_,rfl,?_,fun c => ?_⟩
  · dsimp only
    split
    · next hs =>
      obtain ⟨old,ho⟩ := isSome_iff_exists.mp hs
      rw [ho,getD_some]
    · next hn =>
      rw [update_self,not_isSome_iff_eq_none.mp hn,getD_none]
  · dsimp only
    split
    · rfl
    · exact update_idem ..

/-- The lines are the range from `start` to `last` as the shortest list of aligned blocks, in
ascending order. -/
structure WritesRange (start last : ℕ) (lines : List Text) (blocks : List Dyadic.Block) : Prop where
  denotes : List.Forall₂ Denotes lines blocks
  size_le : ∀ b ∈ blocks, b.size ≤ 31
  ascending : blocks.Pairwise fun b c => b.stop ≤ c.base
  covers : Dyadic.Covers blocks start (last + 1)
  shortest : ∀ other, Dyadic.Covers other start (last + 1) → blocks.length ≤ other.length

theorem consumeLine_eq {ia : Text → Option Ipv4} {si ei countryCode : Text}
    {start last : ℕ} (hs : ip2int ia si = some start)
    (hlast : ip2int ia ei = some last) (hpos : 1 ≤ start) (hle : start ≤ last)
    (hcode : countryCode.length = 2) :
    consumeLine ia si ei countryCode = (do
      openRoutes (routePath countryCode)
      writeBlocks (routePath countryCode) start last
      return none) := by
  have hv : ¬ ((falsy (some start) || falsy (some last) || countryCode.length ≠ 2) = true) := by
    simp only [falsy,getD_some,hcode,ne_eq,not_true_eq_false,decide_false,
      Bool.or_false,Bool.or_eq_true,decide_eq_true_eq]
    omega
  simp only [consumeLine,hs,hlast,if_neg hv,getD_some]

/-- For every range of addresses from 1 on, `consume_line` comes to its end without an exception,
and the country's file gets the range. -/
theorem consumeLine_writesRange {inetAton : Text → Option Ipv4} {startIp endIp countryCode : Text}
    {start last : Ipv4} (hstart : inetAton startIp = some start)
    (hlast : inetAton endIp = some last) (hpos : 1 ≤ unpack start)
    (hle : unpack start ≤ unpack last) (hcode : countryCode.length = 2)
    (files : Files) :
    ∃ lines blocks, WritesRange (unpack start) (unpack last) lines blocks ∧
      consumeLine inetAton startIp endIp countryCode files =
        .ok none (update files (routePath countryCode)
          (some ((files (routePath countryCode)).getD [] ++ lines))) := by
  have hstart' : ip2int inetAton startIp = some (unpack start) := by rw [ip2int,hstart]; rfl
  have hlast' : ip2int inetAton endIp = some (unpack last) := by rw [ip2int,hlast]; rfl
  obtain ⟨opened,ho,hop,hsa⟩ := openRoutes_eq (routePath countryCode) files
  obtain ⟨lines,blocks,hw,hd,hs,hg⟩ :=
    writeBlocks_eq hpos (Nat.le_add_right_of_le hle) (unpack_lt last) hop
  refine ⟨lines,blocks,⟨hd,hs,hg.pairwise,hg.covers, fun other hot => hg.length_le hot⟩,?_⟩
  rw [consumeLine_eq hstart' hlast' hpos hle hcode]
  rw [Hoare.bind_of_ok ho,Hoare.bind_of_ok hw,hsa]
  rfl

def oneOrSix (ip : Text) : Option Ipv4 :=
  if ip = "0.0.0.1".toList then some ⟨![0, 0, 0, 1]⟩ else some ⟨![0, 0, 0, 6]⟩

theorem consumeLine_oneToSix : ∃ lines blocks, WritesRange 1 6 lines blocks ∧
    consumeLine oneOrSix "0.0.0.1".toList "0.0.0.6".toList "CA".toList (fun _ => none) =
      .ok none (update (fun _ => none) (routePath "CA".toList) (some lines)) := by
  have hone : oneOrSix "0.0.0.1".toList = some ⟨![0,0,0,1]⟩ := if_pos rfl
  have hsix : oneOrSix "0.0.0.6".toList = some ⟨![0,0,0,6]⟩ := if_neg (by decide)
  exact consumeLine_writesRange hone hsix (by decide) (by decide) rfl fun _ => none

end Psiphon.Routes
