import Psiphon.Android.TunnelManager
import Mathlib.Algebra.BigOperators.Group.Finset.Piecewise
import Mathlib.Algebra.Ring.Int.Defs

/-!
# The intervals of the transfer graphs

The buckets of a graph are shifted by one place more than there are intervals between two calls.
-/

namespace Psiphon.Android

open List DataTransferStats

inductive Graph where
  | slow
  | fast
  deriving DecidableEq

inductive Direction where
  | sent
  | received
  deriving DecidableEq

def Bucket.bytes : Direction → Bucket → Int64
  | .sent, bucket => bucket.bytesSent
  | .received, bucket => bucket.bytesReceived

structure Transfer where
  time : ℤ
  direction : Direction
  bytes : Int64

namespace Transfer

def run (stats : DataTransferStats) (call : Transfer) : DataTransferStats :=
  match call.direction with
  | .sent => stats.addBytesSent call.time call.bytes
  | .received => stats.addBytesReceived call.time call.bytes

def amount (d : Direction) (call : Transfer) : Int64 := if call.direction = d then call.bytes else 0

end Transfer

namespace Graph

def period : Graph → ℤ
  | .slow => slowBucketPeriodMilliseconds
  | .fast => fastBucketPeriodMilliseconds

def buckets : Graph → DataTransferStats → List Bucket
  | .slow, stats => stats.slowBuckets
  | .fast, stats => stats.fastBuckets

def start : Graph → DataTransferStats → ℤ
  | .slow, stats => stats.slowBucketsLastStartTime
  | .fast, stats => stats.fastBucketsLastStartTime

def interval (g : Graph) (time : ℤ) : ℤ := time / g.period

end Graph

/-- A session: its start, the calls, and `manageBuckets` at the end. -/
def session (begin : ℤ) (calls : List Transfer) (now : ℤ) (stats : DataTransferStats) :
    DataTransferStats :=
  (calls.foldl Transfer.run (stats.resetBytesTransferred begin)).manageBuckets now

/-- Times do not go back, and the `int` of `shiftBuckets` can count all intervals up to the end. -/
def Timely : ℤ → List Transfer → ℤ → Prop
  | time, [], now => time ≤ now ∧ now / fastBucketPeriodMilliseconds + 1 < 2 ^ 31
  | time, call :: calls, now => time ≤ call.time ∧ Timely call.time calls now

/-- The bytes in the bucket `k` places before the last. -/
def place (d : Direction) (buckets : List Bucket) (k : ℕ) : Int64 :=
  (buckets.reverse.getD k ⟨0, 0⟩).bytes d

/-- The bytes of the calls at the intervals in `s`. -/
def carried (g : Graph) (d : Direction) (s : ℤ → Prop) [DecidablePred s]
    (calls : List Transfer) : ℤ :=
  (calls.map fun call => if s (g.interval call.time) then (call.amount d).toInt else 0).sum

def InOwnInterval (g : Graph) (calls : List Transfer) (now : ℤ) (stats : DataTransferStats) :
    Prop :=
  (g.buckets stats).length = maxBuckets ∧ ∀ d, ∀ k < maxBuckets,
    (place d (g.buckets stats) k).toInt = carried g d (· = g.interval now - (k : ℕ)) calls

/-! ### One step -/

section Step

variable {buckets : List Bucket} {d : Direction} {k : ℕ}

theorem place_shiftBucket (hlen : buckets.length = maxBuckets) (hk : k < maxBuckets) :
    place d (shiftBucket buckets) k = if k = 0 then 0 else place d buckets (k - 1) := by
  have hf : maxBuckets ≤ (buckets ++ [(⟨0,0⟩ : Bucket)]).length := by simp [hlen]
  have hr : (shiftBucket buckets).reverse = (⟨0,0⟩ :: buckets.reverse).dropLast := by
    rw [shiftBucket,if_pos hf,← dropLast_reverse,reverse_append]
    rfl
  have hget : (shiftBucket buckets).reverse[k]? = ((⟨0,0⟩ : Bucket) :: buckets.reverse)[k]? := by
    rw [hr,List.getElem?_dropLast,if_pos (by simpa [hlen] using hk)]
  rw [place,getD_eq_getElem?_getD,hget]
  cases k with
  | zero => cases d <;> rfl
  | succ k => simp [place,getD_eq_getElem?_getD]

theorem length_shiftBucket (hl : buckets.length = maxBuckets) :
    (shiftBucket buckets).length = maxBuckets := by
  have hf : maxBuckets ≤ (buckets ++ [(⟨0,0⟩ : Bucket)]).length := by simp [hl]
  rw [shiftBucket,if_pos hf]
  simp [hl]

theorem place_iterate (hl : buckets.length = maxBuckets) (n : ℕ) :
    (shiftBucket^[n] buckets).length = maxBuckets ∧ ∀ d, ∀ k < maxBuckets,
      place d (shiftBucket^[n] buckets) k = if k < n then 0 else place d buckets (k - n) := by
  induction n with
  | zero => exact ⟨hl,fun d k _ => by simp⟩
  | succ n ih =>
    rw [Function.iterate_succ_apply']
    refine ⟨length_shiftBucket ih.1,fun d k hk => ?_⟩
    rw [place_shiftBucket ih.1 hk]
    cases k with
    | zero => simp
    | succ k =>
      rw [if_neg (Nat.succ_ne_zero k),Nat.add_sub_cancel,ih.2 d k (by omega),Nat.add_sub_add_right]
      simp

theorem place_addToLast (hl : buckets.length = maxBuckets) {f : Bucket → Bucket} {x : Int64}
    (hf : ∀ bucket, (f bucket).bytes d = bucket.bytes d + x) (k : ℕ) :
    place d (addToLast f buckets) k = place d buckets k + if k = 0 then x else 0 := by
  obtain ⟨init,last,rfl⟩ : ∃ init last, buckets = init ++ [last] :=
    ⟨_,_,(dropLast_concat_getLast (ne_nil_of_length_pos (by rw [hl]; decide))).symm⟩
  have ha : addToLast f (init ++ [last]) = init ++ [f last] := by
    rw [addToLast,length_append,length_singleton,Nat.add_sub_cancel]
    simp [modify_eq_take_cons_drop]
  rw [ha,place,place]
  cases k with
  | zero => simp [hf]
  | succ k => simp

end Step

/-- The shifts of a call at interval `K` after one at interval `J`. -/
def shifts (J K : ℤ) : ℕ := if J < K then (K - J + 1).toNat else 0

/-- A graph has its number of buckets, and its last one is that of interval `J`. -/
structure Graph.At (g : Graph) (J : ℤ) (stats : DataTransferStats) : Prop where
  length : (g.buckets stats).length = maxBuckets
  start : g.start stats = g.period * J

section Session

variable {g : Graph} {J now begin : ℤ} {stats : DataTransferStats} {call : Transfer}
  {calls : List Transfer} {d : Direction} {k : ℕ}

theorem Graph.period_pos (g : Graph) : 0 < g.period := by
  cases g <;> decide

theorem bucketStartTime_eq (hn : 0 ≤ now) :
    bucketStartTime now g.period = g.period * g.interval now := by
  rw [bucketStartTime,Int.tdiv_eq_ediv_of_nonneg hn,Graph.interval]

theorem Graph.manageBuckets_eq (g : Graph) (now : ℤ) (stats : DataTransferStats) :
    (g.buckets (stats.manageBuckets now), g.start (stats.manageBuckets now)) =
      if g.period ≤ now - g.start stats then
        (shiftBuckets (now - g.start stats) g.period (g.buckets stats),
          bucketStartTime now g.period) else (g.buckets stats, g.start stats) := by
  by_cases hs : slowBucketPeriodMilliseconds ≤ now - stats.slowBucketsLastStartTime <;>
    by_cases hf : fastBucketPeriodMilliseconds ≤ now - stats.fastBucketsLastStartTime <;>
      cases g <;> simp [manageBuckets,manageSlowBuckets,manageFastBuckets,period,Graph.start,
        buckets,hs,hf]

theorem Graph.At.manageBuckets (hat : g.At J stats) (hnow : 0 ≤ now) (hle : J ≤ g.interval now) :
    g.At (g.interval now) (stats.manageBuckets now) ∧ ∀ d, ∀ k < maxBuckets,
      place d (g.buckets (stats.manageBuckets now)) k = if k < shifts J (g.interval now) then 0
        else place d (g.buckets stats) (k - shifts J (g.interval now)) := by
  have hp := g.period_pos
  have hd : (now - g.period * J) / g.period = g.interval now - J :=
    Int.sub_mul_ediv_left now J hp.ne'
  have hl : g.period ≤ now - g.period * J ↔ J < g.interval now := by
    have hone := Int.le_ediv_iff_mul_le (a := 1) (b := now - g.period * J) hp
    omega
  have heq := g.manageBuckets_eq now stats
  rw [hat.start] at heq
  rw [shifts]
  by_cases hlt : J < g.interval now
  · rw [if_pos (hl.mpr hlt),Prod.mk.injEq,bucketStartTime_eq hnow,shiftBuckets,
      Int.tdiv_eq_ediv_of_nonneg (hp.le.trans (hl.mpr hlt)),hd] at heq
    rw [if_pos hlt,heq.1]
    obtain ⟨hlen,hpl⟩ := place_iterate hat.length (g.interval now - J + 1).toNat
    exact ⟨⟨heq.1 ▸ hlen,heq.2⟩,hpl⟩
  · have hs : J = g.interval now := by omega
    rw [if_neg (mt hl.mp hlt),Prod.mk.injEq] at heq
    rw [if_neg hlt,heq.1]
    exact ⟨⟨heq.1 ▸ hat.length,by rw [heq.2,hs]⟩,fun d k _ => by simp⟩

theorem Transfer.run_eq (call : Transfer) (stats : DataTransferStats) :
    ∃ (t : DataTransferStats) (f : Bucket → Bucket),
      Transfer.run stats call = (t.manageBuckets call.time).addToBuckets f ∧
        (∀ g : Graph, g.buckets t = g.buckets stats ∧ g.start t = g.start stats) ∧
          ∀ d bucket, (f bucket).bytes d = bucket.bytes d + call.amount d := by
  obtain ⟨time,direction,bytes⟩ := call
  cases direction
  all_goals
    refine ⟨_,_,rfl,fun g => ?_,fun d bucket => ?_⟩
    · cases g <;> exact ⟨rfl,rfl⟩
    · cases d <;> simp [Transfer.amount,Bucket.bytes]

theorem Graph.addToBuckets_eq (g : Graph) (f : Bucket → Bucket) (stats : DataTransferStats) :
    g.buckets (stats.addToBuckets f) = addToLast f (g.buckets stats) ∧
      g.start (stats.addToBuckets f) = g.start stats := by
  cases g <;> exact ⟨rfl,rfl⟩

theorem Graph.At.run (hat : g.At J stats) (hti : 0 ≤ call.time) (hle : J ≤ g.interval call.time) :
    g.At (g.interval call.time) (Transfer.run stats call) ∧ ∀ d, ∀ k < maxBuckets,
      place d (g.buckets (Transfer.run stats call)) k =
        (if k < shifts J (g.interval call.time) then 0
          else place d (g.buckets stats) (k - shifts J (g.interval call.time))) +
          if k = 0 then call.amount d else 0 := by
  obtain ⟨t,f,hr,hto,hf⟩ := call.run_eq stats
  have ht : g.At J t := ⟨(hto g).1 ▸ hat.length,(hto g).2 ▸ hat.start⟩
  obtain ⟨hm,hp⟩ := ht.manageBuckets hti hle
  obtain ⟨hb,hs⟩ := g.addToBuckets_eq f (t.manageBuckets call.time)
  rw [hr,hb]
  refine ⟨⟨?_,hs.trans hm.start⟩,fun d k hk => ?_⟩
  · rw [hb,addToLast,length_modify,hm.length]
  · rw [place_addToLast hm.length (hf d),hp d k hk,(hto g).1]

/-- The shifts from a call at interval `J` to the end. -/
def moved (g : Graph) (J : ℤ) (calls : List Transfer) (now : ℤ) : ℕ :=
  match calls with
  | [] => shifts J (g.interval now)
  | call :: calls =>
    shifts J (g.interval call.time) + moved g (max J (g.interval call.time)) calls now

theorem moved_cons_of_le (h : g.interval call.time ≤ J) :
    moved g J (call :: calls) now = moved g J calls now := by
  rw [moved,shifts,if_neg (by omega),max_eq_left h,zero_add]

theorem moved_eq_zero (hc : ∀ call ∈ calls, g.interval call.time ≤ g.interval now) :
    moved g (g.interval now) calls now = 0 := by
  induction calls with
  | nil => simp [moved,shifts]
  | cons call calls ih =>
    rw [forall_mem_cons] at hc
    rw [moved_cons_of_le hc.1,ih hc.2]

variable (J now calls) in
theorem le_moved : g.interval now - J ≤ moved g J calls now := by
  induction calls generalizing J with
  | nil =>
    rw [moved,shifts]
    split_ifs <;> omega
  | cons call calls ih =>
    have hrest := ih (max J (g.interval call.time))
    rw [moved,shifts]
    split_ifs <;> omega

variable (calls) in
-- The first shift from an interval to a later one is one place too far.
theorem lt_moved (h : J < g.interval now) : g.interval now - J < moved g J calls now := by
  induction calls with
  | nil =>
    rw [moved,shifts,if_pos h]
    omega
  | cons call calls ih =>
    rcases le_or_gt (g.interval call.time) J with hle | hlt
    · rwa [moved_cons_of_le hle]
    · have hrest := le_moved (g := g) (max J (g.interval call.time)) now calls
      rw [moved,shifts,if_pos hlt]
      omega

theorem Timely.bounds (h : Timely begin calls now) :
    begin ≤ now ∧ ∀ call ∈ calls, begin ≤ call.time ∧ call.time ≤ now := by
  induction calls generalizing begin with
  | nil => exact ⟨h.1,by simp⟩
  | cons call calls ih =>
    obtain ⟨hn,hc⟩ := ih h.2
    refine ⟨h.1.trans hn,forall_mem_cons.mpr ⟨⟨h.1,hn⟩,fun later hl => ?_⟩⟩
    exact ⟨h.1.trans (hc later hl).1,(hc later hl).2⟩

theorem Graph.interval_mono (g : Graph) {s t : ℤ} (h : s ≤ t) : g.interval s ≤ g.interval t :=
  Int.ediv_le_ediv g.period_pos h

section Carried

variable {s s' : ℤ → Prop} [DecidablePred s] [DecidablePred s']

theorem carried_cons : carried g d s (call :: calls) =
    (if s (g.interval call.time) then (call.amount d).toInt else 0) + carried g d s calls := rfl

theorem carried_congr (h : ∀ call ∈ calls, s (g.interval call.time) ↔ s' (g.interval call.time)) :
    carried g d s calls = carried g d s' calls := by
  exact congrArg List.sum (map_congr_left fun call hc => if_congr (h call hc) rfl rfl)

theorem carried_eq_sum (S : Finset ℤ) (hS : ∀ call ∈ calls, g.interval call.time ∈ S) :
    carried g d s calls = ∑ K ∈ S with s K, carried g d (· = K) calls := by
  induction calls with
  | nil => simp [carried]
  | cons call calls ih =>
    rw [forall_mem_cons] at hS
    simp only [carried_cons,Finset.sum_add_distrib,ih hS.2]
    simp [hS.1]

theorem carried_eq_zero
    (h : ∀ call ∈ calls, s (g.interval call.time) →
      carried g d (· = g.interval call.time) calls = 0) :
    carried g d s calls = 0 := by
  rw [carried_eq_sum (calls.map (g.interval ·.time)).toFinset
    fun call hc => mem_toFinset.mpr (mem_map_of_mem hc)]
  refine Finset.sum_eq_zero fun K hK => ?_
  simp only [Finset.mem_filter,mem_toFinset,mem_map] at hK
  obtain ⟨⟨call,hc,rfl⟩,hs⟩ := hK
  exact h call hc hs

end Carried

theorem Graph.At.foldl (hat : g.At (g.interval begin) stats) (hb : 0 ≤ begin)
    (ht : Timely begin calls now) :
    (g.buckets ((calls.foldl Transfer.run stats).manageBuckets now)).length = maxBuckets ∧
      ∀ d, ∀ k < maxBuckets,
        place d (g.buckets ((calls.foldl Transfer.run stats).manageBuckets now)) k =
        (if k < moved g (g.interval begin) calls now then 0
          else place d (g.buckets stats) (k - moved g (g.interval begin) calls now)) +
          .ofInt (carried g d (moved g · calls now = k) calls) := by
  induction calls generalizing begin stats with
  | nil =>
    obtain ⟨hm,hp⟩ := hat.manageBuckets (hb.trans ht.1) (g.interval_mono ht.1)
    refine ⟨hm.length,fun d k hk => ?_⟩
    rw [foldl_nil,hp d k hk,moved,carried,map_nil,sum_nil]
    exact (Int64.add_zero _).symm
  | cons call calls ih =>
    have hti := hb.trans ht.1
    have hle := g.interval_mono ht.1
    obtain ⟨hrun,hp⟩ := hat.run hti hle
    obtain ⟨hlen,hr⟩ := ih hrun hti ht.2
    refine ⟨hlen,fun d k hk => ?_⟩
    have hl : carried g d (moved g · (call :: calls) now = k) calls =
        carried g d (moved g · calls now = k) calls := by
      refine carried_congr fun later hmem => ?_
      rw [moved_cons_of_le (g.interval_mono (ht.2.bounds.2 later hmem).1)]
    rw [foldl_cons,hr d k hk,carried_cons,hl,moved_cons_of_le le_rfl,moved,max_eq_right hle,
      Int64.ofInt_add,apply_ite Int64.ofInt,Int64.ofInt_toInt,← Int64.add_assoc]
    congr 1
    by_cases hk' : k < moved g (g.interval call.time) calls now
    · rw [if_pos hk',if_pos (by omega),if_neg hk'.ne']
      rfl
    · rw [if_neg hk',hp d _ (by omega),Nat.sub_sub,Nat.add_comm (shifts _ _)]
      congr 1
      · exact if_congr (by omega) rfl rfl
      · exact if_congr (by omega) rfl rfl

theorem Graph.At.reset (g : Graph) (stats : DataTransferStats) (hbe : 0 ≤ begin) :
    g.At (g.interval begin) (stats.resetBytesTransferred begin) ∧
      ∀ d k, place d (g.buckets (stats.resetBytesTransferred begin)) k = 0 := by
  have hb : g.buckets (stats.resetBytesTransferred begin) = newBuckets := by
    cases g <;> rfl
  have hs : g.start (stats.resetBytesTransferred begin) = bucketStartTime begin g.period := by
    cases g <;> rfl
  refine ⟨⟨by rw [hb,newBuckets,length_replicate], hs.trans (bucketStartTime_eq hbe)⟩,fun d k => ?_⟩
  rw [hb,newBuckets,place,reverse_replicate,getD_eq_getElem?_getD,List.getElem?_replicate]
  split_ifs <;> cases d <;> rfl

/-- After a session every bucket holds the bytes of its own interval exactly when nothing was
transferred, on balance, in any of the 287 intervals before the last, and the amounts of the last
add up to a `long`. -/
theorem buckets_in_own_interval_iff (g : Graph) (stats : DataTransferStats) (begin now : ℤ)
    (calls : List Transfer) (hbegin : 0 ≤ begin) (htimely : Timely begin calls now) :
    InOwnInterval g calls now (session begin calls now stats) ↔
      ∀ d, (∀ k < maxBuckets, 0 < k → carried g d (· = g.interval now - (k : ℕ)) calls = 0) ∧
        -2 ^ 63 ≤ carried g d (· = g.interval now) calls ∧
        carried g d (· = g.interval now) calls < 2 ^ 63 := by
  obtain ⟨hat,he⟩ := Graph.At.reset g stats hbegin
  obtain ⟨hlen,hp⟩ := hat.foldl hbegin htimely
  have hb : ∀ call ∈ calls, g.interval call.time ≤ g.interval now := fun call hc =>
    g.interval_mono (htimely.bounds.2 call hc).2
  have hh : ∀ d, ∀ k < maxBuckets, place d (g.buckets (session begin calls now stats)) k =
      .ofInt (carried g d (moved g · calls now = k) calls) := by
    intro d k hk
    rw [session,hp d k hk,he,ite_self,Int64.zero_add]
  have hlast (d) : carried g d (moved g · calls now = 0) calls =
      carried g d (· = g.interval now) calls := by
    refine carried_congr fun call hc => ?_
    rcases (hb call hc).eq_or_lt with heq | hlt
    · simp [heq,moved_eq_zero hb]
    · have hfar := lt_moved calls hlt
      omega
  -- Bytes `k` places back come from intervals nearer than `k`.
  have hn : ∀ d k, 0 < k → (∀ j < k, 0 < j → carried g d (· = g.interval now - (j : ℕ)) calls = 0) →
      carried g d (moved g · calls now = k) calls = 0 := by
    intro d k hk hz
    refine carried_eq_zero fun call hc hm => ?_
    rcases (hb call hc).eq_or_lt with heq | hlt
    · rw [heq,moved_eq_zero hb] at hm
      omega
    · have hfar := lt_moved calls hlt
      have hc := hz (g.interval now - g.interval call.time).toNat (by omega) (by omega)
      rwa [Int.toNat_of_nonneg (by omega),sub_sub_cancel] at hc
  constructor
  · intro hown d
    constructor
    · intro k hk hpos
      induction k using Nat.strong_induction_on with
      | _ k ih =>
        rw [← hown.2 d k hk,hh d k hk,hn d k hpos fun j hj => ih j hj (hj.trans hk)]
        rfl
    · have hz := hown.2 d 0 (by decide)
      rw [Nat.cast_zero,sub_zero] at hz
      rw [← hz]
      exact ⟨Int64.le_toInt _,Int64.toInt_lt _⟩
  · intro hz
    refine ⟨hlen,fun d k hk => ?_⟩
    obtain ⟨hz,hlo,hhi⟩ := hz d
    rw [hh d k hk]
    rcases Nat.eq_zero_or_pos k with rfl | hpos
    · rw [hlast,Nat.cast_zero,sub_zero,Int64.toInt_ofInt_of_le hlo hhi]
    · rw [hz k hk hpos,hn d k hpos fun j hj => hz j (hj.trans hk)]
      rfl

theorem buckets_in_own_interval_single : ∃ stats,
    InOwnInterval .fast [⟨1000, .sent, 7⟩] 1500 (session 0 [⟨1000, .sent, 7⟩] 1500 stats) := by
  refine ⟨initial 0,(buckets_in_own_interval_iff .fast (initial 0) 0 1500 [⟨1000,.sent,7⟩]
    (by decide) (by simp [Timely,fastBucketPeriodMilliseconds])).mpr fun d => ⟨fun k _ hk => ?_,?_⟩⟩
  · have ho : (1 : ℤ) ≠ 1 - k := by omega
    simpa [carried,Graph.interval,Graph.period,fastBucketPeriodMilliseconds] using
      fun h => (ho h).elim
  · cases d <;> decide +kernel

/-- A byte sent in one second stands two places back in the next. -/
theorem byte_two_places_back :
    place .sent (Graph.fast.buckets (session 0 [⟨0, .sent, 1⟩] 1000 (initial 0))) 2 = 1 ∧
      ¬ InOwnInterval .fast [⟨0, .sent, 1⟩] 1000 (session 0 [⟨0, .sent, 1⟩] 1000 (initial 0)) := by
  refine ⟨by decide +kernel,fun ho => ?_⟩
  have hone := ho.2 .sent 1 (by decide)
  revert hone
  decide +kernel

end Session

end Psiphon.Android
