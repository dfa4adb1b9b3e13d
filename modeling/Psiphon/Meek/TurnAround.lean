import Psiphon.Meek.Session

/-!
# How long the copy loop runs

`copyWithTimeout` compares a number of milliseconds with a `Duration`, which counts nanoseconds.
-/

namespace Psiphon.Meek

open List

def turnAroundTimeout : Time := 20 * millisecond

/-- A read that returned some bytes before its deadline, the write of all of them, and how long each
of them took. -/
structure Success where
  data : List Byte
  read : Time
  write : Time
  data_ne : data ≠ []
  read_pos : 0 ≤ read
  read_le : read ≤ turnAroundTimeout
  write_pos : 0 ≤ write

/-- The turns of a schedule; each read begins when the turn before it has ended. -/
def turnsFrom (start : Time) : List Success → List Turn
  | [] => []
  | s :: schedule =>
    let elapsed := start + s.read + s.write
    ⟨⟨s.data, none⟩, .all, elapsed⟩ :: turnsFrom elapsed schedule

/-- After a turn that completes too late the loop does not wait for another read. -/
def StopsInTime (turns : List Turn) : Prop :=
  ∀ before turn after, turns = before ++ turn :: after →
    extendedTurnAroundTimeout ≤ turn.elapsed →
      (copyWithTimeout (before ++ [turn])).status ≠ .waiting

theorem outOfTime_iff (elapsed : Time) :
    outOfTime elapsed = true ↔ 100000000 * millisecond ≤ elapsed := by
  rw [outOfTime,decide_eq_true_iff]
  change (100 * 1000000 : ℤ) ≤ elapsed.tdiv 1000000 ↔ (100000000 * 1000000 : ℤ) ≤ elapsed
  rcases Int.lt_or_le elapsed 0 with hn | hp
  · rw [← Int.neg_neg elapsed,Int.neg_tdiv,Int.tdiv_eq_ediv_of_nonneg (by omega)]
    omega
  · rw [Int.tdiv_eq_ediv_of_nonneg hp]
    omega

theorem turnsFrom_successful {start : Time} {schedule : List Success} :
    ∀ turn ∈ turnsFrom start schedule, turn.read.err = none ∧ turn.write = .all := by
  induction schedule generalizing start with
  | nil => exact nofun
  | cons s schedule ih => exact forall_mem_cons.mpr ⟨⟨rfl,rfl⟩,ih⟩

theorem le_elapsed {start : Time} {schedule : List Success} :
    ∀ turn ∈ turnsFrom start schedule, start ≤ turn.elapsed := by
  induction schedule generalizing start with
  | nil => exact nofun
  | cons s schedule ih =>
    have hs : start ≤ start + s.read + s.write :=
      Int.le_trans (Int.le_add_of_nonneg_right s.read_pos) (Int.le_add_of_nonneg_right s.write_pos)
    exact forall_mem_cons.mpr ⟨hs,fun turn ht => Int.le_trans hs (ih turn ht)⟩

theorem pairwise_turnsFrom (start : Time) (schedule : List Success) :
    (turnsFrom start schedule).Pairwise fun a b => a.elapsed ≤ b.elapsed := by
  induction schedule generalizing start with
  | nil => exact .nil
  | cons s schedule ih => exact .cons le_elapsed (ih _)

/-- As long as reads and writes succeed, only the clock ends the loop. -/
theorem copyWithTimeout_waiting_iff {turns : List Turn}
    (h : ∀ turn ∈ turns, turn.read.err = none ∧ turn.write = .all) :
    (copyWithTimeout turns).status = .waiting ↔ ∀ turn ∈ turns, outOfTime turn.elapsed = false := by
  induction turns with
  | nil => exact iff_of_true rfl nofun
  | cons turn turns ih =>
    obtain ⟨⟨hr,hw⟩,h⟩ := forall_mem_cons.mp h
    rw [forall_mem_cons,← ih h,copyWithTimeout,hw,hr]
    cases outOfTime turn.elapsed with
    | true => simp [WriteResult.err,WriteResult.accepted]
    | false => simp [WriteResult.err,WriteResult.accepted,Transfer.after]

/-- The loop stops in time only if every turn that completes after the timeout completes after more
than a day. -/
theorem copy_stops_in_time_iff (schedule : List Success) :
    StopsInTime (turnsFrom 0 schedule) ↔ ∀ turn ∈ turnsFrom 0 schedule,
      extendedTurnAroundTimeout ≤ turn.elapsed → 100000000 * millisecond ≤ turn.elapsed := by
  have hsucc : ∀ turn ∈ turnsFrom 0 schedule, _ := turnsFrom_successful
  have hord := pairwise_turnsFrom 0 schedule
  have hwait : ∀ before turn after, turnsFrom 0 schedule = before ++ turn :: after →
      ((copyWithTimeout (before ++ [turn])).status = .waiting ↔
        ∀ t ∈ before ++ [turn], outOfTime t.elapsed = false) := by
    intro before turn after hs
    refine copyWithTimeout_waiting_iff fun t ht => hsucc t ?_
    rw [hs,append_cons]
    exact mem_append_left after ht
  constructor
  · intro hstop turn ht hlate
    obtain ⟨before,after,hs⟩ := append_of_mem ht
    by_contra hearly
    refine hstop before turn after hs hlate ((hwait before turn after hs).mpr fun t ht => ?_)
    -- the turns before this one ended no later
    have hle : t.elapsed ≤ turn.elapsed := by
      rcases mem_append.mp ht with hb | hl
      · rw [hs] at hord
        exact (pairwise_append.mp hord).2.2 t hb turn (.head _)
      · exact mem_singleton.mp hl ▸ Int.le_refl _
    exact Bool.eq_false_iff.mpr fun ho => hearly (Int.le_trans ((outOfTime_iff _).mp ho) hle)
  · intro hall before turn after hs hlate hwaits
    have ht : turn ∈ turnsFrom 0 schedule := hs ▸ mem_append_right before (.head _)
    have ho := (hwait before turn after hs).mp hwaits turn (mem_append_right before (.head _))
    rw [(outOfTime_iff _).mpr (hall turn ht hlate)] at ho
    cases ho

/-- A byte that takes the whole of the read deadline. -/
def slowByte : Success where
  data := [0]
  read := turnAroundTimeout
  write := 0
  data_ne := cons_ne_nil _ _
  read_pos := by decide
  read_le := Int.le_refl _
  write_pos := Int.le_refl _

theorem copy_stops_in_time_slowByte : StopsInTime (turnsFrom 0 [slowByte]) :=
  (copy_stops_in_time_iff [slowByte]).mpr (by decide)

/-- The sixth read begins a hundred milliseconds after the start. -/
theorem copy_reads_past_timeout : ¬ StopsInTime (turnsFrom 0 (replicate 5 slowByte)) :=
  fun h => h (turnsFrom 0 (replicate 4 slowByte)) _ [] rfl (by decide) (by decide)

end Psiphon.Meek
