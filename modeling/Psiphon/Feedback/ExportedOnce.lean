import Psiphon.Feedback.SqlExporter

/-!
# Which records reach the table

A pass reads what is newer than the newest row: a record is passed over when a row of its second, or
of a later one, comes before it.
-/

namespace Psiphon.Feedback

open List Function
open Runs (run Along run_invariant run_invariant_along)

/-! ### The table -/

theorem foldl_max_lt {times : List ℕ} {n b : ℕ} (hn : n < b)
    (h : ∀ t ∈ times, t < b) : times.foldl max n < b := by
  induction times generalizing n with
  | nil => exact hn
  | cons t times ih =>
    have ht := h t (.head _)
    exact ih (by omega) fun t' ht' => h t' (.tail _ ht')

variable {table : List Row}

theorem getLastTimestamp_lt {time : ℕ} (hti : 0 < time) (h : ∀ row ∈ table, row.datetime < time) :
    getLastTimestamp table < time := by
  refine foldl_max_lt hti fun t ht => ?_
  obtain ⟨row,hr,rfl⟩ := mem_map.mp ht
  exact h row hr

variable {r : Record}

theorem isExported_iff : isExported table r = true ↔ ∃ row ∈ table, row.objId = r.id := by
  simp [isExported]

theorem mem_iterator {store : List Record} {start : ℕ} :
    r ∈ getSqlexporterDiagnosticInfoIterator store start ↔ r ∈ store ∧ start < r.datetime := by
  rw [getSqlexporterDiagnosticInfoIterator,mem_insertionSort,mem_filter]
  simp

variable {succeeds : Bool}

theorem processed_cases {table table' : List Row}
    (h : processDiagnosticInfo table r succeeds = some table') :
    (isOldAndroid r.info = true ∨ isExported table r = true) ∧ table' = table ∨
      isExported table r = false ∧ table' = table ++ [createRow r] := by
  rw [processDiagnosticInfo] at h
  split at h
  · next ho => exact .inl ⟨.inl ho,(Option.some.inj h).symm⟩
  · split at h
    · next he => exact .inl ⟨.inr he,(Option.some.inj h).symm⟩
    · next he =>
      split at h
      · exact .inr ⟨Bool.eq_false_iff.mpr he,(Option.some.inj h).symm⟩
      · cases h

section Processed

variable {table table' : List Row} {r q : Record} {succeeds : Bool}

theorem mem_of_processed (h : processDiagnosticInfo table r succeeds = some table') {row : Row}
    (hr : row ∈ table') : row ∈ table ∨ row = createRow r := by
  obtain ⟨-,rfl⟩ | ⟨-,rfl⟩ := processed_cases h
  · exact .inl hr
  · exact (mem_append.mp hr).imp_right mem_singleton.mp

/-- The key on `obj_id`: a row that goes in is not a duplicate. -/
theorem nodup_of_processed (h : processDiagnosticInfo table r succeeds = some table')
    (hnd : (table.map Row.objId).Nodup) : (table'.map Row.objId).Nodup := by
  obtain ⟨-,rfl⟩ | ⟨hn,rfl⟩ := processed_cases h
  · exact hnd
  · rw [map_append,nodup_append]
    refine ⟨hnd,nodup_singleton _,fun i hi j hj hij => ?_⟩
    obtain ⟨row,hr,rfl⟩ := mem_map.mp hi
    have he : isExported table r = true :=
      isExported_iff.mpr ⟨row,hr,hij.trans (mem_singleton.mp hj)⟩
    rw [hn] at he
    cases he

theorem isExported_mono (h : processDiagnosticInfo table r succeeds = some table')
    (he : isExported table q = true) : isExported table' q = true := by
  obtain ⟨-,rfl⟩ | ⟨-,rfl⟩ := processed_cases h
  · exact he
  · rw [isExported,any_append,← isExported,he,Bool.true_or]

theorem isExported_of_processed (h : processDiagnosticInfo table r succeeds = some table')
    (hn : isOldAndroid r.info = false) : isExported table' r = true := by
  obtain ⟨ho | he,rfl⟩ | ⟨-,rfl⟩ := processed_cases h
  · rw [hn] at ho
    cases ho
  · exact he
  · exact isExported_iff.mpr ⟨createRow r,mem_append_right _ (mem_singleton_self _),rfl⟩

end Processed

namespace Export

/-- What the cursor of the running pass has still to give. -/
def queue (s : Export) : List Record :=
  match s.pass with
  | some pass => pass.queue
  | none => []

def Retained (s : Export) (r : Record) : Prop := s.clock ≤ r.datetime + diagnosticDataLifetime

instance (s : Export) (r : Record) : Decidable (s.Retained r) :=
  inferInstanceAs (Decidable (_ ≤ _))

variable {s s' : Export} {a : Action}

/-! ### Records and rows -/

structure Known (s : Export) : Prop where
  clock_pos : 0 < s.clock
  stamped : ∀ (i : ℕ) (r : Record), s.stamped[i]? = some r → r.id = i ∧ 0 < r.datetime
  pending : ∀ (d : Inserter) (r : Record), s.pending d = some r → r ∈ s.stamped
  store : ∀ r ∈ s.store, r ∈ s.stamped
  queue : ∀ r ∈ s.queue, r ∈ s.stamped
  rows : ∀ row ∈ s.table, ∃ r ∈ s.stamped, row = createRow r
  nodup : (s.table.map Row.objId).Nodup
  began : ∀ (p : Pass), s.pass = some p → ∀ r ∈ p.began, s.Retained r → r ∈ s.store

theorem Known.positive (h : s.Known) (hr : r ∈ s.stamped) : 0 < r.datetime := by
  obtain ⟨i,hi⟩ := mem_iff_getElem?.mp hr
  exact (h.stamped i r hi).2

theorem Known.eq_of_id (h : s.Known) {r r' : Record} (hr : r ∈ s.stamped) (hr' : r' ∈ s.stamped)
    (hid : r.id = r'.id) : r = r' := by
  obtain ⟨i,hi⟩ := mem_iff_getElem?.mp hr
  obtain ⟨j,hj⟩ := mem_iff_getElem?.mp hr'
  have hij : i = j := by rw [← (h.stamped i r hi).1,← (h.stamped j r' hj).1,hid]
  subst hij
  exact Option.some.inj (hi.symm.trans hj)

theorem known_fresh : fresh.Known where
  clock_pos := Nat.one_pos
  stamped _ _ h := by cases h
  pending _ _ h := by cases h
  store _ h := by cases h
  queue _ h := by cases h
  rows _ h := by cases h
  nodup := nodup_nil
  began _ h := by cases h

theorem mem_see {pass pass' : Pass} {r q : Record} (h : Pass.see pass r = some pass') :
    q ∈ pass'.queue ↔ q = r ∨ q ∈ pass.queue := by
  rw [Pass.see] at h
  split at h
  · cases h
    exact mem_orderedInsert _
  · cases h

theorem began_see {pass pass' : Pass} (h : Pass.see pass r = some pass') :
    pass'.began = pass.began ∧ pass'.raised = pass.raised := by
  rw [Pass.see] at h
  split at h
  · cases h
    exact ⟨rfl,rfl⟩
  · cases h

variable {d : Inserter}

theorem insert_cases {seen : Bool} (hs : step s (.insert d seen) = some s') :
    ∃ r, s.pending d = some r ∧ s'.clock = s.clock ∧ s'.stamped = s.stamped ∧
      s'.pending = Function.update s.pending d none ∧ s'.store = s.store ++ [r] ∧
      s'.table = s.table ∧
      (seen = false ∧ s'.pass = s.pass ∨ seen = true ∧ ∃ p p', s.pass = some p ∧
        Pass.see p r = some p' ∧ s'.pass = some p') := by
  rw [step] at hs
  split at hs
  · rename_i r hr
    cases seen with
    | false =>
      cases hs
      exact ⟨r,hr,rfl,rfl,rfl,rfl,rfl,.inl ⟨rfl,rfl⟩⟩
    | true =>
      obtain ⟨p',hp',rfl⟩ := Option.map_eq_some_iff.mp hs
      obtain ⟨p,hp,hsee⟩ := Option.bind_eq_some_iff.mp hp'
      exact ⟨r,hr,rfl,rfl,rfl,rfl,rfl,.inr ⟨rfl,p,p',hp,hsee,rfl⟩⟩
  · cases hs

theorem process_cases (hs : step s (.process succeeds) = some s') : ∃ last position r rest b raised,
      s.pass = some ⟨last,position,r :: rest,b,raised⟩ ∧
      ((∃ table, processDiagnosticInfo s.table r succeeds = some table ∧
          s' = { s with table, pass := some ⟨last,r.datetime,rest,b,raised⟩ }) ∨
        processDiagnosticInfo s.table r succeeds = none ∧
          s' = { s with pass := some ⟨last,r.datetime,rest,b,true⟩ }) := by
  rw [step] at hs
  split at hs
  · rename_i last position r rest b raised hp
    refine ⟨last,position,r,rest,b,raised,hp,?_⟩
    split at hs
    · rename_i table ht
      exact .inl ⟨table,ht,(Option.some.inj hs).symm⟩
    · rename_i hn
      exact .inr ⟨hn,(Option.some.inj hs).symm⟩
  · cases hs

theorem stamp_cases {info : Obj} (hstep : step s (.stamp d info) = some s') :
    s' = { s with
      stamped := s.stamped ++ [⟨s.stamped.length,s.clock,info⟩]
      pending := Function.update s.pending d (some ⟨s.stamped.length,s.clock,info⟩) } := by
  rw [step] at hstep
  split at hstep
  · exact (Option.some.inj hstep).symm
  · cases hstep

theorem begin_cases (hs : step s .begin = some s') :
    s.pass = none ∧ s' = { s with pass := some ⟨getLastTimestamp s.table,getLastTimestamp s.table,
      getSqlexporterDiagnosticInfoIterator s.store (getLastTimestamp s.table),s.store,false⟩ } := by
  rw [step] at hs
  split at hs
  · next hn => exact ⟨hn,(Option.some.inj hs).symm⟩
  · cases hs

theorem finish_cases (hs : step s .finish = some s') : (∃ p, s.pass = some p ∧ p.queue = []) ∧
      s' = { s with table := truncateDb s.clock s.table, pass := none } := by
  rw [step] at hs
  split at hs
  · next hp => exact ⟨⟨_,hp,rfl⟩,(Option.some.inj hs).symm⟩
  · cases hs

theorem queue_of_pass {p : Pass} (hp : s.pass = some p) : s.queue = p.queue := by
  rw [queue,hp]

theorem queue_of_finish (hs : step s .finish = some s') : s.queue = [] := by
  obtain ⟨⟨p,hp,he⟩,-⟩ := finish_cases hs
  rw [queue_of_pass hp,he]

theorem Known.stamp {info : Obj} (h : s.Known) (hstep : Export.step s (.stamp d info) = some s') :
    s'.Known := by
  obtain rfl := stamp_cases hstep
  have hold : ∀ r ∈ s.stamped, r ∈ s.stamped ++ [⟨s.stamped.length,s.clock,info⟩] :=
    fun r hr => mem_append_left _ hr
  refine ⟨h.clock_pos,fun i r hi => ?_,fun d' r hr => ?_,fun r hr => hold r (h.store r hr),
    fun r hr => hold r (h.queue r hr),fun row hrow => ?_,h.nodup,h.began⟩
  · -- an old place, or the new one at the end
    obtain hlt | hge := Nat.lt_or_ge i s.stamped.length
    · exact h.stamped i r (by rwa [List.getElem?_append_left hlt] at hi)
    · rw [List.getElem?_append_right hge] at hi
      obtain ⟨hzero,hr⟩ := List.getElem?_eq_some_iff.mp hi
      rw [length_singleton] at hzero
      have hi' : i = s.stamped.length := by omega
      subst hi'
      simp only [Nat.sub_self,getElem_cons_zero] at hr
      subst hr
      exact ⟨rfl,h.clock_pos⟩
  · by_cases hd : d' = d
    · subst hd
      obtain rfl := Option.some.inj ((update_self d' _ s.pending).symm.trans hr)
      exact mem_append_right _ (mem_singleton_self _)
    · exact hold r (h.pending d' r ((update_of_ne hd _ s.pending).symm.trans hr))
  · obtain ⟨r,hr,hrow⟩ := h.rows row hrow
    exact ⟨r,hold r hr,hrow⟩

theorem Known.insert {seen : Bool} (h : s.Known)
    (hstep : Export.step s (.insert d seen) = some s') :
    s'.Known := by
  obtain ⟨r,hr,hc,hs,hpe,hst,ht,hpa⟩ := insert_cases hstep
  have hrm := h.pending d r hr
  refine ⟨hc ▸ h.clock_pos,hs ▸ h.stamped,fun d' r' hr' => ?_,fun r' hr' => ?_,
    fun q hq => ?_,?_,ht ▸ h.nodup,fun p hp r' hr' hre => ?_⟩
  · rw [hs]
    rw [hpe] at hr'
    by_cases hd : d' = d
    · subst hd
      rw [update_self] at hr'
      cases hr'
    · rw [update_of_ne hd] at hr'
      exact h.pending d' r' hr'
  · rw [hs]
    rw [hst] at hr'
    obtain hr' | hr' := mem_append.mp hr'
    · exact h.store r' hr'
    · exact mem_singleton.mp hr' ▸ hrm
  · rw [hs]
    obtain ⟨-,hsa⟩ | ⟨-,p,p',hp,hsee,hp'⟩ := hpa
    · refine h.queue q ?_
      rwa [Export.queue,hsa,← Export.queue] at hq
    · rw [queue_of_pass hp'] at hq
      obtain rfl | hq := (mem_see hsee).mp hq
      · exact hrm
      · exact h.queue q (queue_of_pass hp ▸ hq)
  · rw [ht,hs]
    exact h.rows
  · rw [hst]
    refine mem_append_left _ ?_
    rw [Retained,hc] at hre
    obtain ⟨-,hsa⟩ | ⟨-,p₀,p',hp₀,hsee,hp'⟩ := hpa
    · exact h.began p (hsa ▸ hp) r' hr' hre
    · obtain rfl := Option.some.inj (hp'.symm.trans hp)
      exact h.began p₀ hp₀ r' ((began_see hsee).1 ▸ hr') hre

theorem Known.advance {last position position' : ℕ} {rest b : List Record}
    {raised raised' : Bool} (h : s.Known) (hpa : s.pass = some ⟨last,position,r :: rest,b,raised⟩)
    (hr : ∀ row ∈ table, row ∈ s.table ∨ row = createRow r) (hnd : (table.map Row.objId).Nodup) :
    Known { s with table, pass := some ⟨last,position',rest,b,raised'⟩ } := by
  have hqu : ∀ q ∈ r :: rest, q ∈ s.stamped := fun q hq => h.queue q (queue_of_pass hpa ▸ hq)
  refine ⟨h.clock_pos,h.stamped,h.pending,h.store,fun q hq => ?_,fun row hrow => ?_,hnd,
    fun p hp => ?_⟩
  · exact hqu q (.tail _ hq)
  · obtain hrow | hrow := hr row hrow
    · exact h.rows row hrow
    · exact ⟨r,hqu r (.head _),hrow⟩
  · cases hp
    show ∀ q ∈ b, s.Retained q → q ∈ s.store
    exact h.began _ hpa

theorem Known.process (h : s.Known) (hs : Export.step s (.process succeeds) = some s') :
    s'.Known := by
  obtain ⟨last,position,r,rest,began,raised,hp,he⟩ := process_cases hs
  obtain ⟨table,ht,rfl⟩ | ⟨-,rfl⟩ := he
  · exact h.advance hp (fun row hr => mem_of_processed ht hr) (nodup_of_processed ht h.nodup)
  · exact h.advance hp (fun row hr => .inl hr) h.nodup

theorem Known.step (h : s.Known) (hs : step s a = some s') : s'.Known := by
  cases a with
  | tick n =>
    cases hs
    refine ⟨Nat.lt_of_lt_of_le h.clock_pos (Nat.le_add_right _ _),h.stamped,h.pending,h.store,
      h.queue,h.rows,h.nodup,fun p hp r hr hre => h.began p hp r hr ?_⟩
    exact Nat.le_trans (Nat.le_add_right _ _) hre
  | stamp d info => exact h.stamp hs
  | insert d seen => exact h.insert hs
  | expire =>
    cases hs
    refine ⟨h.clock_pos,h.stamped,h.pending,fun r hr => h.store r (mem_filter.mp hr).1,
      h.queue,h.rows,h.nodup,fun p hp r hr hre => ?_⟩
    exact mem_filter.mpr ⟨h.began p hp r hr hre,decide_eq_true hre⟩
  | begin =>
    obtain ⟨-,rfl⟩ := begin_cases hs
    refine ⟨h.clock_pos,h.stamped,h.pending,h.store,fun r hr => ?_,h.rows,h.nodup,
      fun p hp r hr _ => ?_⟩
    · exact h.store r (mem_iterator.mp hr).1
    · cases hp
      exact hr
  | process succeeds => exact h.process hs
  | finish =>
    obtain ⟨-,rfl⟩ := finish_cases hs
    refine ⟨h.clock_pos,h.stamped,h.pending,h.store,fun _ hq => (by cases hq),
      fun row hrow => h.rows row (mem_filter.mp hrow).1,?_,fun _ hp => (by cases hp)⟩
    exact h.nodup.sublist (filter_sublist.map _)

/-! ### What waits to be exported -/

/-- No row, and no record that the pass has still to process, is of the second of the record or of a
later one. -/
def Ahead (table : List Row) (queue : List Record) (r : Record) : Prop :=
  (∀ row ∈ table, row.datetime < r.datetime) ∧ ∀ q ∈ queue, dropFraction q.datetime < r.datetime

instance (table : List Row) (queue : List Record) (r : Record) : Decidable (Ahead table queue r) :=
  inferInstanceAs (Decidable (_ ∧ _))

/-- The record is visible and has no row, and the pass has not to process it. -/
def waits (s : Export) (r : Record) : Bool :=
  !isExported s.table r && s.queue.all fun q => q.id != r.id

/-- Nothing is passed over by the step. A record becomes visible ahead of all that was read, or the
open cursor comes to it and none that waits for a later pass is as early. A call raises only on
record ahead of the rows and of the rest of the pass. The table is truncated when no record within
its lifetime has a second that is not. -/
def NotPassed (s : Export) : Action → Prop
  | .insert d false => ∀ r ∈ s.pending d, Ahead s.table s.queue r
  | .insert d true => ∀ r ∈ s.pending d, ∀ r' ∈ s.store, s.waits r' = true →
    dropFraction r.datetime < r'.datetime
  | .process succeeds =>
    match s.queue with
    | r :: rest => processDiagnosticInfo s.table r succeeds = none → Ahead s.table rest r
    | [] => True
  | .finish => ∀ r ∈ s.store, s.Retained r →
    s.clock ≤ dropFraction r.datetime + diagnosticDataLifetime
  | _ => True

instance (s : Export) (a : Action) : Decidable (NotPassed s a) := by
  cases a with
  | process succeeds =>
    rw [NotPassed]
    cases s.queue with
    | nil => exact isTrue trivial
    | cons r rest => exact inferInstanceAs (Decidable (_ → _))
  | insert d seen =>
    cases seen with
    | false => exact inferInstanceAs (Decidable (∀ r ∈ s.pending d, Ahead s.table s.queue r))
    | true =>
      exact inferInstanceAs (Decidable (∀ r ∈ s.pending d, ∀ r' ∈ s.store, s.waits r' = true →
        dropFraction r.datetime < r'.datetime))
  | finish => exact inferInstanceAs (Decidable (∀ r ∈ s.store, _ → _))
  | _ => exact isTrue trivial

/-- The record has a row, or waits in the queue, or is ahead of both. -/
def Safe (s : Export) (r : Record) : Prop :=
  isExported s.table r = true ∨ r ∈ s.queue ∨ Ahead s.table s.queue r

structure Covered (s : Export) : Prop where
  known : s.Known
  safe : ∀ r ∈ s.store, isOldAndroid r.info = false → s.Retained r → s.Safe r
  /-- A pass without an exception has exported what it found, or has still to do so. -/
  begun : ∀ (p : Pass), s.pass = some p → p.raised = false → ∀ r ∈ p.began,
    isOldAndroid r.info = false → s.Retained r → isExported s.table r = true ∨ r ∈ p.queue

theorem covered_fresh : fresh.Covered :=
  ⟨known_fresh,fun _ h => (by cases h),fun _ h => (by cases h)⟩

/-- The row of a record that is within its lifetime by its second outlives the truncation. -/
theorem isExported_truncateDb (h : s.Known) (hr : r ∈ s.stamped)
    (hs : s.clock ≤ dropFraction r.datetime + diagnosticDataLifetime)
    (he : isExported s.table r = true) : isExported (truncateDb s.clock s.table) r = true := by
  obtain ⟨row,hrow,hid⟩ := isExported_iff.mp he
  obtain ⟨r',hr',rfl⟩ := h.rows row hrow
  obtain rfl := h.eq_of_id hr' hr hid
  exact isExported_iff.mpr ⟨_,mem_filter.mpr ⟨hrow,decide_eq_true hs⟩,rfl⟩

variable {rest : List Record}

theorem safe_of_processed {table table' : List Row} {r q : Record}
    (ht : processDiagnosticInfo table r succeeds = some table')
    (hq : isOldAndroid q.info = false) (h : isExported table q = true ∨ q ∈ r :: rest) :
    isExported table' q = true ∨ q ∈ rest := by
  obtain he | hm := h
  · exact .inl (isExported_mono ht he)
  · obtain rfl | hm := mem_cons.mp hm
    · exact .inl (isExported_of_processed ht hq)
    · exact .inr hm

theorem Ahead.tail {r q : Record} (h : Ahead table (r :: rest) q) : Ahead table rest q :=
  ⟨h.1,fun q' hq' => h.2 q' (.tail _ hq')⟩

theorem Ahead.processed {table table' : List Row} {r q : Record} (h : Ahead table (r :: rest) q)
    (ht : processDiagnosticInfo table r succeeds = some table') : Ahead table' rest q := by
  refine ⟨fun row hr => ?_,h.tail.2⟩
  obtain hr | rfl := mem_of_processed ht hr
  · exact h.1 row hr
  · exact h.2 r (.head _)

theorem waits_or (h : s.Known) (hr : r ∈ s.stamped) :
    s.waits r = true ∨ isExported s.table r = true ∨ r ∈ s.queue := by
  cases he : isExported s.table r with
  | true => exact .inr (.inl rfl)
  | false =>
    by_cases hqu : ∃ q ∈ s.queue, q.id = r.id
    · obtain ⟨q,hq,hid⟩ := hqu
      exact .inr (.inr (h.eq_of_id (h.queue q hq) hr hid ▸ hq))
    · refine .inl ?_
      rw [waits,he,Bool.not_false,Bool.true_and,all_eq_true]
      exact fun q hq => bne_iff_ne.mpr fun hid => hqu ⟨q,hq,hid⟩

theorem Covered.begins (h : s.Covered) (hp : s.pass = none) (hr : r ∈ s.store)
    (hn : isOldAndroid r.info = false) (hre : s.Retained r) : isExported s.table r = true ∨
      r ∈ getSqlexporterDiagnosticInfoIterator s.store (getLastTimestamp s.table) := by
  obtain he | hm | ha := h.safe r hr hn hre
  · exact .inl he
  · rw [Export.queue,hp] at hm
    cases hm
  · refine .inr (mem_iterator.mpr ⟨hr,?_⟩)
    exact getLastTimestamp_lt (h.known.positive (h.known.store r hr)) ha.1

theorem Covered.insert {seen : Bool} (h : s.Covered) (hpa : NotPassed s (.insert d seen))
    (hst : Export.step s (.insert d seen) = some s') : s'.Covered := by
  refine ⟨h.known.step hst,fun r hr hn hre => ?_, fun p hp hra r hr hn hre => ?_⟩
  all_goals
    obtain ⟨r₀,hr₀,hc,-,-,hs,ht,hpass⟩ := insert_cases hst
    rw [Retained,hc] at hre
  · rw [hs] at hr
    obtain ⟨rfl,hsa⟩ | ⟨rfl,p,p',hp,hsee,hp'⟩ := hpass
    · have hqu : s'.queue = s.queue := by rw [Export.queue,hsa,← Export.queue]
      rw [Safe,ht,hqu]
      obtain hr | hr := mem_append.mp hr
      · exact h.safe r hr hn hre
      · obtain rfl := mem_singleton.mp hr
        exact .inr (.inr (hpa r hr₀))
    · have ho : ∀ q ∈ s.queue, q ∈ p'.queue := fun q hq =>
        (mem_see hsee).mpr (.inr (queue_of_pass hp ▸ hq))
      rw [Safe,ht,queue_of_pass hp']
      obtain hv | hr := mem_append.mp hr
      · obtain he | hm | ha := h.safe r hv hn hre
        · exact .inl he
        · exact .inr (.inl (ho r hm))
        · -- A record that waits may be passed by the one that joins the queue.
          obtain hw | he | hm := waits_or h.known (h.known.store r hv)
          · refine .inr (.inr ⟨ha.1,fun q hq => ?_⟩)
            obtain rfl | hq := (mem_see hsee).mp hq
            · exact hpa q hr₀ r hv hw
            · exact ha.2 q (queue_of_pass hp ▸ hq)
          · exact .inl he
          · exact .inr (.inl (ho r hm))
      · exact .inr (.inl ((mem_see hsee).mpr (.inl (mem_singleton.mp hr))))
  · rw [ht]
    obtain ⟨-,hsa⟩ | ⟨-,p₀,p',hp₀,hsee,hp'⟩ := hpass
    · exact h.begun p (hsa ▸ hp) hra r hr hn hre
    · obtain rfl := Option.some.inj (hp'.symm.trans hp)
      obtain ⟨hb,hsa⟩ := began_see hsee
      have hbe := h.begun p₀ hp₀ (hsa ▸ hra) r (hb ▸ hr) hn hre
      exact hbe.imp_right fun hm => (mem_see hsee).mpr (.inr hm)

theorem Covered.begin (h : s.Covered) (hs : Export.step s .begin = some s') : s'.Covered := by
  refine ⟨h.known.step hs,?_,?_⟩
  all_goals obtain ⟨hn,rfl⟩ := begin_cases hs
  · intro r hr hnew hre
    exact (h.begins hn hr hnew hre).imp_right .inl
  · intro p hp _ r hr hnew hre
    cases hp
    exact h.begins hn hr hnew hre

theorem Covered.process (h : s.Covered) (hpa : NotPassed s (.process succeeds))
    (hst : Export.step s (.process succeeds) = some s') : s'.Covered := by
  have hk := h.known.step hst
  obtain ⟨last,position,q,rest,began,raised,hpass,hend⟩ := process_cases hst
  have hq : s.queue = q :: rest := queue_of_pass hpass
  obtain ⟨table,ht,rfl⟩ | ⟨hn,rfl⟩ := hend
  · refine ⟨hk,fun r hr hnew hre => ?_,fun p hp hra r hr hnew hre => ?_⟩
    · have hs := h.safe r hr hnew hre
      rw [Safe,hq,← or_assoc] at hs
      obtain hs | ha := hs
      · exact (safe_of_processed ht hnew hs).imp_right .inl
      · exact .inr (.inr (ha.processed ht))
    · cases hp
      exact safe_of_processed ht hnew (h.begun _ hpass hra r hr hnew hre)
  · refine ⟨hk,fun r hr hnew hre => ?_,fun p hp hra => ?_⟩
    · have hs := h.safe r hr hnew hre
      rw [Safe,hq] at hs
      obtain he | hm | ha := hs
      · exact .inl he
      · obtain rfl | hm := mem_cons.mp hm
        · rw [NotPassed,hq] at hpa
          exact .inr (.inr (hpa hn))
        · exact .inr (.inl hm)
      · exact .inr (.inr ha.tail)
    · cases hp
      cases hra

theorem Covered.finish (h : s.Covered) (hpa : NotPassed s .finish)
    (hs : Export.step s .finish = some s') : s'.Covered := by
  have hk := h.known.step hs
  have hem := queue_of_finish hs
  obtain ⟨-,rfl⟩ := finish_cases hs
  refine ⟨hk,fun r hr hn hre => ?_,fun _ hp => (by cases hp)⟩
  have hsa := h.safe r hr hn hre
  rw [Safe,hem] at hsa
  obtain he | hm | ha := hsa
  · exact .inl (isExported_truncateDb h.known (h.known.store r hr) (hpa r hr hre) he)
  · cases hm
  · exact .inr (.inr ⟨fun row hrow => ha.1 row (mem_filter.mp hrow).1,ha.2⟩)

theorem Covered.step (h : s.Covered) (hpa : NotPassed s a) (hs : step s a = some s') :
    s'.Covered := by
  have hk := h.known.step hs
  cases a with
  | tick n =>
    cases hs
    -- what is within its lifetime later is so now
    have he : ∀ {r : Record}, Retained { s with clock := s.clock + n } r → s.Retained r :=
      fun hre => Nat.le_trans (Nat.le_add_right _ _) hre
    exact ⟨hk,fun r hr hnew hre => h.safe r hr hnew (he hre),
      fun p hp hra r hr hnew hre => h.begun p hp hra r hr hnew (he hre)⟩
  | stamp d info =>
    obtain rfl := stamp_cases hs
    exact ⟨hk,h.safe,h.begun⟩
  | insert d seen => exact h.insert hpa hs
  | expire =>
    cases hs
    exact ⟨hk,fun r hr => h.safe r (mem_filter.mp hr).1,h.begun⟩
  | begin => exact h.begin hs
  | process succeeds => exact h.process hpa hs
  | finish => exact h.finish hpa hs

/-- When a pass without an exception ends, every record that it found is in the table once. -/
def EndsComplete (s : Export) : Prop :=
  ∀ (p : Pass) (s' : Export), s.pass = some p → step s .finish = some s' → p.raised = false →
    ∀ r ∈ p.began, isOldAndroid r.info = false → s.Retained r →
      s'.table.countP (fun row => row.objId = r.id) = 1

/-- A table with one row for each ID has one for each record that it has. -/
theorem countP_of_isExported (hnd : (table.map Row.objId).Nodup) (h : isExported table r = true) :
    table.countP (fun row => row.objId = r.id) = 1 := by
  have hc : table.countP (fun row => row.objId = r.id) = (table.map Row.objId).count r.id := by
    rw [List.count,countP_map]
    rfl
  obtain ⟨row,hr,hid⟩ := isExported_iff.mp h
  rw [hc]
  exact count_eq_one_of_mem hnd (hid ▸ mem_map_of_mem hr)

/-- In every run in which nothing is passed over, a pass without an exception ends with every record
that it found in the table once. -/
theorem endsComplete_of_notPassed {actions : List Action}
    (hpassed : Along step NotPassed fresh (actions ++ [.finish]))
    (hrun : run step fresh actions = some s) : s.EndsComplete := by
  have hc : s.Covered :=
    run_invariant_along (fun _ _ _ h hp hst => h.step hp hst) covered_fresh hpassed.left hrun
  have hf : NotPassed s .finish := (hpassed.of_append hrun).1
  intro p s' hpa hst hra r hr hnew hre
  have hk := hc.known.step hst
  have hs := hc.known.began p hpa r hr hre
  have hem : p.queue = [] := (queue_of_pass hpa).symm.trans (queue_of_finish hst)
  obtain he | hmem := hc.begun p hpa hra r hr hnew hre
  · refine countP_of_isExported hk.nodup ?_
    obtain ⟨-,rfl⟩ := finish_cases hst
    exact isExported_truncateDb hc.known (hc.known.store r hs) (hf r hs hre) he
  · rw [hem] at hmem
    cases hmem

/-- Both decryptors insert a record, the first call on the second record raises, and the next pass
exports it. -/
def failsLast : List Action :=
  [.stamp .mailDecryptor (.dict []), .insert .mailDecryptor false, .tick 3000,
    .stamp .s3Decryptor (.dict []), .insert .s3Decryptor false, .begin, .process true,
    .process false, .finish, .begin, .process true, .process true]

theorem endsComplete_failsLast : ∃ s : Export, run step fresh failsLast = some s ∧
    s.EndsComplete ∧ s.table = [⟨0, 0⟩, ⟨1, 3000⟩] := by
  have hp : Along step NotPassed fresh (failsLast ++ [.finish]) := by decide +kernel
  refine ⟨_,(Option.some_get (by decide +kernel)).symm,?_,by decide +kernel⟩
  exact endsComplete_of_notPassed hp (Option.some_get _).symm

/-- A record is stamped. Two seconds later another is stamped and inserted, and exported; only then
the first becomes visible, and the next pass reads only the other again. -/
def insertsLate : List Action :=
  [.stamp .mailDecryptor (.dict []), .tick 2000, .stamp .s3Decryptor (.dict []),
    .insert .s3Decryptor false, .begin, .process true, .finish, .insert .mailDecryptor false,
    .begin, .process true]

theorem not_endsComplete_insertsLate : ∃ s : Export, run step fresh insertsLate = some s ∧
    s.table = [⟨1, 2000⟩] ∧ ¬ s.EndsComplete := by
  refine ⟨_,(Option.some_get (by decide +kernel)).symm,by decide +kernel,fun h => ?_⟩
  -- The pass found the record, which is to be exported and within its lifetime.
  have hone := h _ _ (Option.some_get (by decide +kernel)).symm
    (Option.some_get (by decide +kernel)).symm (by decide +kernel) _
    (List.getElem_mem (n := 1) (by decide +kernel)) (by decide +kernel) (by decide +kernel)
  exact absurd hone (by decide +kernel)

end Export

end Psiphon.Feedback
