import Psiphon.Client.ServerEntryText
import Psiphon.Lib.Hoare
import Psiphon.Lib.Lines

/-!
# The output of the core process

`ConsumeCoreProcessOutput` of `coretransport.cpp` shortens its buffer after the loop over the lines
only, so that a `TransportFailed` of the handler leaves handled lines in it.
-/

namespace Psiphon.Client

open List Lines
open Json (Bytes Value ascii)
open Prod

def newline : UInt8 := 10

structure TransportFailed where
  deriving DecidableEq, Repr

structure CoreOutput where
  /-- `m_pipeBuffer` -/
  pipeBuffer : Bytes
  /-- How many bytes were appended to the buffer in all. -/
  received : ℕ
  /-- The lines that were handed to `HandleCoreProcessOutputLine`, each with the place in the stream
  at which it starts. -/
  handed : List (ℕ × Bytes)
  deriving DecidableEq, Repr

abbrev OutputM := EStateM TransportFailed CoreOutput

def noticeMember (members : List (Bytes × Value)) (key : String) : Value :=
  (findMember members key).getD .null

/-- `HandleCoreProcessOutputLine` throws `TransportFailed` for a notice that a port is in use. A
notice that it cannot read is a `std::exception`, which it catches. -/
def portInUse (parse : Bytes → Option Value) (line : Bytes) : Bool :=
  match parse line with
  | some (.obj notice) =>
    match asString (noticeMember notice "noticeType"), asString (noticeMember notice "timestamp"),
      jsonGet (noticeMember notice "data") "port" .null >>= asInt with
    | .ok noticeType, .ok _, .ok _ =>
      noticeType = ascii "SocksProxyPortInUse" || noticeType = ascii "HttpProxyPortInUse"
    | _, _, _ => false
  | _ => false

section Consume

-- whether the handler throws, from the lines that it had before and the line
variable (throws : List Bytes → Bytes → Bool)

def handleCoreProcessOutputLine (place : ℕ) (line : Bytes) : OutputM Unit := do
  let before := (← get).handed.map snd
  modify fun s => { s with handed := s.handed ++ [(place, line)] }
  if throws before line then throw ⟨⟩

/-- The loop of `ConsumeCoreProcessOutput`: `rest` is the buffer from `start` on, and `place` is
where it starts in the stream. -/
def handleLines (place : ℕ) (rest : Bytes) : OutputM Unit :=
  match _h : rest.findIdx? (· == newline) with
  | none => modify fun s => { s with pipeBuffer := rest }
  | some length => do
    handleCoreProcessOutputLine throws place (rest.take length)
    handleLines (place + length + 1) (rest.drop (length + 1))
termination_by rest.length
decreasing_by
  have hlength := (List.findIdx?_eq_some_iff_getElem.mp _h).1
  rw [List.length_drop]
  omega

/-- `ConsumeCoreProcessOutput`; `read` is what `ReadFile` reads, nothing if there is no data. -/
def consumeCoreProcessOutput (read : Bytes) : OutputM Unit :=
  if read = [] then return ()
  else do
    modify fun s => { s with
      pipeBuffer := s.pipeBuffer ++ cString read
      received := s.received + (cString read).length }
    let s ← get
    handleLines throws (s.received - s.pipeBuffer.length) s.pipeBuffer

def consumeStep (s : CoreOutput) (read : Bytes) : CoreOutput :=
  match consumeCoreProcessOutput throws read s with
  | .ok _ s => s
  | .error _ s => s

def consumeAll (s : CoreOutput) (reads : List Bytes) : CoreOutput :=
  reads.foldl (consumeStep throws) s

end Consume

def CoreOutput.start : CoreOutput := ⟨[], 0, []⟩

/-! ### One call -/

section Calls

variable {throws : List Bytes → Bytes → Bool} {s : CoreOutput} {lines : List Bytes} {rest : Bytes}

def placed (place : ℕ) : List Bytes → List (ℕ × Bytes)
  | [] => []
  | line :: lines => (place, line) :: placed (place + line.length + 1) lines

theorem findIdx?_newline {line : Bytes} (h : newline ∉ line) :
    line.findIdx? (· == newline) = none := by
  refine List.findIdx?_eq_none_iff.mpr fun c hc => ?_
  simp only [beq_eq_false_iff_ne]
  rintro rfl
  exact h hc

theorem handleLines_cons {line : Bytes} (h : newline ∉ line) (place : ℕ) (rest : Bytes) :
    handleLines throws place (line ++ newline :: rest) = (do
      handleCoreProcessOutputLine throws place line
      handleLines throws (place + line.length + 1) rest) := by
  have hf : (line ++ newline :: rest).findIdx? (· == newline) = some line.length := by
    rw [List.findIdx?_append,findIdx?_newline h,List.findIdx?_cons]
    simp
  rw [handleLines]
  split
  · rename_i hn
    rw [hf] at hn
    cases hn
  · rename_i length hs
    obtain rfl := Option.some.inj (hf.symm.trans hs)
    rw [take_left,show line.length + 1 = (line ++ [newline]).length by simp,
      show line ++ newline :: rest = (line ++ [newline]) ++ rest by simp,drop_left]

theorem handleLines_of_notMem (h : newline ∉ rest) (place : ℕ) :
    handleLines throws place rest = modify fun s => { s with pipeBuffer := rest } := by
  rw [handleLines]
  split
  · rfl
  · rename_i length hs
    rw [findIdx?_newline h] at hs
    cases hs

theorem handleCoreProcessOutputLine_run (place : ℕ) (line : Bytes) (s : CoreOutput) :
    handleCoreProcessOutputLine throws place line s = if throws (s.handed.map snd) line then
        .error ⟨⟩ { s with handed := s.handed ++ [(place, line)] }
      else .ok () { s with handed := s.handed ++ [(place, line)] } := by
  show (if throws (s.handed.map snd) line then throw ⟨⟩ else pure () : OutputM Unit)
    { s with handed := s.handed ++ [(place, line)] } = _
  split <;> rfl

variable (throws) in
/-- The handler returns for each of the lines, after those before. -/
def Returns (before lines : List Bytes) : Prop :=
  ∀ first line others, lines = first ++ line :: others → throws (before ++ first) line = false

theorem returns_nil {before : List Bytes} : Returns throws before [] :=
  fun first _ _ heq => by cases first <;> cases heq

theorem returns_cons {before : List Bytes} {line : Bytes} : Returns throws before (line :: lines) ↔
    throws before line = false ∧ Returns throws (before ++ [line]) lines := by
  constructor
  · refine fun h => ⟨by simpa using h [] line lines rfl,fun first other others heq => ?_⟩
    rw [append_assoc]
    exact h (line :: first) other others (congrArg _ heq)
  · rintro ⟨hline,hlines⟩ first other others heq
    cases first with
    | nil =>
      cases heq
      rwa [append_nil]
    | cons _ first =>
      cases heq
      simpa using hlines first other others rfl

theorem returns_append {before lines' : List Bytes} : Returns throws before (lines ++ lines') ↔
    Returns throws before lines ∧ Returns throws (before ++ lines) lines' := by
  induction lines generalizing before with
  | nil => simp [returns_nil]
  | cons line lines ih => rw [cons_append,returns_cons,returns_cons,ih,and_assoc,append_assoc]; rfl

/-- The loop hands over all lines and keeps the rest, or it stops at a line and keeps the
buffer. -/
theorem handleLines_run (hl : ∀ line ∈ lines, newline ∉ line) (hr : newline ∉ rest)
    (place : ℕ) (s : CoreOutput) :
    Returns throws (s.handed.map snd) lines ∧
        handleLines throws place (unlines newline lines ++ rest) s =
          .ok () { s with pipeBuffer := rest, handed := s.handed ++ placed place lines } ∨
      ¬ Returns throws (s.handed.map snd) lines ∧
        ∃ e first others, lines = first ++ others ∧ first ≠ [] ∧
          handleLines throws place (unlines newline lines ++ rest) s =
            .error e { s with handed := s.handed ++ placed place first } := by
  induction lines generalizing place s with
  | nil =>
    refine .inl ⟨returns_nil,?_⟩
    show handleLines throws place rest s = _
    rw [handleLines_of_notMem hr,placed,append_nil]
    rfl
  | cons line lines ih =>
    obtain ⟨hli,hl⟩ := forall_mem_cons.mp hl
    rw [unlines_cons,append_assoc,cons_append,handleLines_cons hli,returns_cons]
    have hh := @handleCoreProcessOutputLine_run throws place line s
    cases ht : throws (s.handed.map snd) line with
    | true =>
      -- the line has been handed over, and the buffer is not shortened
      rw [ht,if_pos rfl] at hh
      exact .inr ⟨fun h => (by cases h.1),⟨⟩,[line],lines,rfl,nofun,Hoare.bind_of_error hh⟩
    | false =>
      rw [ht,if_neg Bool.false_ne_true] at hh
      rw [Hoare.bind_of_ok hh]
      have hm : (s.handed ++ [(place, line)]).map snd = s.handed.map snd ++ [line] := map_append
      rcases ih hl (place + line.length + 1) { s with handed := s.handed ++ [(place, line)] } with
      ⟨hre,hok⟩ | ⟨hre,e,first,others,rfl,hne,he⟩
      · rw [hm] at hre
        refine .inl ⟨⟨rfl,hre⟩,?_⟩
        rw [hok]
        simp [placed]
      · rw [hm] at hre
        refine .inr ⟨fun h => hre h.2,e,line :: first,others,rfl,nofun,?_⟩
        rw [he]
        simp [placed]

theorem cString_of_notMem {read : Bytes} (h : 0 ∉ read) : cString read = read :=
  takeWhile_eq_self_iff.mpr (bne_of_notMem h)

/-- A read does not change the place at which the buffer starts in the stream. -/
theorem received_sub_append (s : CoreOutput) (read : Bytes) :
    s.received + read.length - (s.pipeBuffer ++ read).length =
      s.received - s.pipeBuffer.length := by
  rw [length_append]
  omega

theorem consume_cases {read : Bytes} (hr : read ≠ []) (hnul : 0 ∉ read)
    (hl : ∀ line ∈ lines, newline ∉ line) (hre : newline ∉ rest)
    (hb : s.pipeBuffer ++ read = unlines newline lines ++ rest) :
    Returns throws (s.handed.map snd) lines ∧ consumeStep throws s read =
        ⟨rest,s.received + read.length,
          s.handed ++ placed (s.received - s.pipeBuffer.length) lines⟩ ∨
      ¬ Returns throws (s.handed.map snd) lines ∧
        ∃ first others, lines = first ++ others ∧ first ≠ [] ∧ consumeStep throws s read =
          ⟨s.pipeBuffer ++ read,s.received + read.length,
            s.handed ++ placed (s.received - s.pipeBuffer.length) first⟩ := by
  have hrun : consumeCoreProcessOutput throws read s =
      handleLines throws (s.received - s.pipeBuffer.length) (unlines newline lines ++ rest)
        ⟨s.pipeBuffer ++ read,s.received + read.length,s.handed⟩ := by
    rw [consumeCoreProcessOutput,if_neg hr,cString_of_notMem hnul,← hb,
      ← received_sub_append s read]
    rfl
  rw [consumeStep,hrun]
  rcases handleLines_run hl hre (s.received - s.pipeBuffer.length)
    ⟨s.pipeBuffer ++ read,s.received + read.length,s.handed⟩ with
    ⟨hreturns,hok⟩ | ⟨hreturns,e,first,others,hs,hne,he⟩
  · rw [hok]
    exact .inl ⟨hreturns,rfl⟩
  · rw [he]
    exact .inr ⟨hreturns,first,others,hs,hne,rfl⟩

end Calls

/-! ### Places -/

section Places

variable {place : ℕ} {lines : List Bytes}

theorem placed_append (place : ℕ) (lines lines' : List Bytes) : placed place (lines ++ lines') =
      placed place lines ++ placed (place + (unlines newline lines).length) lines' := by
  induction lines generalizing place with
  | nil => rfl
  | cons line lines ih =>
    rw [cons_append,placed,placed,ih,unlines_cons]
    simp only [cons_append,length_append,length_cons]
    rw [show place + line.length + 1 + (unlines newline lines).length =
      place + (line.length + ((unlines newline lines).length + 1)) by omega]

theorem map_snd_placed (place : ℕ) (lines : List Bytes) :
    (placed place lines).map snd = lines := by
  induction lines generalizing place with
  | nil => rfl
  | cons line lines ih => rw [placed,map_cons,ih]

theorem le_of_mem_placed {o : ℕ} (h : o ∈ (placed place lines).map fst) : place ≤ o := by
  induction lines generalizing place with
  | nil => cases h
  | cons line lines ih =>
    rcases mem_cons.mp h with rfl | h
    · exact le_rfl
    · have := ih h
      omega

theorem nodup_placed (place : ℕ) (lines : List Bytes) :
    ((placed place lines).map fst).Nodup := by
  induction lines generalizing place with
  | nil => exact nodup_nil
  | cons line lines ih =>
    refine nodup_cons.mpr ⟨fun hm => ?_,ih _⟩
    have := le_of_mem_placed hm
    omega

end Places

/-! ### Runs -/

section Runs

variable {throws : List Bytes → Bytes → Bool} {s : CoreOutput} {stream read : Bytes}
  {reads : List Bytes}

/-- Every line of the stream that has ended was handed over once, and the buffer has the rest. -/
structure Synced (stream : Bytes) (s : CoreOutput) : Prop where
  stream_eq : stream = unlines newline (s.handed.map snd) ++ s.pipeBuffer
  lines : ∀ line ∈ s.handed.map snd, newline ∉ line
  rest : newline ∉ s.pipeBuffer
  places : s.handed = placed 0 (s.handed.map snd)
  received : s.received = stream.length

structure Interrupted (s : CoreOutput) : Prop where
  pending : newline ∈ s.pipeBuffer
  handed : s.received - s.pipeBuffer.length ∈ s.handed.map fst

theorem synced_start : Synced [] .start := ⟨rfl,nofun,nofun,rfl,rfl⟩

theorem Synced.nodup (h : Synced stream s) : (s.handed.map fst).Nodup := by
  rw [h.places]
  exact nodup_placed _ _

theorem Synced.place (h : Synced stream s) : s.received - s.pipeBuffer.length =
    0 + (unlines newline (s.handed.map snd)).length := by
  rw [h.received,h.stream_eq,length_append]
  omega

theorem Synced.placed_append (h : Synced stream s) (lines : List Bytes) :
    s.handed ++ placed (s.received - s.pipeBuffer.length) lines =
      placed 0 (s.handed.map snd ++ lines) := by
  rw [Client.placed_append,← h.places,h.place]

variable (throws) in
/-- The handler returns for every line of the stream that has ended. -/
def AllReturn (stream : Bytes) : Prop := Returns throws [] (ended newline stream)

variable (throws) in
/-- Something is read after a line for which the handler throws. -/
def Resumes (reads : List Bytes) : Prop :=
  ∃ got later, reads = got ++ later ∧ ¬ AllReturn throws got.flatten ∧ ∃ read ∈ later, read ≠ []

theorem AllReturn.of_append (h : AllReturn throws (stream ++ read)) : AllReturn throws stream := by
  rw [AllReturn,ended_append,returns_append] at h
  exact h.1

theorem Synced.allReturn_append (h : Synced stream s) (ha : AllReturn throws stream)
    {lines : List Bytes} {rest : Bytes} (hl : ∀ line ∈ lines, newline ∉ line)
    (hr : newline ∉ rest) (hb : s.pipeBuffer ++ read = unlines newline lines ++ rest) :
    AllReturn throws (stream ++ read) ↔ Returns throws (s.handed.map snd) lines := by
  have he := ended_unlines h.lines h.rest
  rw [← h.stream_eq] at he
  rw [AllReturn,ended_append,returns_append,he.1,he.2,hb,(ended_unlines hl hr).1,nil_append]
  exact and_iff_right (he.1 ▸ ha)

theorem Synced.step (h : Synced stream s) (hn : 0 ∉ read) (hr : AllReturn throws (stream ++ read)) :
    Synced (stream ++ read) (consumeStep throws s read) := by
  by_cases hre : read = []
  · subst hre
    rw [append_nil]
    exact h
  obtain ⟨lines,rest,hb,hl,hrest⟩ :=
    exists_unlines newline (s.pipeBuffer ++ read)
  rcases consume_cases hre hn hl hrest hb with ⟨-,hs⟩ | ⟨ht,-⟩
  · rw [hs]
    have hte : (s.handed ++ placed (s.received - s.pipeBuffer.length) lines).map snd =
        s.handed.map snd ++ lines := by rw [map_append,map_snd_placed]
    refine ⟨?_,?_,hrest,?_,?_⟩
    · rw [hte,unlines_append,append_assoc,← hb,← append_assoc,← h.stream_eq]
    · rw [hte]
      exact forall_mem_append.mpr ⟨h.lines,hl⟩
    · rw [hte]
      exact h.placed_append lines
    · rw [h.received,length_append]
  · exact absurd ((h.allReturn_append hr.of_append hl hrest hb).mp hr) ht

/-- A call in which the handler throws leaves the lines that it was handed in the buffer. -/
theorem Synced.interrupted (h : Synced stream s) (hnul : 0 ∉ read) (ha : AllReturn throws stream)
    (ht : ¬ AllReturn throws (stream ++ read)) : Interrupted (consumeStep throws s read) ∧
      ((consumeStep throws s read).handed.map fst).Nodup := by
  have hre : read ≠ [] := by
    rintro rfl
    rw [append_nil] at ht
    exact ht ha
  obtain ⟨lines,rest,hb,hl,hrest⟩ :=
    exists_unlines newline (s.pipeBuffer ++ read)
  rcases consume_cases hre hnul hl hrest hb with
    ⟨hr,-⟩ | ⟨-,first,others,rfl,hne,hs⟩
  · exact absurd ((h.allReturn_append ha hl hrest hb).mpr hr) ht
  · rw [hs]
    obtain ⟨line,first,rfl⟩ := exists_cons_of_ne_nil hne
    refine ⟨⟨?_,?_⟩,?_⟩
    · show newline ∈ s.pipeBuffer ++ read
      rw [hb,cons_append,unlines_cons]
      simp
    · show s.received + read.length - (s.pipeBuffer ++ read).length ∈ _
      rw [received_sub_append,map_append]
      exact mem_append_right _ (.head _)
    · show ((s.handed ++ placed (s.received - s.pipeBuffer.length) (line :: first)).map fst).Nodup
      rw [h.placed_append]
      exact nodup_placed _ _

/-- The next call that reads anything hands the first line over again. -/
theorem Interrupted.again (h : Interrupted s) (hre : read ≠ []) (hn : 0 ∉ read) :
    ¬ ((consumeStep throws s read).handed.map fst).Nodup := by
  obtain ⟨lines,rest,hb,hl,hr⟩ :=
    exists_unlines newline (s.pipeBuffer ++ read)
  have hne : lines ≠ [] := by
    rintro rfl
    refine hr ?_
    rw [show rest = s.pipeBuffer ++ read from hb.symm]
    exact mem_append_left _ h.pending
  have ha : ∀ first : List Bytes, first ≠ [] →
      ¬ ((s.handed ++ placed (s.received - s.pipeBuffer.length) first).map fst).Nodup := by
    intro first hf hnd
    obtain ⟨line,first,rfl⟩ := exists_cons_of_ne_nil hf
    rw [map_append] at hnd
    exact (disjoint_of_nodup_append hnd) h.handed (.head _)
  rcases consume_cases hre hn hl hr hb with
    ⟨-,hs⟩ | ⟨-,first,-,-,hf,hs⟩
  · rw [hs]
    exact ha lines hne
  · rw [hs]
    exact ha first hf

theorem handed_step (hn : 0 ∉ read) : s.handed <+: (consumeStep throws s read).handed := by
  by_cases hr : read = []
  · subst hr
    exact prefix_rfl
  obtain ⟨lines,rest,hb,hl,hre⟩ :=
    exists_unlines newline (s.pipeBuffer ++ read)
  rcases consume_cases hr hn hl hre hb with ⟨-,hs⟩ | ⟨-,first,-,-,-,hs⟩
  · rw [hs]
    exact prefix_append _ _
  · rw [hs]
    exact prefix_append _ _

theorem handed_consumeAll (hn : ∀ read ∈ reads, 0 ∉ read) :
    s.handed <+: (consumeAll throws s reads).handed := by
  induction reads generalizing s with
  | nil => exact prefix_rfl
  | cons read reads ih =>
    obtain ⟨hre,hr⟩ := forall_mem_cons.mp hn
    exact (handed_step hre).trans (ih hr)

theorem Interrupted.nodup_iff (h : Interrupted s) (hnd : (s.handed.map fst).Nodup)
    (hn : ∀ read ∈ reads, 0 ∉ read) :
    ((consumeAll throws s reads).handed.map fst).Nodup ↔ ∀ read ∈ reads, read = [] := by
  induction reads with
  | nil => exact iff_of_true hnd nofun
  | cons read reads ih =>
    obtain ⟨hre,hr⟩ := forall_mem_cons.mp hn
    by_cases he : read = []
    · subst he
      rw [forall_mem_cons,← ih hr]
      exact (and_iff_right rfl).symm
    · refine iff_of_false (fun hl => ?_) fun ha => he (ha read (.head _))
      exact h.again he hre (hl.sublist ((handed_consumeAll hr).sublist.map _))

theorem Synced.consumeAll (h : Synced stream s) (hn : ∀ read ∈ reads, 0 ∉ read)
    (hr : AllReturn throws (stream ++ reads.flatten)) :
    Synced (stream ++ reads.flatten) (consumeAll throws s reads) := by
  induction reads generalizing s stream with
  | nil => rwa [flatten_nil,append_nil]
  | cons read reads ih =>
    obtain ⟨hread,hre⟩ := forall_mem_cons.mp hn
    rw [flatten_cons,← append_assoc] at hr ⊢
    exact ih (h.step hread hr.of_append) hre hr

/-- From a state in which nothing was thrown, no line is handed over twice exactly if nothing is
read after a line for which the handler throws. -/
theorem Synced.nodup_iff (h : Synced stream s) (ha : AllReturn throws stream)
    (hn : ∀ read ∈ reads, 0 ∉ read) :
    ((Client.consumeAll throws s reads).handed.map fst).Nodup ↔
      ∀ got later, reads = got ++ later → ¬ AllReturn throws (stream ++ got.flatten) →
        ∀ read ∈ later, read = [] := by
  induction reads generalizing s stream with
  | nil =>
    refine iff_of_true h.nodup fun got later heq _ => ?_
    rw [(append_eq_nil_iff.mp heq.symm).2]
    exact nofun
  | cons read reads ih =>
    obtain ⟨hre,hr⟩ := forall_mem_cons.mp hn
    by_cases ht : AllReturn throws (stream ++ read)
    · refine (ih (h.step hre ht) ht hr).trans
        ⟨fun hg got later heq hnot => ?_,fun hg got later heq => ?_⟩
      · cases got with
        | nil => exact absurd (by rwa [flatten_nil,append_nil]) hnot
        | cons _ got =>
          cases heq
          rw [flatten_cons,← append_assoc] at hnot
          exact hg got later rfl hnot
      · rw [append_assoc,← flatten_cons]
        exact hg (read :: got) later (congrArg _ heq)
    · obtain ⟨hi,hnd⟩ := h.interrupted hre ha ht
      refine (hi.nodup_iff hnd hr).trans ⟨fun hg got later heq hnot => ?_,fun hg => ?_⟩
      · cases got with
        | nil => exact absurd (by rwa [flatten_nil,append_nil]) hnot
        | cons _ got =>
          cases heq
          exact fun o ho => hg o (mem_append_right _ ho)
      · exact hg [read] reads rfl (by simpa using ht)

theorem allReturn_nil : AllReturn throws [] := returns_nil

end Runs

/-- However the stream is cut into reads, the handler receives its lines if it returns for all of
them; and no line twice exactly when nothing is read after one for which it throws. -/
theorem core_output_lines_iff (throws : List Bytes → Bytes → Bool) {reads : List Bytes}
    (hnul : ∀ read ∈ reads, 0 ∉ read) :
    ((AllReturn throws reads.flatten →
        (consumeAll throws .start reads).handed.map snd =
          ended newline reads.flatten ∧
        (consumeAll throws .start reads).pipeBuffer = unended newline reads.flatten) ∧
      ((consumeAll throws .start reads).handed.map fst).Nodup) ↔
    ¬ Resumes throws reads := by
  have hres : ¬ Resumes throws reads ↔ ((consumeAll throws .start reads).handed.map fst).Nodup := by
    rw [synced_start.nodup_iff allReturn_nil hnul]
    simp [Resumes]
  rw [hres]
  refine ⟨And.right,fun hnd => ⟨fun hr => ?_,hnd⟩⟩
  have hs := synced_start.consumeAll hnul hr
  have he := ended_unlines hs.lines hs.rest
  rw [← hs.stream_eq] at he
  exact ⟨he.1.symm,he.2.symm⟩

def referenceHandler (_before : List Bytes) (line : Bytes) : Bool :=
  portInUse referencePlatform.parse line

def portNotice : Bytes :=
  ascii "\x7b\"noticeType\":\"SocksProxyPortInUse\",\"data\":\x7b\"port\":1080\x7d\x7d\n"

/-- A line that is cut in two. -/
theorem core_output_lines_cut :
    (consumeAll referenceHandler .start [ascii "a\nb", ascii "c\nd"]).handed.map snd =
        ended newline (ascii "a\nbc\nd") ∧
      (consumeAll referenceHandler .start [ascii "a\nb", ascii "c\nd"]).pipeBuffer =
        unended newline (ascii "a\nbc\nd") ∧
      ((consumeAll referenceHandler .start [ascii "a\nb", ascii "c\nd"]).handed.map
        fst).Nodup := by
  have hr : AllReturn referenceHandler (ascii "a\nbc\nd") := by
    have he : ended newline (ascii "a\nbc\nd") = [ascii "a",ascii "bc"] := by decide +kernel
    rw [AllReturn,he]
    exact returns_cons.mpr ⟨by decide +kernel,returns_cons.mpr ⟨by decide +kernel,returns_nil⟩⟩
  have hn : ¬ Resumes referenceHandler [ascii "a\nb",ascii "c\nd"] := by
    rintro ⟨got,later,heq,hnot,-⟩
    have hs : ascii "a\nbc\nd" = got.flatten ++ later.flatten := by
      rw [← flatten_append,← heq]
      decide
    exact hnot (hs ▸ hr).of_append
  obtain ⟨hl,hnd⟩ := (core_output_lines_iff referenceHandler (by decide)).mpr hn
  exact ⟨(hl hr).1,(hl hr).2,hnd⟩

/-- The notice that a port is in use is handed over again when more is read. -/
theorem port_notice_handed_twice :
    referenceHandler [] portNotice.dropLast = true ∧
      (consumeAll referenceHandler .start [portNotice, ascii "x"]).handed.map fst = [0, 0] ∧
      (consumeAll referenceHandler .start [portNotice, ascii "x"]).handed.map snd =
        [portNotice.dropLast, portNotice.dropLast] := by
  decide +kernel

end Psiphon.Client
