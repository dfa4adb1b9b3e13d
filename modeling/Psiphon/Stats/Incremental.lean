import Psiphon.Lib.Runs
import Psiphon.Lib.Watermark
import Psiphon.Stats.ProcessStats

/-!
# Processing the log bit by bit

A run leaves behind the lines before its watermark, and the watermark of a minimal run goes past the
events that it skips.
-/

namespace Psiphon.Stats

open List Runs

def fileText (file : List Text) : Text := file.flatMap fun line => line ++ ['\n']

section

variable {V : Type} (config : Config V)

def entries (lines : List Text) : List Entry := lines.filterMap (logEntry config)

/-- A log in the order of its timestamps, which `fix_timestamp` leaves alone if they are valid. -/
structure Log where
  lines : List Text
  noBreak : ∀ line ∈ lines, '\n' ∉ line
  ordered : (entries config lines).Pairwise fun a b => a.timestamp ≤ b.timestamp

/-- A run: the flag, how many lines of the log there are, and how they are split into files. -/
structure Run where
  minimal : Bool
  upTo : ℕ
  files : List (List Text)

variable {config}

/-- The files hold the first lines of the log, each file in the order of the timestamps. -/
structure Run.IsOf (log : Log config) (run : Run) : Prop where
  perm : run.files.flatten.Perm (log.lines.take run.upTo)
  ordered : ∀ file ∈ run.files, (entries config file).Pairwise fun a b => a.timestamp ≤ b.timestamp

/-- A run over the whole log that skips no events. -/
structure Run.IsFull (log : Log config) (run : Run) : Prop extends run.IsOf log where
  notMinimal : run.minimal = false
  whole : log.lines.length ≤ run.upTo

/-- The fields that an entry is inserted with. -/
def inserted (config : Config V) (entry : Entry) : Option (List (Column × Option V)) :=
  match effect config entry with
  | .inserts fields => some fields
  | _ => none

def rowOf (config : Config V) (entry : Entry) : Option (Row V) :=
  (inserted config entry).map (newRow config entry.event)

/-- No line of the log makes a run fail, and no row is taken for that of another line. -/
structure Log.Sound [DecidableEq V] (log : Log config) : Prop where
  noFailure : ∀ entry ∈ entries config log.lines, effect config entry ≠ .fails
  separate : ∀ a ∈ entries config log.lines, ∀ b ∈ entries config log.lines,
    ∀ fields ∈ inserted config a, ∀ row ∈ rowOf config b,
      covers a.event fields row = true → row = newRow config a.event fields

def step [DecidableEq V] (config : Config V) (s : State V) (run : Run) : Option (State V) :=
  some (processStatsOnHost config run.minimal (run.files.map fileText) s)

/-- A minimal run skips no event that is older than one that it stores, unless the event is stored
or older than the watermark. -/
def LeavesNothing (log : Log config) (s : State V) (run : Run) : Prop :=
  run.minimal = true → ∀ entry ∈ entries config (log.lines.take run.upTo),
    isMinimal entry.event = false → isOld s.lastTimestamp entry.timestamp = false →
    (∃ other ∈ entries config (log.lines.take run.upTo), isMinimal other.event = true ∧
      entry.timestamp < other.timestamp) →
    ∀ row ∈ rowOf config entry, row ∈ s.rows

/-! ### One line -/

/-- What a part of a run has done: the rows of these entries were added, and the watermark is that
of one of them, if it is new. -/
structure Adds (config : Config V) (taken : List Entry) (p p' : Progress V) : Prop where
  rows : ∀ row, row ∈ p'.rows ↔ row ∈ p.rows ∨ ∃ entry ∈ taken, rowOf config entry = some row
  next : p'.next = p.next ∨ ∃ entry ∈ taken, p'.next = some entry.timestamp

theorem Adds.refl (p : Progress V) : Adds config [] p p := ⟨by simp,.inl rfl⟩

theorem Adds.trans {taken more : List Entry} {p p' p'' : Progress V} (h : Adds config taken p p')
    (h' : Adds config more p' p'') : Adds config (taken ++ more) p p'' := by
  constructor
  · intro row
    rw [h'.rows,h.rows,or_assoc]
    refine or_congr_right ?_
    constructor
    · rintro (⟨entry,he,hr⟩ | ⟨entry,he,hr⟩)
      · exact ⟨entry,mem_append_left _ he,hr⟩
      · exact ⟨entry,mem_append_right _ he,hr⟩
    · rintro ⟨entry,he,hr⟩
      rcases mem_append.mp he with he | he
      · exact .inl ⟨entry,he,hr⟩
      · exact .inr ⟨entry,he,hr⟩
  · rcases h'.next with hn | ⟨entry,he,hn⟩
    · rcases h.next with hn' | ⟨entry,he,hn'⟩
      · exact .inl (hn.trans hn')
      · exact .inr ⟨entry,mem_append_left _ he,hn.trans hn'⟩
    · exact .inr ⟨entry,mem_append_right _ he,hn⟩

theorem later_eq (next : Option Text) (t : Text) : later next t = next ∨ later next t = some t := by
  unfold later
  split
  · exact .inr rfl
  · split
    · exact .inr rfl
    · exact .inl rfl

/-- All rows are rows of entries of the log. -/
def FromLog (log : Log config) (rows : List (Row V)) : Prop :=
  ∀ row ∈ rows, ∃ entry ∈ entries config log.lines, rowOf config entry = some row

variable {log : Log config} {entry : Entry}

theorem mem_insertRow_iff [DecidableEq V] (hso : log.Sound) {rows : List (Row V)}
    (hr : FromLog log rows) (he : entry ∈ entries config log.lines)
    {fields : List (Column × Option V)} (hf : inserted config entry = some fields) (row : Row V) :
    row ∈ insertRow config rows entry.event fields ↔
      row ∈ rows ∨ row = newRow config entry.event fields := by
  unfold insertRow
  split
  · next ha =>
    -- the row that is there is the one that would be inserted
    obtain ⟨stored,hs,hc⟩ := any_eq_true.mp ha
    obtain ⟨o,ho,hrow⟩ := hr stored hs
    have heq := hso.separate entry he o ho fields hf stored hrow hc
    constructor
    · exact .inl
    · rintro (hrow | rfl)
      · exact hrow
      · exact heq ▸ hs
  · simp

theorem processEntry_spec [DecidableEq V] (hs : log.Sound) {p : Progress V}
    (hr : FromLog log p.rows) (hen : entry ∈ entries config log.lines) :
    ∃ p', processEntry config p entry = some p' ∧ Adds config [entry] p p' := by
  have hn := later_eq p.next entry.timestamp
  unfold processEntry
  cases he : effect config entry with
  | nothing =>
    refine ⟨_,rfl,?_,hn.imp id fun h => ⟨entry,mem_singleton_self _,h⟩⟩
    simp [rowOf,inserted,he]
  | fails => exact absurd he (hs.noFailure entry hen)
  | inserts fields =>
    have hf : inserted config entry = some fields := by rw [inserted,he]
    refine ⟨_,rfl,fun row => ?_,hn.imp id fun h => ⟨entry,mem_singleton_self _,h⟩⟩
    rw [mem_insertRow_iff hs hr hen hf]
    simp [rowOf,hf,eq_comm]

theorem Adds.fromLog {taken : List Entry} {p p' : Progress V} (h : Adds config taken p p')
    (ht : ∀ entry ∈ taken, entry ∈ entries config log.lines) (hr : FromLog log p.rows) :
    FromLog log p'.rows := by
  intro row hrow
  rcases (h.rows row).mp hrow with hrow | ⟨entry,he,hrow⟩
  · exact hr row hrow
  · exact ⟨entry,ht entry he,hrow⟩

/-! ### One file -/

def isKept (minimal : Bool) (entry : Entry) : Bool := !minimal || isMinimal entry.event

def scanned (last : Option Text) (minimal : Bool) (es : List Entry) : List Entry :=
  (es.takeWhile fun entry => !isOld last entry.timestamp).filter (isKept minimal)

theorem scanLines_spec [DecidableEq V] (hs : log.Sound) (last : Option Text) (m : Bool)
    {ls : List Text} (hls : ∀ entry ∈ entries config ls, entry ∈ entries config log.lines)
    {p : Progress V} (hr : FromLog log p.rows) : ∃ p', scanLines config last m ls p = some p' ∧
      Adds config (scanned last m (entries config ls)) p p' := by
  induction ls generalizing p with
  | nil => exact ⟨p,rfl,by simpa [scanned,entries] using .refl p⟩
  | cons line ls ih =>
    unfold scanLines
    cases hli : logEntry config line with
    | none =>
      have hen : entries config (line :: ls) = entries config ls := by
        simp [entries,hli]
      rw [hen] at hls ⊢
      exact ih hls hr
    | some entry =>
      have hen : entries config (line :: ls) = entry :: entries config ls := by
        simp [entries,hli]
      rw [hen] at hls ⊢
      have hl : ∀ e ∈ entries config ls, e ∈ entries config log.lines := fun e he =>
        hls e (.tail _ he)
      dsimp only
      by_cases ho : isOld last entry.timestamp = true
      · rw [if_pos ho]
        exact ⟨p,rfl,by simpa [scanned,ho] using .refl p⟩
      · rw [if_neg ho]
        have ht : scanned last m (entry :: entries config ls) =
            if isKept m entry then entry :: scanned last m (entries config ls)
            else scanned last m (entries config ls) := by
          rw [scanned,takeWhile_cons_of_pos (by simpa using ho),filter_cons]
          rfl
        by_cases hsk : (m && !isMinimal entry.event) = true
        · rw [if_pos hsk,ht,if_neg (by simpa [isKept] using hsk)]
          exact ih hl hr
        · rw [if_neg hsk,ht,if_pos (by simpa [isKept,imp_iff_not_or] using hsk)]
          obtain ⟨p₁,hp₁,ha₁⟩ := processEntry_spec hs hr (hls entry (.head _))
          have hr₁ : FromLog log p₁.rows := ha₁.fromLog
            (fun e he => (mem_singleton.mp he) ▸ hls entry (.head _)) hr
          obtain ⟨p₂,hp₂,ha₂⟩ := ih hl hr₁
          exact ⟨p₂,by rw [hp₁]; exact hp₂,ha₁.trans ha₂⟩

theorem lines_fileText {file : List Text} (h : ∀ line ∈ file, '\n' ∉ line) :
    lines (fileText file) = file ++ [[]] := by
  induction file with
  | nil => rfl
  | cons line file ih =>
    have hli := splitOn_eq_singleton (h line (.head _))
    have ht : fileText (line :: file) = line ++ '\n' :: fileText file := by
      simp [fileText]
    have ih := ih fun l hl => h l (.tail _ hl)
    rw [lines,splitOn_eq_splitOnP] at ih
    rw [splitOn_eq_splitOnP] at hli
    rw [lines,ht,splitOn_eq_splitOnP,splitOnP_append_cons line _ (by simp),hli,ih]
    rfl

theorem entries_subset {a b : List Text} (h : ∀ line ∈ a, line ∈ b)
    (he : entry ∈ entries config a) : entry ∈ entries config b := by
  obtain ⟨line,hl,he⟩ := mem_filterMap.mp he
  exact mem_filterMap.mpr ⟨line,h line hl,he⟩

theorem entries_append (a b : List Text) :
    entries config (a ++ b) = entries config a ++ entries config b := filterMap_append

theorem entries_reverse_lines {file : List Text} (h : ∀ line ∈ file, '\n' ∉ line) :
    entries config (lines (fileText file)).reverse = (entries config file).reverse := by
  have he : entries config [[]] = [] := rfl
  rw [entries,filterMap_reverse,← entries,lines_fileText h,entries_append,he,append_nil]

theorem isOld_mono {last : Option Text} {k l : Text} (hle : k ≤ l) (h : isOld last l = true) :
    isOld last k = true := by
  cases last with
  | none => exact h
  | some last => exact decide_eq_true (lt_of_le_of_lt hle (of_decide_eq_true h))

theorem mem_scanned_iff (last : Option Text) (m : Bool) {file : List Text}
    (ho : (entries config file).Pairwise fun a b => a.timestamp ≤ b.timestamp) (entry : Entry) :
    entry ∈ scanned last m (entries config file).reverse ↔
      entry ∈ entries config file ∧ isOld last entry.timestamp = false ∧ isKept m entry = true := by
  rw [scanned,mem_filter,
    Watermark.mem_takeWhile_reverse_iff (fun _ _ hle h => isOld_mono hle h) ho,and_assoc]

/-! ### One run -/

theorem scanFiles_spec [DecidableEq V] (hso : log.Sound) (last : Option Text) (m : Bool)
    {files : List (List Text)} (hl : ∀ file ∈ files, ∀ line ∈ file, line ∈ log.lines)
    (ho : ∀ file ∈ files,
      (entries config file).Pairwise fun a b => a.timestamp ≤ b.timestamp) {p : Progress V}
    (hro : FromLog log p.rows) :
    ∃ p' taken, scanFiles config last m (files.map fileText) p = some p' ∧
      Adds config taken p p' ∧ ∀ entry, entry ∈ taken ↔ entry ∈ entries config files.flatten ∧
        isOld last entry.timestamp = false ∧ isKept m entry = true := by
  induction files generalizing p with
  | nil => exact ⟨p,[],rfl,.refl p,by simp [entries]⟩
  | cons file files ih =>
    have hfi := hl file (.head _)
    have hb : ∀ line ∈ file, '\n' ∉ line := fun line hli => log.noBreak line (hfi line hli)
    have hm : ∀ entry ∈ entries config file, entry ∈ entries config log.lines :=
      fun entry he => entries_subset hfi he
    have hr : entries config (lines (fileText file)).reverse = (entries config file).reverse :=
      entries_reverse_lines hb
    have hs : ∀ entry ∈ entries config (lines (fileText file)).reverse,
        entry ∈ entries config log.lines := by
      intro entry he
      rw [hr] at he
      exact hm entry (mem_reverse.mp he)
    obtain ⟨p₁,hp₁,ha₁⟩ := scanLines_spec hso last m hs hro
    rw [hr] at ha₁
    have ht₁ := mem_scanned_iff last m (ho file (.head _))
    have hro₁ : FromLog log p₁.rows :=
      ha₁.fromLog (fun entry he => hm entry ((ht₁ entry).mp he).1) hro
    obtain ⟨p₂,taken₂,hp₂,ha₂,ht₂⟩ := ih (fun f hf => hl f (.tail _ hf))
      (fun f hf => ho f (.tail _ hf)) hro₁
    refine ⟨p₂,_,?_,ha₁.trans ha₂,fun entry => ?_⟩
    · rw [map_cons,scanFiles,hp₁]
      exact hp₂
    · rw [mem_append,ht₁,ht₂,flatten_cons,entries_append,mem_append,← or_and_right]

/-! ### The watermark -/

/-- The tables as a set of rows. -/
def State.abstract (s : State V) : Watermark.State (Row V) Text :=
  ⟨{row | row ∈ s.rows}, s.lastTimestamp⟩

/-- What a run goes over, and what it does not skip. -/
def Run.pass (log : Log config) (run : Run) : Watermark.Pass Entry :=
  ⟨{entry | entry ∈ entries config (log.lines.take run.upTo)},
    {entry | isKept run.minimal entry = true}⟩

theorem isOld_eq_false_iff {last : Option Text} {t : Text} :
    isOld last t = false ↔ ¬ Watermark.Before last t := by
  cases last with
  | none => simp [isOld,Watermark.Before]
  | some last => simp [isOld,Watermark.Before]

theorem mem_entries_of_perm {a b : List Text} (h : a.Perm b) :
    entry ∈ entries config a ↔ entry ∈ entries config b := (h.filterMap _).mem_iff

/-- A run does to the tables what a pass does. -/
theorem step_refines [DecidableEq V] (hso : log.Sound) {s s' : State V} {run : Run}
    (hrun : run.IsOf log) (hr : FromLog log s.rows) (h : step config s run = some s') :
    Watermark.Step Entry.timestamp (rowOf config) s.abstract (run.pass log) s'.abstract := by
  have hl : ∀ file ∈ run.files, ∀ line ∈ file, line ∈ log.lines := by
    intro file hf line hli
    have hm : line ∈ run.files.flatten := mem_flatten.mpr ⟨file,hf,hli⟩
    exact mem_of_mem_take (hrun.perm.mem_iff.mp hm)
  obtain ⟨p,taken,hp,ha,ht⟩ := scanFiles_spec hso s.lastTimestamp run.minimal hl
    hrun.ordered (p := ⟨s.rows,none⟩) hr
  have hs' : s' = ⟨p.rows,p.next.or s.lastTimestamp⟩ := by
    have hd : processStats config run.minimal (run.files.map fileText) s =
        some ⟨p.rows,p.next.or s.lastTimestamp⟩ := by
      rw [processStats,hp]
      rfl
    rw [step,processStatsOnHost,hd] at h
    exact (Option.some.inj h).symm
  have hm : ∀ entry, entry ∈ taken ↔
      entry ∈ Watermark.taken Entry.timestamp s.abstract (run.pass log) := by
    intro entry
    rw [ht,mem_entries_of_perm hrun.perm,isOld_eq_false_iff,and_comm (a := ¬ _)]
    rfl
  subst hs'
  constructor
  · intro row
    refine (ha.rows row).trans (or_congr_right ?_)
    exact exists_congr fun entry => and_congr_left fun _ => hm entry
  · rcases ha.next with hn | ⟨entry,he,hn⟩
    · exact Or.inl (by rw [State.abstract,hn]; rfl)
    · exact Or.inr ⟨entry,(hm entry).mp he,by rw [State.abstract,hn]; rfl⟩

theorem careful_of_leavesNothing {s : State V} {run : Run} (h : LeavesNothing log s run) :
    Watermark.Careful Entry.timestamp (rowOf config) s.abstract (run.pass log) := by
  intro entry he hs hb hn row hrow
  have hnot : run.minimal = true ∧ isMinimal entry.event = false := by
    simpa [Run.pass,isKept] using hs
  obtain ⟨o,⟨ho,hk,-⟩,hlt⟩ := hn
  have hm : isMinimal o.event = true := by
    simpa [Run.pass,isKept,hnot.1] using hk
  exact h hnot.1 entry he hnot.2 (isOld_eq_false_iff.mpr hb) ⟨o,ho,hm,hlt⟩ row hrow

/-- Runs that leave nothing behind are careful passes. -/
theorem passes_of_run [DecidableEq V] (hs : log.Sound) {runs : List Run} {s t : State V}
    (hru : ∀ run ∈ runs, run.IsOf log) (hro : FromLog log s.rows)
    (hc : Along (step config) (LeavesNothing log) s runs) (h : run (step config) s runs = some t) :
    Watermark.Passes Entry.timestamp (rowOf config) s.abstract
      (runs.map (Run.pass log)) t.abstract ∧
      FromLog log t.rows := by
  induction runs generalizing s with
  | nil =>
    cases h
    exact ⟨.nil _,hro⟩
  | cons first runs ih =>
    obtain ⟨s₁,hf,hre⟩ := run_cons_eq_some.mp h
    have hst := step_refines hs (hru first (.head _)) hro hf
    have hro₁ : FromLog log s₁.rows := by
      intro row hrow
      rcases (hst.rows row).mp hrow with hrow | ⟨entry,he,hrow⟩
      · exact hro row hrow
      · exact ⟨entry,entries_subset (fun _ hl => mem_of_mem_take hl) he.1,hrow⟩
    obtain ⟨hp,hro'⟩ := ih (fun r hr => hru r (.tail _ hr)) hro₁ (hc.2 s₁ hf) hre
    exact ⟨.cons (careful_of_leavesNothing hc.1) hst hp,hro'⟩

theorem initial_pass (log : Log config) (run : Run) :
    Watermark.Initial Entry.timestamp {entry | entry ∈ entries config log.lines}
      (run.pass log).items := by
  have hs : entries config log.lines = entries config (log.lines.take run.upTo) ++
      entries config (log.lines.drop run.upTo) := by
    rw [← entries_append,take_append_drop]
  constructor
  · intro entry he
    show entry ∈ entries config log.lines
    rw [hs]
    exact mem_append_left _ he
  · intro entry he o hot hnot
    have ho := log.ordered
    rw [hs,pairwise_append] at ho
    have hot : o ∈ entries config log.lines := hot
    rw [hs,mem_append] at hot
    exact ho.2.2 entry he o (hot.resolve_left hnot)

theorem items_mono (log : Log config) {a b : Run} (h : a.upTo ≤ b.upTo) :
    (a.pass log).items ⊆ (b.pass log).items := by
  intro entry he
  exact entries_subset (fun _ hl => take_subset_take_left _ h hl) he

theorem pass_of_isFull {run : Run} (h : run.IsFull log) :
    run.pass log = ⟨{entry | entry ∈ entries config log.lines},Set.univ⟩ := by
  rw [Run.pass,take_of_length_le h.whole]
  congr 1
  simp [isKept,h.notMinimal]

/-- Runs over more and more of the log, of which none leaves an event behind, and a full run at the
end store the rows that a full run stores in an empty database. -/
theorem mem_rows_iff_of_leavesNothing [DecidableEq V] {log : Log config} (hsound : log.Sound)
    {runs : List Run}
    (hruns : ∀ run ∈ runs, run.IsOf log) (hgrow : runs.Pairwise fun a b => a.upTo ≤ b.upTo)
    (hcareful : Along (step config) (LeavesNothing log) .empty runs) {last scratch : Run}
    (hlast : last.IsFull log) (hscratch : scratch.IsFull log) {t₁ t₂ : State V}
    (h₁ : run (step config) .empty (runs ++ [last]) = some t₁)
    (h₂ : step config .empty scratch = some t₂) (row : Row V) : row ∈ t₁.rows ↔ row ∈ t₂.rows := by
  have he : FromLog log (State.empty : State V).rows := by simp [FromLog,State.empty]
  have hi : Watermark.Inv Entry.timestamp (rowOf config) {entry | entry ∈ entries config log.lines}
      ∅ (.empty : State V).abstract := by
    have ha : (.empty : State V).abstract = ⟨∅,none⟩ := by
      simp [State.abstract,State.empty]
    rw [ha]
    exact Watermark.inv_empty
  have hf : ∀ {run : Run} {s t : State V}, run.IsFull log → FromLog log s.rows →
      step config s run = some t → Watermark.Step Entry.timestamp (rowOf config) s.abstract
        ⟨{entry | entry ∈ entries config log.lines},Set.univ⟩ t.abstract := by
    intro run s t hrun hr hst
    rw [← pass_of_isFull hrun]
    exact step_refines hsound hrun.toIsOf hr hst
  -- the runs before the last one keep what is before the watermark complete
  rw [run_append] at h₁
  obtain ⟨s,hs,hst⟩ := Option.bind_eq_some_iff.mp h₁
  obtain ⟨s',hst,hs'⟩ := run_cons_eq_some.mp hst
  cases hs'
  obtain ⟨hp,hr⟩ := passes_of_run hsound hruns he hcareful hs
  obtain ⟨items,hi'⟩ := hp.inv hi (fun _ _ => Set.empty_subset _)
    (pairwise_map.mpr (hgrow.imp fun h => items_mono log h)) (by
      intro pass hpa
      obtain ⟨run,-,rfl⟩ := mem_map.mp hpa
      exact initial_pass log run)
  exact (hi'.mem_rows_iff (hf hlast hr hst) row).trans
    (hi.mem_rows_iff (hf hscratch he h₂) row).symm

end

/-! ### Two events of one client -/

def textConfig : Config Text where
  hostId := "host1".toList
  serverIds := [("1.2.3.4".toList, "server1".toList)]
  excluded := ["DA77176D642E66FB".toList]
  int _ := none
  strip := id
  parseDate := some
  cast _ _ text := some text
  default _ column := if column = .tunnelWholeDevice then some "0".toList else none

def clientText : Text := "1.2.3.4 CA Toronto None AAAA BBBB 44 Windows VPN 0".toList

def handshakeLine : Text :=
  "2011-06-28T13:15:59-07:00 host1 psiphonv: handshake ".toList ++ clientText

def connectedLine : Text :=
  "2011-06-28T13:16:06-07:00 host1 psiphonv: connected ".toList ++ clientText ++
    " 10.1.0.2 Unknown".toList

def clientLog : Log textConfig where
  lines := [handshakeLine, connectedLine]
  noBreak := by decide +kernel
  ordered := by decide +kernel

def runOver (minimal : Bool) (upTo : ℕ) : Run := ⟨minimal, upTo, [clientLog.lines.take upTo]⟩

theorem isOf_runOver (m : Bool) (upTo : ℕ) : (runOver m upTo).IsOf clientLog := by
  constructor
  · simp [runOver]
  · intro file hf
    obtain rfl := mem_singleton.mp hf
    exact clientLog.ordered.sublist ((take_sublist _ _).filterMap _)

theorem isFull_runOver : (runOver false 2).IsFull clientLog := ⟨isOf_runOver false 2,rfl,by decide⟩

theorem sound_clientLog : clientLog.Sound := ⟨by decide +kernel,by decide +kernel⟩

theorem mem_rows_iff_minimalFirst :
    ∃ t₁ t₂ : State Text, run (step textConfig) .empty [runOver true 1, runOver false 2] = some t₁ ∧
      step textConfig .empty (runOver false 2) = some t₂ ∧
      ∀ row, row ∈ t₁.rows ↔ row ∈ t₂.rows := by
  -- the first run sees the handshake alone, so that no watermark goes past it
  have hn : ∀ entry ∈ entries textConfig (clientLog.lines.take 1),
      isMinimal entry.event = false := by decide +kernel
  have hc : LeavesNothing clientLog .empty (runOver true 1) := by
    rintro - entry - - - ⟨o,ho,hk,-⟩
    exact absurd ((hn o ho).symm.trans hk) Bool.false_ne_true
  exact ⟨_,_,rfl,rfl,mem_rows_iff_of_leavesNothing sound_clientLog
    (forall_mem_singleton.mpr (isOf_runOver true 1)) (pairwise_singleton _ _)
    ⟨hc,fun _ _ => trivial⟩ isFull_runOver isFull_runOver rfl rfl⟩

/-- A minimal run stores the connection and moves the watermark past the handshake, which no later
run stores. -/
theorem handshake_lost_afterMinimal :
    clientLog.Sound ∧ (runOver true 2).IsOf clientLog ∧ (runOver false 2).IsFull clientLog ∧
    ∃ t₁ t₂ : State Text, run (step textConfig) .empty [runOver true 2, runOver false 2] = some t₁ ∧
      step textConfig .empty (runOver false 2) = some t₂ ∧
      ¬ ∀ row, row ∈ t₁.rows ↔ row ∈ t₂.rows := by
  refine ⟨sound_clientLog,isOf_runOver true 2,isFull_runOver,_,_,
    (Option.some_get (by decide +kernel)).symm,(Option.some_get (by decide +kernel)).symm,
    fun hs => ?_⟩
  have hl := (hs _).mpr (getElem_mem (n := 1) (by decide +kernel))
  exact absurd hl (by decide +kernel)

end Psiphon.Stats
