import Mathlib.Data.List.Rotate

/-!
# The data file of the Python client

`connect` reads the list of servers from the file for each attempt; `test_all_servers` keeps a list
of its own across all attempts and saves that.
-/

namespace Psiphon.PyClient

open List

variable {α : Type} [DecidableEq α]

/-- A line of the response to a handshake; a line without `": "` raises. -/
inductive Line (α : Type) where
  | server (value : α)
  | other
  | malformed

/-- `self.servers.insert(1, value)`. -/
def insertSecond (value : α) : List α → List α
  | [] => [value]
  | first :: rest => first :: value :: rest

/-- The list of servers after a handshake, and whether it returned. -/
def handshake (servers : List α) : List (Line α) → List α × Bool
  | [] => (servers, true)
  | .malformed :: _ => (servers, false)
  | .other :: lines => handshake servers lines
  | .server value :: lines =>
    handshake (if value ∈ servers then servers else insertSecond value servers) lines

def values (lines : List (Line α)) : List α :=
  lines.filterMap fun
    | .server value => some value
    | _ => none

/-- What happens outside in one call of `connect_to_server`; `fails` is an exception after the
relay has been tested. -/
structure Attempt (α : Type) where
  supported : Bool
  relayFirst : Bool
  lines : List (Line α)
  relay : Bool
  fails : Bool

/-- The list in memory, the one saved to the file, the entries discovered by a handshake that
returned, and whether the call raised. -/
structure Outcome (α : Type) where
  servers : List α
  saved : Option (List α)
  discovered : List α
  raised : Bool

def doHandshake (servers : List α) (lines : List (Line α)) : Outcome α :=
  let (servers, returned) := handshake servers lines
  if returned then ⟨servers, some servers, values lines, false⟩ else ⟨servers, none, [], true⟩

def connectToServer (servers : List α) (attempt : Attempt α) : Outcome α :=
  if !attempt.supported then ⟨servers, none, [], true⟩
  else if attempt.relayFirst then
    if !attempt.relay then ⟨servers, none, [], true⟩
    -- what the handshake raises is caught here
    else { doHandshake servers attempt.lines with raised := attempt.fails }
  else
    let o := doHandshake servers attempt.lines
    if o.raised then o else { o with raised := !attempt.relay || attempt.fails }

/-- The list in the file, the servers that were the first of an attempt, and the entries discovered
by handshakes that returned. -/
structure State (α : Type) where
  file : List α
  tried : List α
  discovered : List α

def initial (file : List α) : State α := ⟨file, [], []⟩

def State.attempted (s : State α) (o : Outcome α) : State α :=
  ⟨o.saved.getD s.file, s.tried ++ s.file.head?.toList, s.discovered ++ o.discovered⟩

/-- `connect`, as far as the attempts go. -/
def connect (test : Bool) (s : State α) : List (Attempt α) → State α
  | [] => s
  | attempt :: attempts =>
    let o := connectToServer s.file attempt
    let s := s.attempted o
    if !o.raised || test then s
    else if o.servers.length > 1 then connect test { s with file := o.servers.rotate 1 } attempts
    else s

def testAll (data : List α) (s : State α) : List (Attempt α) → State α
  | [] => s
  | attempt :: attempts =>
    let s := connect true s [attempt]
    if data.length > 1 then testAll (data.rotate 1) { s with file := data.rotate 1 } attempts else s

def testAllServers (s : State α) (attempts : List (Attempt α)) : State α :=
  testAll s.file s (attempts.take s.file.length)

/-! ### No entry is lost or doubled -/

/-- The list has every entry of the other one, and none twice that was not there twice. -/
structure Extends (l l' : List α) : Prop where
  subset : l ⊆ l'
  count_le : ∀ e, l.count e ≤ 1 → l'.count e ≤ 1

theorem Extends.refl (l : List α) : Extends l l := ⟨.refl l,fun _ h => h⟩

theorem Extends.trans {l l' l'' : List α} (h : Extends l l') (h' : Extends l' l'') :
    Extends l l'' :=
  ⟨Subset.trans h.subset h'.subset,fun e he => h'.count_le e (h.count_le e he)⟩

theorem Extends.of_perm {l l' : List α} (h : l.Perm l') : Extends l l' :=
  ⟨h.subset,fun e he => h.count_eq e ▸ he⟩

omit [DecidableEq α] in
theorem insertSecond_perm (value : α) (l : List α) : (value :: l).Perm (insertSecond value l) := by
  cases l with
  | nil => exact .refl _
  | cons first rest => exact .swap first value rest

theorem extends_insertSecond {value : α} {l : List α} (h : value ∉ l) :
    Extends l (insertSecond value l) := by
  refine .trans ⟨subset_cons_self value l,fun e he => ?_⟩ (.of_perm (insertSecond_perm value l))
  rw [count_cons]
  split
  · rename_i heq
    rw [← beq_iff_eq.mp heq,count_eq_zero_of_not_mem h]
  · exact he

theorem handshake_extends (l : List α) (lines : List (Line α)) :
    Extends l (handshake l lines).1 ∧
      ((handshake l lines).2 = true → values lines ⊆ (handshake l lines).1) := by
  induction lines generalizing l with
  | nil => exact ⟨.refl l,fun _ => nil_subset _⟩
  | cons line lines ih =>
    cases line with
    | malformed => exact ⟨.refl l,fun h => Bool.noConfusion h⟩
    | other => exact ih l
    | server value =>
      obtain ⟨hl,hv⟩ : Extends l (if value ∈ l then l else insertSecond value l) ∧
          value ∈ if value ∈ l then l else insertSecond value l := by
        split
        · exact ⟨.refl l,‹_›⟩
        · exact ⟨extends_insertSecond ‹_›,(insertSecond_perm value l).subset (.head _)⟩
      obtain ⟨hi,hvalues⟩ := ih (if value ∈ l then l else insertSecond value l)
      exact ⟨hl.trans hi,fun h => cons_subset.mpr ⟨hi.subset hv,hvalues h⟩⟩

/-- What an outcome may be: nothing was saved and nothing discovered, or all that is in memory was
saved. -/
structure Outcome.Sound (l : List α) (o : Outcome α) : Prop where
  memory : Extends l o.servers
  saved : Extends l (o.saved.getD l)
  discovered : o.discovered ⊆ o.saved.getD l ∧ o.discovered ⊆ o.servers

theorem sound_unchanged (l : List α) (raised : Bool) : Outcome.Sound l ⟨l,none,[],raised⟩ :=
  ⟨.refl l,.refl l,nil_subset _,nil_subset _⟩

theorem doHandshake_sound (l : List α) (lines : List (Line α)) :
    Outcome.Sound l (doHandshake l lines) := by
  obtain ⟨hl,hv⟩ := handshake_extends l lines
  unfold doHandshake
  dsimp only
  split
  · exact ⟨hl,hl,hv ‹_›,hv ‹_›⟩
  · exact ⟨hl,.refl l,nil_subset _,nil_subset _⟩

theorem connectToServer_sound (l : List α) (attempt : Attempt α) :
    (connectToServer l attempt).Sound l := by
  have hh := doHandshake_sound l attempt.lines
  have hr : ∀ raised, Outcome.Sound l { doHandshake l attempt.lines with raised := raised } :=
    fun _ => ⟨hh.memory,hh.saved,hh.discovered⟩
  unfold connectToServer
  split
  · exact sound_unchanged l true
  · split
    · split
      · exact sound_unchanged l true
      · exact hr _
    · dsimp only
      split
      · exact hh
      · exact hr _

/-- The handshake of the attempt takes place and returns. -/
def Attempt.Handshakes (attempt : Attempt α) : Prop :=
  attempt.supported = true ∧ (attempt.relayFirst = true → attempt.relay = true) ∧
    .malformed ∉ attempt.lines

theorem handshake_returns_iff (l : List α) (lines : List (Line α)) :
    (handshake l lines).2 = true ↔ .malformed ∉ lines := by
  induction lines generalizing l with
  | nil => simp [handshake]
  | cons line lines ih => cases line <;> simp [handshake,ih]

theorem mem_discovered {l : List α} {attempt : Attempt α} {e : α} :
    e ∈ (connectToServer l attempt).discovered ↔
      attempt.Handshakes ∧ .server e ∈ attempt.lines := by
  have hv : e ∈ values attempt.lines ↔ .server e ∈ attempt.lines := by
    rw [values,mem_filterMap]
    exact ⟨fun ⟨line,hl,he⟩ => by cases line <;> cases he; exact hl,fun h => ⟨_,h,rfl⟩⟩
  have hd : e ∈ (doHandshake l attempt.lines).discovered ↔
      .malformed ∉ attempt.lines ∧ .server e ∈ attempt.lines := by
    rw [← handshake_returns_iff l,← hv]
    simp only [doHandshake]
    cases (handshake l attempt.lines).2 <;> simp
  rw [connectToServer,Attempt.Handshakes]
  cases attempt.supported with
  | false => simp
  | true =>
    cases attempt.relayFirst with
    | true => cases attempt.relay <;> simp [hd]
    | false =>
      simp only [Bool.not_true,Bool.false_eq_true,if_false,false_imp_iff,true_and]
      split <;> exact hd

/-- The file has the entries it had at the start and those discovered since, and no entry twice that
was there once. -/
structure Keeps (start : List α) (s : State α) : Prop where
  file : Extends start s.file
  discovered : s.discovered ⊆ s.file

theorem Keeps.attempted {start : List α} {s : State α} (h : Keeps start s) {o : Outcome α}
    (ho : o.Sound s.file) : Keeps start (s.attempted o) where
  file := h.file.trans ho.saved
  discovered := append_subset.mpr ⟨Subset.trans h.discovered ho.saved.subset,ho.discovered.1⟩

theorem connect_keeps {start : List α} {s : State α} (h : Keeps start s) (test : Bool)
    (attempts : List (Attempt α)) : Keeps start (connect test s attempts) := by
  induction attempts generalizing s with
  | nil => exact h
  | cons attempt attempts ih =>
    have ho := connectToServer_sound s.file attempt
    rw [connect]
    split
    · exact h.attempted ho
    split
    · -- the list in memory, with the first server moved to its end
      have hp : Extends (connectToServer s.file attempt).servers
          ((connectToServer s.file attempt).servers.rotate 1) := .of_perm (rotate_perm _ 1).symm
      refine ih ⟨h.file.trans (ho.memory.trans hp),append_subset.mpr ⟨?_,?_⟩⟩
      · exact Subset.trans h.discovered (Subset.trans ho.memory.subset hp.subset)
      · exact Subset.trans ho.discovered.2 hp.subset
    · exact h.attempted ho

/-! ### Tests of all servers -/

theorem connect_test (s : State α) (attempt : Attempt α) :
    connect true s [attempt] = s.attempted (connectToServer s.file attempt) := by
  simp [connect]

/-- Each attempt starts from the list that the caller saved. -/
theorem testAll_eq {data : List α} (hd : 1 < data.length) {s : State α} (hs : s.file = data)
    (attempts : List (Attempt α)) (hle : attempts.length ≤ data.length) :
    (testAll data s attempts).file = data.rotate attempts.length ∧
      (testAll data s attempts).tried = s.tried ++ data.take attempts.length ∧
      ∀ e, e ∈ (testAll data s attempts).discovered ↔ e ∈ s.discovered ∨
        ∃ attempt ∈ attempts, attempt.Handshakes ∧ .server e ∈ attempt.lines := by
  induction attempts generalizing data s with
  | nil => exact ⟨hs.trans data.rotate_zero.symm,(append_nil _).symm,by simp [testAll]⟩
  | cons attempt attempts ih =>
    obtain ⟨first,rest,rfl⟩ := exists_cons_of_ne_nil (ne_nil_of_length_pos (Nat.zero_lt_of_lt hd))
    have hle' : attempts.length ≤ rest.length := Nat.le_of_succ_le_succ hle
    have hr : (first :: rest).rotate 1 = rest ++ [first] := by rw [rotate_cons_succ,rotate_zero]
    rw [testAll,if_pos hd,connect_test,hr]
    have hd' : 1 < (rest ++ [first]).length := by simpa using hd
    obtain ⟨hf,ht,hdi⟩ := ih hd'
      (s := { s.attempted (connectToServer s.file attempt) with file := rest ++ [first] }) rfl
      (by simp; omega)
    refine ⟨hf.trans (rotate_cons_succ rest first _).symm,ht.trans ?_,fun e => (hdi e).trans ?_⟩
    · rw [take_append_of_le_length hle',State.attempted,hs,length_cons,take_succ_cons,append_assoc]
      rfl
    · simp [State.attempted,mem_discovered,or_assoc]

/-- Only the tests of all servers lose entries, and only if there are two servers or more and a
handshake that returned has a line with one that was not in the file. -/
theorem servers_kept_iff (file : List α) (test : Bool) (attempts tests : List (Attempt α))
    (hne : file ≠ []) (ht : tests.length = file.length) :
    Keeps file (connect test (initial file) attempts) ∧
    Extends file (testAllServers (initial file) tests).file ∧
    (testAllServers (initial file) tests).tried = file ∧
    (Keeps file (testAllServers (initial file) tests) ↔
      file.length = 1 ∨ ∀ test ∈ tests, test.Handshakes → ∀ e, .server e ∈ test.lines →
        e ∈ file) := by
  have hstart : Keeps file (initial file) := ⟨.refl file,nil_subset _⟩
  refine ⟨connect_keeps hstart test attempts,?_⟩
  have hall : testAllServers (initial file) tests = testAll file (initial file) tests := by
    rw [testAllServers,initial,← ht,take_length]
  rw [hall]
  by_cases hlen : 1 < file.length
  -- as many tests as there are servers turn the list once around
  · obtain ⟨hf,htr,hd⟩ := testAll_eq hlen (s := initial file) rfl tests ht.le
    rw [ht,rotate_length] at hf
    rw [ht,take_length] at htr
    have hext : Extends file (testAll file (initial file) tests).file := hf.symm ▸ .refl file
    refine ⟨hext,htr,fun h => .inr fun t hmem hh e he => ?_,?_⟩
    · rw [← hf]
      exact h.discovered ((hd e).mpr (.inr ⟨t,hmem,hh,he⟩))
    · rintro (h | h)
      · omega
      · refine ⟨hext,fun e he => hext.subset ?_⟩
        obtain hi | ⟨t,hmem,hh,hl⟩ := (hd e).mp he
        · cases hi
        · exact h t hmem hh e hl
  · have hpos := length_pos_iff.mpr hne
    have hone : file.length = 1 := by omega
    obtain ⟨e,rfl⟩ := length_eq_one_iff.mp hone
    obtain ⟨t,rfl⟩ := length_eq_one_iff.mp ht
    have hk := connect_keeps hstart true [t]
    rw [testAll,if_neg hlen]
    exact ⟨hk.file,by rw [connect_test]; rfl,iff_of_true hk (.inl rfl)⟩

/-- A handshake before the relay that discovers one server. -/
def discovering (value : α) : Attempt α := ⟨true, false, [.other, .server value], true, false⟩

/-- The tests of two servers discover what is in the file. -/
theorem servers_kept_pair :
    Keeps ["a", "b"] (testAllServers (initial ["a", "b"]) [discovering "b", discovering "a"]) :=
  (servers_kept_iff ["a","b"] false [] [discovering "b",discovering "a"]
    (cons_ne_nil _ _) rfl).2.2.2.mpr (.inr (by simp [discovering]))

/-- The server that the first test discovered is not in the file after the second. -/
theorem discovered_server_lost :
    (testAllServers (initial ["a", "b"]) [discovering "c", discovering "a"]).discovered =
      ["c", "a"] ∧
      (testAllServers (initial ["a", "b"]) [discovering "c", discovering "a"]).file = ["a", "b"] :=
  ⟨by decide,by decide⟩

end Psiphon.PyClient
