import Mathlib.Data.List.Rotate
import Psiphon.Lib.Runs

/-!
# Home pages

`OpenHomePages` opens the first home page and puts it last, without looking whether there is one.
-/

namespace Psiphon.Client.HomePages

open List

variable {Url : Type}

inductive Undefined where
  /-- `urls[0]` -/
  | indexesEmpty
  /-- `m_homepages.begin() + 1` -/
  | rotatesEmpty
  deriving DecidableEq

def setHomepage [DecidableEq Url] (homepages : List Url) (homepage : Url) : List Url :=
  if homepage ∈ homepages then homepages else homepages ++ [homepage]

def rotateHomepages : List Url → Except Undefined (List Url)
  | [] => .error .rotatesEmpty
  | first :: rest => .ok (rest ++ [first])

/-- `OpenHomePages`: the page that is opened, if any, and the home pages after it. -/
def openHomePages (homepages : List Url) (defaultHomePage : Option Url)
    (allowSkip skipBrowser : Bool) : Except Undefined (Option Url × List Url) :=
  if !allowSkip || !skipBrowser then do
    let urls := if homepages.length = 0 then homepages ++ defaultHomePage.toList else homepages
    match urls with
    | [] => throw .indexesEmpty
    | url :: _ => return (some url, ← rotateHomepages homepages)
  else return (none, homepages)

structure OpenCall (Url : Type) where
  defaultHomePage : Option Url
  allowSkip : Bool
  skipBrowser : Bool

namespace OpenCall

/-- The call does not skip the browser. -/
def opens (call : OpenCall Url) : Bool := !call.allowSkip || !call.skipBrowser

def run (call : OpenCall Url) (homepages : List Url) : Except Undefined (Option Url × List Url) :=
  openHomePages homepages call.defaultHomePage call.allowSkip call.skipBrowser

end OpenCall

inductive Action (Url : Type) where
  | setHomepage (homepage : Url)
  /-- `ProcessConfig` succeeds. -/
  | processConfig (homepages : List Url)
  | openHomePages (call : OpenCall Url)

def Action.opens : Action Url → Bool
  | .openHomePages call => call.opens
  | _ => false

/-- The home pages after a call, unless it has no meaning. -/
def step [DecidableEq Url] (homepages : List Url) : Action Url → Option (List Url)
  | .setHomepage homepage => some (setHomepage homepages homepage)
  | .processConfig new => some new
  | .openHomePages call =>
    match call.run homepages with
    | .ok (_, homepages) => some homepages
    | .error _ => none

/-- The pages that consecutive calls open, and the home pages after them. -/
def openEach (homepages : List Url) :
    List (OpenCall Url) → Except Undefined (List Url × List Url)
  | [] => .ok ([], homepages)
  | call :: calls => do
    let (url, homepages) ← call.run homepages
    let (urls, homepages) ← openEach homepages calls
    return (url.toList ++ urls, homepages)

section Rotation

variable {homepages : List Url}

theorem run_cons (call : OpenCall Url) (first : Url) (rest : List Url) :
    call.run (first :: rest) = .ok (if call.opens then (some first, rest ++ [first])
      else (none, first :: rest)) := by
  rw [OpenCall.run,openHomePages,← OpenCall.opens]
  cases call.opens <;> rfl

/-- Calls one after the other go round the home pages, but for those that skip the browser. -/
theorem openEach_eq (hne : homepages ≠ []) (calls : List (OpenCall Url)) :
    ∃ urls, openEach homepages calls = .ok (urls, homepages.rotate (calls.countP OpenCall.opens)) ∧
      urls.length = calls.countP OpenCall.opens ∧
      ∀ k < calls.countP OpenCall.opens, urls[k]? = homepages[k % homepages.length]? := by
  induction calls generalizing homepages with
  | nil => exact ⟨[],by simp [openEach],rfl,by simp⟩
  | cons call calls ih =>
    cases homepages with
    | nil => exact absurd rfl hne
    | cons first rest =>
      rw [openEach,run_cons]
      cases ho : call.opens with
      | false =>
        obtain ⟨urls,hrun,hlen,hu⟩ := ih hne
        rw [countP_cons_of_neg (by simp [ho])]
        refine ⟨urls,?_,hlen,hu⟩
        show (openEach (first :: rest) calls >>= _) = _
        rw [hrun]
        rfl
      | true =>
        obtain ⟨urls,hrun,hlen,hu⟩ := @ih (rest ++ [first]) (by simp)
        rw [countP_cons_of_pos ho]
        refine ⟨first :: urls,?_,by simp [hlen],fun k hk => ?_⟩
        · rw [rotate_cons_succ]
          show (openEach (rest ++ [first]) calls >>= _) = _
          rw [hrun]
          rfl
        · cases k with
          | zero => simp
          | succ k =>
            -- the page that was opened comes last, one place before where it was
            have hn : k % (rest.length + 1) < (first :: rest).length := Nat.mod_lt _ (by simp)
            have hp := List.getElem?_rotate (l := first :: rest) (n := 1) hn
            rw [List.getElem?_cons_succ,hu k (Nat.lt_of_succ_lt_succ hk)]
            simpa [rotate_cons_succ,Nat.mod_add_mod] using hp

theorem openEach_perm (hne : homepages ≠ []) {calls : List (OpenCall Url)}
    (hl : calls.countP OpenCall.opens = homepages.length) :
    ∃ urls, openEach homepages calls = .ok (urls, homepages) ∧ urls.Perm homepages := by
  obtain ⟨urls,hr,hurls,hp⟩ := openEach_eq hne calls
  have heq : urls = homepages := by
    refine ext_getElem? fun k => ?_
    by_cases hk : k < homepages.length
    · rw [hp k (hl ▸ hk),Nat.mod_eq_of_lt hk]
    · rw [List.getElem?_eq_none (by omega),List.getElem?_eq_none (by omega)]
  rw [hl,rotate_length] at hr
  exact ⟨urls,hr,by rw [heq]⟩

end Rotation

theorem step_isSome_iff [DecidableEq Url] (homepages : List Url) (a : Action Url) :
    (step homepages a).isSome ↔ (a.opens = true → homepages ≠ []) := by
  cases a with
  | setHomepage homepage => simp [step,Action.opens]
  | processConfig new => simp [step,Action.opens]
  | openHomePages call =>
    rw [step,Action.opens]
    cases homepages with
    | cons first rest =>
      rw [run_cons]
      exact iff_of_true rfl fun _ => cons_ne_nil first rest
    | nil =>
      rw [OpenCall.run,openHomePages,← OpenCall.opens]
      cases call.opens with
      | false => exact iff_of_true rfl fun h => absurd h Bool.false_ne_true
      | true => cases call.defaultHomePage <;> exact iff_of_false Bool.false_ne_true (by simp)

/-- A sequence of calls has a meaning exactly if there are home pages whenever one is opened. Then
they are opened in turn, by the calls that do not skip the browser. -/
theorem home_pages_open_in_turn_iff [DecidableEq Url] (actions : List (Action Url)) :
    ((Runs.run step [] actions).isSome ↔ Runs.Along step
      (fun homepages action => action.opens = true → homepages ≠ []) [] actions) ∧
    ∀ homepages : List Url, homepages ≠ [] → ∀ calls : List (OpenCall Url),
      (∃ urls, openEach homepages calls =
          .ok (urls, homepages.rotate (calls.countP OpenCall.opens)) ∧
        ∀ k < calls.countP OpenCall.opens, urls[k]? = homepages[k % homepages.length]?) ∧
      (calls.countP OpenCall.opens = homepages.length →
        ∃ urls, openEach homepages calls = .ok (urls, homepages) ∧ urls.Perm homepages) := by
  refine ⟨?_,fun homepages hne calls => ⟨?_,fun hl => openEach_perm hne hl⟩⟩
  · rw [Runs.run_isSome_iff]
    simp only [step_isSome_iff]
  · obtain ⟨urls,hr,-,hp⟩ := openEach_eq hne calls
    exact ⟨urls,hr,hp⟩

/-- The second call skips the browser. -/
def fourCalls : List (OpenCall ℕ) :=
  [⟨none, false, false⟩, ⟨none, true, true⟩, ⟨none, true, false⟩, ⟨some 0, false, true⟩]

theorem home_pages_open_in_turn_three :
    (Runs.run step [] [.processConfig [1, 2, 3], .openHomePages ⟨none, true, false⟩]).isSome ∧
      ∃ urls, openEach [2, 3, 1] fourCalls = .ok (urls, [2, 3, 1]) ∧ urls.Perm [2, 3, 1] := by
  obtain ⟨hr,ht⟩ := home_pages_open_in_turn_iff
    ([.processConfig [1,2,3],.openHomePages ⟨none,true,false⟩] : List (Action ℕ))
  exact ⟨hr.mpr (by decide),(ht [2,3,1] (by decide) _).2 rfl⟩

/-- A handshake without home pages, and the user asks for one: the vector is indexed or rotated. -/
theorem home_pages_empty_undefined :
    openHomePages ([] : List ℕ) none true false = .error .indexesEmpty ∧
      openHomePages [] (some 0) false false = .error .rotatesEmpty ∧
      Runs.run step [] [.processConfig [], .openHomePages ⟨some 0, false, false⟩] = none := by
  decide

end Psiphon.Client.HomePages
