import Psiphon.Lib.Runs
import Psiphon.Ops.Phases

/-!
# Retrying a deployment

A flag is cleared only after the work it stands for. The one mark that is set too early is the name
of a new bucket in the build phase.
-/

namespace Psiphon.Ops

open Hoare

def World.start (net : Network) : World where
  net := net
  saved := net
  sent := fun _ => none
  done := []
  calls := 0

inductive Recovery where
  /-- `deploy` is called again on the same object. -/
  | again
  /-- The last saved database is loaded and locked. -/
  | reload
  deriving DecidableEq, Repr

def Recovery.apply : Recovery → World → World
  | .again, w => w
  | .reload, w => { w with net := { w.saved with isLocked := true } }

/-- An attempt that fails, and the recovery from it. -/
def attempt (env : Outside) (w : World) (recovery : Recovery) : Option World :=
  match deploy env w with
  | .ok _ _ => none
  | .error _ w' => some (recovery.apply w')

/-- If the call that raised was the one for a bucket that was just named, the next attempt is made
on the saved database, or the sponsor was flagged for the website phase anyway. -/
def SafeRecovery (env : Outside) (w : World) (recovery : Recovery) : Prop :=
  match deploy env w with
  | .error (.call (.newSite sponsorId _ _)) _ =>
    recovery = .reload ∨ sponsorId ∈ w.net.deployWebsiteRequiredForSponsors
  | _ => True

theorem safeRecovery_reload (env : Outside) (w : World) : SafeRecovery env w .reload := by
  unfold SafeRecovery
  split
  · exact .inl rfl
  · trivial

theorem Kept.locked {start net : Network} {done : List Work} (h : Kept start net done) :
    Kept start { net with isLocked := true } done :=
  h.clear rfl rfl fun item hi => .inl (by cases item <;> exact hi)

theorem Remembers.start (net : Network) : Remembers net (.start net) :=
  ⟨.refl net _,.refl net _⟩

/-- A failed attempt and a safe recovery forget nothing. -/
theorem Remembers.attempt {env : Outside} {start : Network} {w w' : World} {r : Recovery}
    (h : Remembers start w) (hsa : SafeRecovery env w r)
    (ha : attempt env w r = some w') : Remembers start w' := by
  unfold Ops.attempt at ha
  cases hd : deploy env w with
  | ok _ _ =>
    rw [hd] at ha
    cases ha
  | error failure w₁ =>
    rw [hd] at ha
    cases ha
    obtain ⟨hs,hn⟩ := deploy_remembers.of_error ⟨h,rfl⟩ hd
    cases r with
    | reload => exact ⟨hs.locked,hs⟩
    | again =>
      refine ⟨hn ?_,hs⟩
      rintro sponsorId i bucket rfl
      unfold SafeRecovery at hsa
      rw [hd] at hsa
      exact hsa.resolve_left nofun

/-- Once an attempt returns, after any failed ones with safe recoveries, everything that was flagged
at the start has been processed, and every campaign with a bucket has its website in it. -/
theorem retried_deploy_complete (env : Outside) (net : Network) (recoveries : List Recovery)
    {w w' : World} (hrun : Runs.run (attempt env) (.start net) recoveries = some w)
    (hsafe : Runs.Along (attempt env) (SafeRecovery env) (.start net) recoveries)
    (hok : deploy env w = .ok () w') : Complete net w'.net w'.done := by
  have hw : Remembers net w :=
    Runs.run_invariant_along (fun _ _ _ h hs ha => h.attempt hs ha) (.start net) hsafe hrun
  obtain ⟨⟨hk,-⟩,hc⟩ := deploy_remembers.of_ok ⟨hw,rfl⟩ hok
  exact hk.complete hc

/-! ### A new bucket -/

def newCampaignNetwork : Network :=
  { Network.init with
    isLocked := true
    propagationChannels := (Table.empty _).add ⟨"C", "channel"⟩
    sponsors := (Table.empty _).add {
      id := "S"
      name := "sponsor"
      homePages := ∅
      mobileHomePages := ∅
      campaigns := [⟨"C", .staticDownload, none, none⟩]
      pageViewRegexes := []
      httpsRequestRegexes := []
      useDataFromSponsorId := none }
    deployBuildsRequiredForCampaigns := fun platform =>
      if platform = .windows then [("C", "S")] else [] }

def secondCallRaises : Outside where
  succeeds := fun n => n != 1
  websiteId := fun _ => "site"
  importedAt := 0

theorem retried_deploy_complete_after_reload :
    ∃ w w', Runs.run (attempt secondCallRaises) (World.start newCampaignNetwork) [.reload] =
        some w ∧
      deploy secondCallRaises w = .ok () w' ∧ Complete newCampaignNetwork w'.net w'.done := by
  refine ⟨_,_,rfl,rfl,
    retried_deploy_complete secondCallRaises newCampaignNetwork [.reload] rfl ?_ rfl⟩
  exact ⟨safeRecovery_reload _ _,fun _ _ => trivial⟩

/-- The first attempt names the bucket and fails to load it. The second one, on the same
object, finds the name and builds the campaign without its website. -/
theorem retried_deploy_leaves_bucket_empty :
    ∃ w w', Runs.run (attempt secondCallRaises) (World.start newCampaignNetwork) [.again] =
        some w ∧
      deploy secondCallRaises w = .ok () w' ∧
      w'.net.bucket? "S" 0 = some "psiphon/web/site" ∧
      w'.done = [.upload .windows "S" 0, .build .windows "S" 0, .implementation [],
        .implementation []] ∧
      ¬ Complete newCampaignNetwork w'.net w'.done := by
  refine ⟨_,_,rfl,rfl,rfl,rfl,fun hc => ?_⟩
  rcases hc.sites "S" 0 _ rfl rfl with h | h <;> exact absurd h (by decide)

end Psiphon.Ops
