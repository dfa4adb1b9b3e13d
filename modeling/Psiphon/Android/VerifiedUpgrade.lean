import Psiphon.Android.UpgradeManager

/-!
# What the verified upgrade file holds

All calls share the name of the unverified file; one that opens it may empty what another verified.
-/

namespace Psiphon.Android

open List Option Point
open Files (Directory Stream)
open Json (Bytes ascii)
open Runs (run Along run_invariant run_invariant_along)

variable {libs : Libraries} {files files' : Directory UpgradeFile UInt8}

/-! ### What is verified -/

def Signed (libs : Libraries) (bytes : Bytes) : Prop :=
  ∃ signature, libs.verify (Base64.encode bytes) signature = true

theorem signed_of_returns {package : Document} {chunks : List Bytes}
    (h : extractAndVerifyData libs package = (chunks, .returns)) : Signed libs chunks.flatten := by
  rw [extractAndVerifyData] at h
  split at h
  · split at h
    · rename_i e hfields
      obtain ⟨rfl,he⟩ := Prod.mk.inj h
      split at he
      · rw [Extraction.finish] at he
        split at he
        · split at he
          · cases he
          · split at he
            · cases he
            · split at he
              · exact ⟨_,‹_›⟩
              · cases he
        · cases he
      · cases he
    · cases h
  · cases h

/-- A call that will return normally writes bytes with a good signature. -/
def Point.Promises (libs : Libraries) : Point → Prop
  | .createForWriting chunks .returns => Signed libs chunks.flatten
  | .extracting _ chunks written .returns => Signed libs (written ++ chunks.flatten)
  | _ => True

variable {failure : Option ℕ}

namespace Point

def writing : Point → Bool
  | .extracting .. => true
  | .rename _ => true
  | _ => false

def opening : Point → Bool
  | .createForWriting .. => true
  | _ => false

def idle (p : Point) : Bool := !p.writing && !p.opening

variable {p : Point}

theorem not_writing_of_idle (h : p.idle = true) : p.writing = false := by
  rw [idle,Bool.and_eq_true,Bool.not_eq_true'] at h
  exact h.1

def Holds (files : Directory UpgradeFile UInt8) (verified : List Bytes) : Point → Prop
  | .extracting stream _ written _ =>
    files.entry .unverified = some stream.node ∧ files.content stream.node = written ∧
      stream.position = written.length
  | .rename written => files.read .unverified = some written ∧ written ∈ verified
  | _ => True

theorem promises_of_idle (h : p.idle = true) : p.Promises libs := by
  cases p with
  | createForWriting => cases h
  | extracting => cases h
  | _ => trivial

theorem holds_of_not_writing (h : p.writing = false) (v : List Bytes) : p.Holds files v := by
  cases p with
  | extracting => cases h
  | rename => cases h
  | _ => trivial

structure Quiet (files files' : Directory UpgradeFile UInt8) : Prop where
  entry : files'.entry .unverified = files.entry .unverified
  content : ∀ i, files.entry .unverified = some i → files'.content i = files.content i
  verified : files'.read .verified = files.read .verified ∨ files'.read .verified = none

theorem Quiet.refl : Quiet files files := ⟨rfl,fun _ _ => rfl,.inl rfl⟩

theorem Quiet.delete {n : UpgradeFile} (h : n ≠ .unverified) : Quiet files (files.delete n) where
  entry := files.entry_delete_of_ne h.symm
  content _ _ := rfl
  verified := by
    by_cases hn : n = .verified
    · exact .inr (hn ▸ Directory.read_delete_self)
    · exact .inl (Directory.read_delete_of_ne (Ne.symm hn))

theorem Quiet.download (package : Bytes) : Quiet files (files.create .downloaded package) where
  entry := Directory.entry_create_of_ne (by decide) package
  content _ hi := Directory.content_create_of_lt (files.entry_lt _ _ hi) package
  verified := .inl (Directory.read_create_of_ne (by decide) package)

theorem Holds.of_quiet {v v' : List Bytes} (h : p.Holds files v)
    (hq : Quiet files files') (hs : v ⊆ v') : p.Holds files' v' := by
  cases p with
  | extracting stream chunks written outcome =>
    obtain ⟨he,hc,hp⟩ := h
    exact ⟨hq.entry.trans he,(hq.content _ he).trans hc,hp⟩
  | rename written =>
    obtain ⟨hr,hm⟩ := h
    exact ⟨(Directory.read_congr hq.entry hq.content).trans hr,hs hm⟩
  | _ => trivial

inductive Effect (libs : Libraries) (files files' : Directory UpgradeFile UInt8) (p p' : Point) :
    Prop where
  | quiet (hfiles : Quiet files files') (hp : p.writing = false) (hp' : p'.idle = true)
  | unzip (package : Document) (hp : p = .openUnzipStream) (hfiles : files' = files)
    (hp' : p' = .createForWriting (extractAndVerifyData libs package).1
      (extractAndVerifyData libs package).2)
  | create (chunks : List Bytes) (outcome : Outcome) (hp : p = .createForWriting chunks outcome)
    (hfiles : files' = (files.openTruncate .unverified).1)
    (hp' : p' = .extracting (files.openTruncate .unverified).2 chunks [] outcome)
  | write (stream : Stream) (chunk : Bytes) (chunks : List Bytes) (written : Bytes)
    (outcome : Outcome) (hp : p = .extracting stream (chunk :: chunks) written outcome)
    (hfiles : files' = (files.write stream chunk).1)
    (hp' : p' = .extracting (files.write stream chunk).2 chunks (written ++ chunk) outcome)
  | failedWrite (stream : Stream) (chunk : Bytes) (chunks : List Bytes) (written : Bytes)
    (outcome : Outcome) (hp : p = .extracting stream chunks written outcome)
    (hfiles : files' = (files.write stream chunk).1) (hp' : p'.idle = true)
  | returns (stream : Stream) (written : Bytes) (hp : p = .extracting stream [] written .returns)
    (hfiles : files' = files) (hp' : p' = .rename written)
  | fails (stream : Stream) (written : Bytes) (outcome : Outcome)
    (hp : p = .extracting stream [] written outcome) (hfiles : files' = files)
    (hp' : p'.idle = true)
  | rename (written : Bytes) (hp : p = .rename written)
    (hfiles : files.rename .unverified .verified = some files' ∨ files' = files)
    (hp' : p'.idle = true)

theorem effect_next {p p' : Point} (h : p.next libs files failure = some (files', p')) :
    Effect libs files files' p p' := by
  cases p with
  | start =>
    cases h
    refine .quiet .refl rfl ?_
    split <;> rfl
  | openUnzipStream =>
    simp only [next] at h
    split at h
    · cases h
      exact .unzip _ rfl rfl rfl
    · cases h
      exact .quiet .refl rfl rfl
  | createForWriting chunks o =>
    cases failure with
    | none =>
      cases h
      exact .create chunks o rfl rfl rfl
    | some n =>
      cases h
      exact .quiet .refl rfl rfl
  | extracting stream rest written o =>
    cases rest with
    | nil =>
      cases o with
      | returns =>
        cases h
        exact .returns stream written rfl rfl rfl
      | throws =>
        cases h
        exact .fails stream written _ rfl rfl rfl
      | uncaught =>
        cases h
        exact .fails stream written _ rfl rfl rfl
    | cons c chunks =>
      cases failure with
      | none =>
        cases h
        exact .write stream c chunks written o rfl rfl rfl
      | some n =>
        cases h
        exact .failedWrite stream (c.take n) _ written o rfl rfl rfl
  | rename written =>
    simp only [next] at h
    split at h
    · rename_i renamed hr
      cases h
      exact .rename written rfl (.inl hr) rfl
    · cases h
      exact .rename written rfl (.inr rfl) rfl
  | deleteDownloaded success =>
    cases h
    refine .quiet (.delete (by decide)) rfl ?_
    split <;> rfl
  | findVerified =>
    cases h
    refine .quiet .refl rfl ?_
    split <;> rfl
  | getPackageArchiveInfo =>
    simp only [next] at h
    split at h <;> cases h
    · exact .quiet .refl rfl rfl
    · exact .quiet .refl rfl rfl
    · refine .quiet .refl rfl ?_
      split <;> rfl
  | deleteVerified =>
    cases h
    exact .quiet (.delete (by decide)) rfl rfl
  | returned => cases h
  | ended => cases h

theorem Promises.next {p p' : Point} (hp : p.Promises libs)
    (h : p.next libs files failure = some (files', p')) : p'.Promises libs := by
  cases effect_next h with
  | unzip package _ _ hp' =>
    subst hp'
    cases ho : (extractAndVerifyData libs package).2 with
    | returns => exact signed_of_returns (Prod.ext rfl ho)
    | throws => trivial
    | uncaught => trivial
  | create chunks o hc _ hp' =>
    subst hc hp'
    cases o with
    | returns => exact hp
    | throws => trivial
    | uncaught => trivial
  | write stream chunk chunks written o hw _ hp' =>
    subst hw hp'
    cases o with
    | returns =>
      rw [Promises,flatten_cons,← append_assoc] at hp
      exact hp
    | throws => trivial
    | uncaught => trivial
  | returns stream written _ _ hp' =>
    subst hp'
    trivial
  | quiet _ _ hp' => exact promises_of_idle hp'
  | failedWrite _ _ _ _ _ _ _ hp' => exact promises_of_idle hp'
  | fails _ _ _ _ _ hp' => exact promises_of_idle hp'
  | rename _ _ _ hp' => exact promises_of_idle hp'

theorem Promises.verifies (hp : p.Promises libs) : ∀ bytes ∈ p.verifies, Signed libs bytes := by
  intro bytes hb
  rw [verifies.eq_def] at hb
  split at hb
  · obtain rfl := mem_singleton.mp hb
    rw [Promises,flatten_nil,append_nil] at hp
    exact hp
  · cases hb

end Point

namespace Device

variable {s t : Device}

/-- The verified file, if there is one, is what some call of `extractAndVerifyData` had written
when it returned normally. -/
def OnlyVerified (s : Device) : Prop :=
  ∀ content, s.files.read .verified = some content → content ∈ s.verified

/-- A call opens the unverified file only when no other call is between its own `createForWriting`
and its `rename`. -/
def OpensAlone (s : Device) : Action → Prop
  | .step i _ =>
    (s.calls[i]?).any (fun c => c.point.opening) = true → ∀ c ∈ s.calls, c.point.writing = false
  | _ => True

instance OpensAlone.decidable (s : Device) : ∀ a, Decidable (s.OpensAlone a)
  | .step _ _ => inferInstanceAs (Decidable (_ → _))
  | .call _ => isTrue trivial
  | .download _ => isTrue trivial
  | .die _ => isTrue trivial

structure Exclusive (s : Device) : Prop where
  verified : s.OnlyVerified
  alone : ∀ (i j : ℕ) (c d : Call), s.calls[i]? = some c → s.calls[j]? = some d →
    c.point.writing = true → d.point.writing = true → i = j
  holds : ∀ (i : ℕ) (c : Call), s.calls[i]? = some c → c.point.Holds s.files s.verified

variable {calls : List Call}

theorem getElem?_set_eq_some {i j : ℕ} {c d : Call} (h : (calls.set i c)[j]? = some d) :
    j = i ∧ d = c ∨ j ≠ i ∧ calls[j]? = some d := by
  by_cases hij : i = j
  · subst hij
    have hd := List.getElem?_set_self' (a := c) ▸ h
    obtain ⟨_,_,rfl⟩ := map_eq_some_iff.mp hd
    exact .inl ⟨rfl,rfl⟩
  · rw [List.getElem?_set_ne hij] at h
    exact .inr ⟨.symm hij,h⟩

/-- When no other call needs the unverified file, only the call that takes the step matters. -/
theorem Exclusive.of_alone {i : ℕ} {verified : List Bytes} {c : Call}
    (hv : OnlyVerified ⟨files',calls.set i c,verified⟩)
    (ho : ∀ (j : ℕ) (d : Call), j ≠ i → calls[j]? = some d → d.point.writing = false)
    (hh : c.point.Holds files' verified) : Exclusive ⟨files',calls.set i c,verified⟩ where
  verified := hv
  alone j k d e hj hk hd he := by
    obtain ⟨rfl,-⟩ | ⟨hji,hj⟩ := getElem?_set_eq_some hj
    · obtain ⟨rfl,-⟩ | ⟨hki,hk⟩ := getElem?_set_eq_some hk
      · rfl
      · exact absurd ((ho k e hki hk).symm.trans he) Bool.false_ne_true
    · exact absurd ((ho j d hji hj).symm.trans hd) Bool.false_ne_true
  holds j d hj := by
    obtain ⟨rfl,rfl⟩ | ⟨hji,hj⟩ := getElem?_set_eq_some hj
    · exact hh
    · exact holds_of_not_writing (ho j d hji hj) _

theorem Exclusive.quiet (h : s.Exclusive) (hq : Point.Quiet s.files files')
    (hca : ∀ (j : ℕ) (d : Call), calls[j]? = some d →
      d.point.writing = false ∨ s.calls[j]? = some d) {verified : List Bytes}
    (hsub : s.verified ⊆ verified) :
    Exclusive ⟨files',calls,verified⟩ where
  verified content hco := by
    obtain hs | hn := hq.verified
    · exact hsub (h.verified content (hs ▸ hco))
    · cases hn.symm.trans hco
  alone i j c d hi hj hc hd := by
    obtain hc' | hi := hca i c hi
    · exact absurd (hc'.symm.trans hc) Bool.false_ne_true
    · obtain hd' | hj := hca j d hj
      · exact absurd (hd'.symm.trans hd) Bool.false_ne_true
      · exact h.alone i j c d hi hj hc hd
  holds i c hi := by
    obtain hc | hi := hca i c hi
    · exact holds_of_not_writing hc _
    · exact (h.holds i c hi).of_quiet hq hsub

theorem Exclusive.others (h : s.Exclusive) {i : ℕ} {c : Call} (hi : s.calls[i]? = some c)
    (hc : c.point.writing = true) (j : ℕ) (d : Call) (hj : j ≠ i) (hd : s.calls[j]? = some d) :
    d.point.writing = false := by
  by_contra hw
  exact hj (h.alone j i d c hd hi (Bool.eq_true_of_not_eq_false hw) hc)

theorem Exclusive.stepCall (h : s.Exclusive) {i : ℕ} {c : Call} (hi : s.calls[i]? = some c)
    (ha : s.OpensAlone (.step i failure)) (hst : s.stepCall libs i failure c = some t) :
    t.Exclusive := by
  obtain ⟨⟨files',p'⟩,hn,rfl⟩ := map_eq_some_iff.mp hst
  have hsub : s.verified ⊆ s.verified ++ c.point.verifies := subset_append_left _ _
  -- When the file stays what it was, so does the claim about it.
  have hk : files'.read .verified = s.files.read .verified →
      OnlyVerified ⟨files',s.calls.set i ⟨c.process,p'⟩,s.verified ++ c.point.verifies⟩ :=
    fun hs content hc => hsub (h.verified content (hs ▸ hc))
  have hh := h.holds i c hi
  cases effect_next hn with
  | quiet hf hp hp' =>
    refine h.quiet hf (fun j d hj => ?_) hsub
    obtain ⟨-,rfl⟩ | ⟨-,hj⟩ := getElem?_set_eq_some hj
    · exact .inl (not_writing_of_idle hp')
    · exact .inr hj
  | unzip package hp hf hp' =>
    subst hf hp'
    refine h.quiet .refl (fun j d hj => ?_) hsub
    obtain ⟨-,rfl⟩ | ⟨-,hj⟩ := getElem?_set_eq_some hj
    · exact .inl rfl
    · exact .inr hj
  | create chunks o hp hf hp' =>
    subst hf hp'
    refine .of_alone (hk (Directory.read_openTruncate_of_ne (by decide))) ?_ ?_
    · have ho : (s.calls[i]?).any (fun c => c.point.opening) = true := by
        rw [hi,any_some,hp,opening]
      exact fun j d _ hj => ha ho d (mem_of_getElem? hj)
    · exact s.files.openTruncate_spec .unverified
  | write stream chunk chunks written o hp hf hp' =>
    subst hf hp'
    rw [hp] at hh
    obtain ⟨he,hc,hpo⟩ := hh
    refine .of_alone (hk (Directory.read_write_of_ne chunk he (by decide)))
      (h.others hi (hp ▸ rfl)) ⟨he,?_,?_⟩
    · refine (Directory.content_write chunk (hc ▸ hpo)).trans ?_
      rw [hc]
    · show stream.position + chunk.length = _
      rw [hpo,length_append]
  | failedWrite stream chunk chunks written o hp hf hp' =>
    subst hf
    rw [hp] at hh
    exact .of_alone (hk (Directory.read_write_of_ne chunk hh.1 (by decide)))
      (h.others hi (hp ▸ rfl)) (holds_of_not_writing (not_writing_of_idle hp') _)
  | returns stream written hp hf hp' =>
    subst hf hp'
    rw [hp] at hh
    obtain ⟨he,hc,-⟩ := hh
    refine .of_alone (hk rfl) (h.others hi (hp ▸ rfl)) ⟨?_,mem_append_right _ ?_⟩
    · rw [Directory.read,he,map_some,hc]
    · rw [hp]
      exact mem_singleton_self written
  | fails stream written o hp hf hp' =>
    subst hf
    exact .of_alone (hk rfl) (h.others hi (hp ▸ rfl))
      (holds_of_not_writing (not_writing_of_idle hp') _)
  | rename written hp hf hp' =>
    rw [hp] at hh
    obtain ⟨hre,hm⟩ := hh
    refine .of_alone ?_ (h.others hi (hp ▸ rfl)) (holds_of_not_writing (not_writing_of_idle hp') _)
    obtain hr | rfl := hf
    · intro content hc
      have hs := (Directory.read_rename hr).trans hre
      obtain rfl := Option.some.inj (hs.symm.trans hc)
      exact hsub hm
    · exact hk rfl

theorem Exclusive.step (s : Device) (a : Action) (t : Device) (h : s.Exclusive)
    (ha : s.OpensAlone a) (hs : s.step libs a = some t) : t.Exclusive := by
  cases a with
  | call process =>
    cases hs
    refine h.quiet .refl (fun j d hj => ?_) (List.Subset.refl _)
    obtain hlt | hge := Nat.lt_or_ge j s.calls.length
    · exact .inr ((List.getElem?_append_left hlt).symm.trans hj)
    · rw [List.getElem?_append_right hge] at hj
      obtain rfl := mem_singleton.mp (mem_of_getElem? hj)
      exact .inl rfl
  | step i failure =>
    obtain ⟨c,hi,hc⟩ := bind_eq_some_iff.mp hs
    exact h.stepCall hi ha hc
  | download package =>
    cases hs
    exact h.quiet (.download package) (fun _ _ hj => .inr hj) (List.Subset.refl _)
  | die process =>
    cases hs
    refine h.quiet .refl (fun j d hj => ?_) (List.Subset.refl _)
    rw [List.getElem?_map,map_eq_some_iff] at hj
    obtain ⟨c,hj,rfl⟩ := hj
    split
    · exact .inl rfl
    · exact .inr hj

theorem exclusive_fresh : fresh.Exclusive where
  verified _ h := by cases h
  alone _ _ _ _ h := by cases h
  holds _ _ h := by cases h

/-- In every run in which no call opens the unverified file while another needs it, the verified
file only ever holds verified bytes. -/
theorem onlyVerified_of_opensAlone {actions : List Action}
    (halone : Along (step libs) OpensAlone fresh actions)
    (hrun : run (step libs) fresh actions = some s) : s.OnlyVerified :=
  (run_invariant_along .step exclusive_fresh halone hrun).verified

structure Honest (libs : Libraries) (s : Device) : Prop where
  calls : ∀ c ∈ s.calls, c.point.Promises libs
  verified : ∀ bytes ∈ s.verified, Signed libs bytes

theorem Honest.step (s : Device) (a : Action) (t : Device) (h : s.Honest libs)
    (hs : s.step libs a = some t) : t.Honest libs := by
  cases a with
  | call process =>
    cases hs
    refine ⟨fun c hc => ?_,h.verified⟩
    obtain hc | hc := mem_append.mp hc
    · exact h.calls c hc
    · rw [mem_singleton.mp hc]
      trivial
  | step i failure =>
    obtain ⟨c,hi,hca⟩ := bind_eq_some_iff.mp hs
    obtain ⟨⟨files',p'⟩,hn,rfl⟩ := map_eq_some_iff.mp hca
    have hc := h.calls c (mem_of_getElem? hi)
    refine ⟨fun d hd => ?_,fun bytes hb => ?_⟩
    · obtain hd | rfl := mem_or_eq_of_mem_set hd
      · exact h.calls d hd
      · exact hc.next hn
    · obtain hb | hb := mem_append.mp hb
      · exact h.verified bytes hb
      · exact hc.verifies bytes hb
  | download package =>
    cases hs
    exact ⟨h.calls,h.verified⟩
  | die process =>
    cases hs
    refine ⟨fun c hc => ?_,h.verified⟩
    obtain ⟨d,hd,rfl⟩ := mem_map.mp hc
    split
    · trivial
    · exact h.calls d hd

/-- In every run, what counts as verified has a good signature. -/
theorem signed_of_mem_verified {a : List Action}
    (hr : run (step libs) fresh a = some s) : ∀ bytes ∈ s.verified, Signed libs bytes :=
  (run_invariant (I := Honest libs) .step ⟨fun _ h => (by cases h),fun _ h => (by cases h)⟩
    hr).verified

def trustingLibraries : Libraries where
  createParser package := some ⟨true, [(ascii "data", .string package),
    (ascii "signature", .string []), (ascii "signingPublicKeyDigest", .string [])], true⟩
  readBinaryValue text := ([text], true)
  publicKeyDigest := []
  decodeSignature := some
  verify _ _ := true
  archiveVersionCode _ := some 2
  currentVersionCode := some 1

def extraction (i : ℕ) : List Action := List.replicate 5 (.step i none)

def oneAfterAnother : List Action :=
  .download [7] :: .call .tunnelService :: extraction 0 ++
    [.step 0 none, .step 0 none, .call .upgradeChecker, .step 1 none]

theorem signed_oneAfterAnother : ∃ s : Device, run (step trustingLibraries) fresh oneAfterAnother =
    some s ∧ s.verified = [[7]] ∧ ∀ bytes ∈ s.verified, Signed trustingLibraries bytes :=
  ⟨_,rfl,rfl,signed_of_mem_verified (a := oneAfterAnother) rfl⟩

theorem onlyVerified_oneAfterAnother : ∃ s : Device,
    run (step trustingLibraries) fresh oneAfterAnother = some s ∧
      s.files.read .verified = some [7] ∧ s.OnlyVerified := by
  have ha : Along (step trustingLibraries) OpensAlone fresh oneAfterAnother := by
    decide +kernel
  exact ⟨_,(some_get rfl).symm,rfl,onlyVerified_of_opensAlone ha (some_get _).symm⟩

/-- One call has verified what it wrote when the other opens the file, and then renames the file
that the other has emptied. The other process dies. -/
def overlap : List Action :=
  .download [7] :: .call .tunnelService :: .call .upgradeChecker :: extraction 0 ++
    [.step 1 none, .step 1 none, .step 1 none, .step 0 none, .die .upgradeChecker]

theorem not_onlyVerified_overlap : ∃ s : Device,
    run (step trustingLibraries) fresh overlap = some s ∧
      s.files.read .verified = some [] ∧ s.verified = [[7]] ∧ ¬ s.OnlyVerified := by
  refine ⟨_,(some_get rfl).symm,rfl,rfl,fun h => ?_⟩
  exact absurd (h [] rfl) (by decide)

end Device

end Psiphon.Android
