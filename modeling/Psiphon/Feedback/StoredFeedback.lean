import Psiphon.Feedback.MailDecryptor
import Psiphon.Feedback.RedactionSound
import Psiphon.Lib.Hoare

/-!
# What the services store

`transform` keeps a dict that is not empty such, however it ends.
-/

namespace Psiphon.Feedback

open Hoare (Triple Keeps)
open Fallible

/-! ### The transformation keeps a dict -/

def Obj.Filled (obj : Obj) : Prop := obj.isDict = true ∧ obj.truthy = true

namespace Obj

variable {obj new value : Obj}

theorem isDict_setItem {key : Key} (hd : obj.isDict = true) (h : obj.setItem key value = .ok new) :
    new.isDict = true := by
  cases obj with
  | dict entries =>
    cases h
    rfl
  | _ => cases hd

theorem Filled.setItem {key : Key} (hf : obj.Filled) (h : obj.setItem key value = .ok new) :
    new.Filled :=
  ⟨isDict_setItem hf.1 h,truthy_setItem h⟩

theorem Filled.setAt {path : Path} (hf : obj.Filled) (h : obj.setAt path value = .ok new) :
    new.Filled := by
  match path with
  | [] => exact Except.ok.inj h ▸ hf
  | [key] => exact hf.setItem h
  | key :: next :: path =>
    obtain ⟨t,-,h⟩ := bind_eq_ok_iff.mp h
    obtain ⟨t',-,h⟩ := bind_eq_ok_iff.mp h
    exact hf.setItem h

theorem Filled.assign {path : Path} (hf : obj.Filled)
    (h : obj.assignValueToObjAtPath path value = .ok new) : new.Filled := by
  rw [assignValueToObjAtPath] at h
  split at h
  · exact hf.setAt h
  · exact Except.ok.inj h ▸ hf

theorem mem_insert_self (key : Key) (value : Obj) (entries : List (Key × Obj)) :
    (key, value) ∈ insert key value entries := by
  induction entries with
  | nil => exact List.mem_singleton_self _
  | cons entry entries ih =>
    rw [insert]
    split
    · rename_i hk
      exact hk ▸ (.head _)
    · exact List.mem_cons_of_mem _ ih

theorem Filled.rename_here {obj new : Obj} {old nk : Key} (hf : obj.Filled) (hne : nk ≠ old)
    (h : (do
      let value ← obj.getItem old
      let t ← obj.setItem nk value
      t.delItem old) = .ok new) : new.Filled := by
  obtain ⟨value,-,h⟩ := bind_eq_ok_iff.mp h
  obtain ⟨t,ht,h⟩ := bind_eq_ok_iff.mp h
  cases obj with
  | dict entries =>
    cases ht
    rw [delItem] at h
    split at h
    · cases h
      have hm : (nk, value) ∈ (insert nk value entries).filter fun entry => entry.1 ≠ old :=
        List.mem_filter.mpr ⟨mem_insert_self ..,by simpa using hne⟩
      refine ⟨rfl,?_⟩
      rw [truthy,List.isEmpty_eq_false_iff.mpr (List.ne_nil_of_mem hm)]
      rfl
    · cases h
  | _ => cases hf.1

theorem Filled.rename {obj new : Obj} {path : Path} {nk : Key} (hf : obj.Filled)
    (hne : path.getLast? ≠ some nk)
    (h : obj.renameKeyInObjAtPath path nk = .ok new) : new.Filled := by
  rw [renameKeyInObjAtPath] at h
  split at h
  · rename_i old _ ho
    cases hp : path.dropLast with
    | nil =>
      rw [hp,modifyAt] at h
      refine hf.rename_here (fun hs => hne ?_) h
      rw [ho,hs]
    | cons key rest =>
      rw [hp] at h
      obtain ⟨t,-,h⟩ := bind_eq_ok_iff.mp h
      obtain ⟨t',-,h⟩ := bind_eq_ok_iff.mp h
      exact hf.setItem h
  · exact Except.ok.inj h ▸ hf

end Obj

section Transform

variable (libs : Libraries)

end Transform

/-! ### One attachment or item -/

variable (libs : Libraries)

def Checked (load : Text → Raises Obj) (attachment : Text) (info : Obj) : Prop :=
  ∃ plaintext loaded converted, readAttachment libs attachment = .ok plaintext ∧
    load (strip plaintext) = .ok loaded ∧
    convertPsinetValues libs.psinet loaded = .ok converted ∧
    isDiagnosticInfoSane libs converted = .ok true ∧ transform libs converted = .ok () info

variable {libs}

variable {info : Obj} {attachment : Text} {load : Text → Raises Obj}

/-- The stages in their order, each with what it leaves in the variable. -/
theorem examine_eq (load : Text → Raises Obj) (p : Text) (start : Obj) : examine libs load p start =
      match load (strip p) with
      | .error e => .error e (.str .byte (strip p))
      | .ok l =>
        match convertPsinetValues libs.psinet l with
        | .error e => .error e l
        | .ok c =>
          match isDiagnosticInfoSane libs c with
          | .error e => .error e c
          | .ok false => .ok false c
          | .ok true =>
            match transform libs c with
            | .ok () info => .ok true info
            | .error e info => .error e info := by
  simp only [examine,edit,reading,bind,EStateM.bind,set,pure]
  cases load (strip p) with
  | error e => rfl
  | ok l =>
    dsimp only
    cases convertPsinetValues libs.psinet l with
    | error e => rfl
    | ok c =>
      dsimp only
      rcases isDiagnosticInfoSane libs c with e | (_ | _)
      · rfl
      · rfl
      · simp only [↓reduceIte,EStateM.bind]
        cases transform libs c with
        | ok a new => rfl
        | error e new => rfl

variable {mail : Mail}

/-- The stages after the decryption at which an attachment is abandoned, with the exception, if
there is one, and the value that `diagnostic_info` then has. -/
inductive Leaves (libs : Libraries) (attachment : Text) : Option Exn → Obj → Prop where
  | load {plaintext : Text} {e : Exn} (hread : readAttachment libs attachment = .ok plaintext)
      (hload : loadYaml libs (strip plaintext) = .error e) :
      Leaves libs attachment (some e) (.str .byte (strip plaintext))
  | convert {plaintext : Text} {loaded : Obj} {e : Exn}
      (hread : readAttachment libs attachment = .ok plaintext)
      (hload : loadYaml libs (strip plaintext) = .ok loaded)
      (hconvert : convertPsinetValues libs.psinet loaded = .error e) :
      Leaves libs attachment (some e) loaded
  | check {plaintext : Text} {loaded converted : Obj} {e : Exn}
      (hread : readAttachment libs attachment = .ok plaintext)
      (hload : loadYaml libs (strip plaintext) = .ok loaded)
      (hconvert : convertPsinetValues libs.psinet loaded = .ok converted)
      (hsane : isDiagnosticInfoSane libs converted = .error e) :
      Leaves libs attachment (some e) converted
  | reject {plaintext : Text} {loaded converted : Obj}
      (hread : readAttachment libs attachment = .ok plaintext)
      (hload : loadYaml libs (strip plaintext) = .ok loaded)
      (hconvert : convertPsinetValues libs.psinet loaded = .ok converted)
      (hsane : isDiagnosticInfoSane libs converted = .ok false) :
      Leaves libs attachment none converted
  | transform {plaintext : Text} {loaded converted info : Obj} {e : Exn}
      (hread : readAttachment libs attachment = .ok plaintext)
      (hload : loadYaml libs (strip plaintext) = .ok loaded)
      (hconvert : convertPsinetValues libs.psinet loaded = .ok converted)
      (hsane : isDiagnosticInfoSane libs converted = .ok true)
      (htransform : Feedback.transform libs converted = .error e info) :
      Leaves libs attachment (some e) info

/-- The attachment cannot be decoded or decrypted, and assigns nothing. -/
def Unread (libs : Libraries) (attachment : Text) : Prop :=
  ∃ e, readAttachment libs attachment = .error e

/-- A stage of the attachment raises. -/
def Throws (libs : Libraries) (attachment : Text) (e : Exn) : Prop :=
  readAttachment libs attachment = .error e ∨ ∃ info, Leaves libs attachment (some e) info

/-- The exceptions that the mail service catches. The handler of the decryptor's own formats the
subject. -/
def Caught (mail : Mail) (e : Exn) : Prop :=
  e = .valueError ∨ e = .typeError ∨ e = .decryptorException ∧ formatsSubject mail = true

theorem handle_eq_none_iff {e : Exn} : handle mail e = none ↔ Caught mail e := by
  cases e <;> simp [handle,Caught]

theorem leaves_iff_examine {exception : Option Exn} : Leaves libs attachment exception info ↔
    ∃ p, readAttachment libs attachment = .ok p ∧ examine libs (loadYaml libs) p .none =
      exception.elim (.ok false info) fun e => .error e info := by
  constructor
  · intro h
    cases h with
    | load hr hl => exact ⟨_,hr,by rw [examine_eq,hl]; rfl⟩
    | convert hr hl hc => exact ⟨_,hr,by simp only [examine_eq,hl,hc]; rfl⟩
    | check hr hl hc hs => exact ⟨_,hr,by simp only [examine_eq,hl,hc,hs]; rfl⟩
    | reject hr hl hc hs => exact ⟨_,hr,by simp only [examine_eq,hl,hc,hs]; rfl⟩
    | transform hr hl hc hs ht => exact ⟨_,hr,by simp only [examine_eq,hl,hc,hs,ht]; rfl⟩
  · rintro ⟨p,hr,h⟩
    rw [examine_eq] at h
    split at h
    · next hl =>
      cases exception <;> cases h
      exact .load hr hl
    · next l hl =>
      split at h
      · next hc =>
        cases exception <;> cases h
        exact .convert hr hl hc
      · next c hc =>
        split at h
        · next hs =>
          cases exception <;> cases h
          exact .check hr hl hc hs
        · next hs =>
          cases exception <;> cases h
          exact .reject hr hl hc hs
        · next hs =>
          split at h
          · cases exception <;> cases h
          · next ht =>
            cases exception <;> cases h
            exact .transform hr hl hc hs ht

theorem exists_escapes_iff : (∃ e, tryAttachment libs mail attachment = .escapes e) ↔
    ∃ e, Throws libs attachment e ∧ ¬ Caught mail e := by
  simp only [Throws,leaves_iff_examine,tryAttachment,← handle_eq_none_iff]
  cases readAttachment libs attachment with
  | error e => cases hh : handle mail e <;> simp [hh]
  | ok p =>
    rcases hx : examine libs (loadYaml libs) p .none with ⟨_ | _,new⟩ | ⟨e,new⟩
    · simp [hx]
    · simp [hx]
    · cases hh : handle mail e <;> simp [hx,hh]

/-! ### The loop over the attachments -/

/-- The loop goes on after the attachment. -/
def Passes (libs : Libraries) (mail : Mail) (attachment : Text) : Prop :=
  (∃ info, tryAttachment libs mail attachment = .left info) ∨
    tryAttachment libs mail attachment = .unread

/-- The last attachment that is decrypted leaves the value. -/
def LastLeft (libs : Libraries) (attachments : List Text) (info : Obj) : Prop :=
  ∃ before a after exception, attachments = before ++ a :: after ∧
    Leaves libs a exception info ∧ ∀ b ∈ after, Unread libs b

theorem Passes.caught {e : Exn} (h : Passes libs mail attachment)
    (ht : Throws libs attachment e) : Caught mail e := by
  by_contra hc
  obtain ⟨e',he⟩ := exists_escapes_iff.mpr ⟨e,ht,hc⟩
  obtain ⟨left,hl⟩ | hu := h
  · cases he.symm.trans hl
  · cases he.symm.trans hu

theorem Leaves.not_unread {exception : Option Exn} (h : Leaves libs attachment exception info) :
    ¬ Unread libs attachment := by
  rintro ⟨e,he⟩
  obtain ⟨p,hp,-⟩ := leaves_iff_examine.mp h
  cases hp.symm.trans he

theorem Leaves.unique {exception exception' : Option Exn} {info' : Obj}
    (h : Leaves libs attachment exception info) (h' : Leaves libs attachment exception' info') :
    info = info' := by
  obtain ⟨p,hp,hx⟩ := leaves_iff_examine.mp h
  obtain ⟨p',hp',hx'⟩ := leaves_iff_examine.mp h'
  cases hp.symm.trans hp'
  have he := hx.symm.trans hx'
  cases exception <;> cases exception' <;> cases he <;> rfl

theorem first_unique {P : Text → Prop} {before before' after after' : List Text} {a a' : Text}
    (h : before ++ a :: after = before' ++ a' :: after') (hbefore : ∀ b ∈ before, ¬ P b) (ha : P a)
    (hbefore' : ∀ b ∈ before', ¬ P b) (ha' : P a') : a = a' := by
  obtain ⟨m,hm,hr⟩ | ⟨m,hm,hr⟩ := List.append_eq_append_iff.mp h
  · cases m with
    | nil => exact (List.cons.inj hr).1
    | cons c m =>
      obtain rfl := (List.cons.inj hr).1
      exact absurd ha (hbefore' a (hm ▸ List.mem_append_right _ (.head _)))
  · cases m with
    | nil => exact (List.cons.inj hr).1.symm
    | cons c m =>
      obtain rfl := (List.cons.inj hr).1
      exact absurd ha' (hbefore a' (hm ▸ List.mem_append_right _ (.head _)))

theorem LastLeft.unique {attachments : List Text} {info info' : Obj}
    (h : LastLeft libs attachments info) (h' : LastLeft libs attachments info') : info = info' := by
  obtain ⟨before,a,after,x,hs,hl,hu⟩ := h
  obtain ⟨before',a',after',x',hs',hl',hu'⟩ := h'
  -- seen from the end, both are the first attachment that was decrypted
  have hr : after.reverse ++ a :: before.reverse = after'.reverse ++ a' :: before'.reverse := by
    simpa using congrArg List.reverse (hs.symm.trans hs')
  obtain rfl := first_unique (P := fun b => ¬ Unread libs b) hr
    (fun b hb => not_not.mpr (hu b (List.mem_reverse.mp hb))) hl.not_unread
    (fun b hb => not_not.mpr (hu' b (List.mem_reverse.mp hb))) hl'.not_unread
  exact hl.unique hl'

/-- The loop ends at the first good attachment, at the first that escapes, or after the last. -/
inductive LoopEnd (libs : Libraries) (mail : Mail) (info : Obj) :
    List Text → Raises Obj → Prop where
  | good (before : List Text) {a : Text} {after : List Text} {new : Obj}
      (hbefore : ∀ b ∈ before, Passes libs mail b)
      (hchecked : Checked libs (loadYaml libs) a new) :
      LoopEnd libs mail info (before ++ a :: after) (.ok new)
  | escapes (before : List Text) {a : Text} {after : List Text} {e e' : Exn}
      (hbefore : ∀ b ∈ before, Passes libs mail b) (hthrows : Throws libs a e)
      (hcaught : ¬ Caught mail e) : LoopEnd libs mail info (before ++ a :: after) (.error e')
  | last {attachments : List Text} {new : Obj} (hall : ∀ a ∈ attachments, Passes libs mail a)
      (hlast : LastLeft libs attachments new ∨ new = info ∧ ∀ a ∈ attachments, Unread libs a) :
      LoopEnd libs mail info attachments (.ok new)

/-- An attachment that passes hands its value on to the rest of the loop. -/
theorem LoopEnd.cons {a : Text} {attachments : List Text} {new : Obj} {r : Raises Obj}
    (hp : Passes libs mail a)
    (ha : (∃ exception, Leaves libs a exception new) ∨ new = info ∧ Unread libs a)
    (h : LoopEnd libs mail new attachments r) : LoopEnd libs mail info (a :: attachments) r := by
  cases h with
  | good before hbefore hc =>
    exact .good (a :: before) (List.forall_mem_cons.mpr ⟨hp,hbefore⟩) hc
  | escapes before hbefore ht hc =>
    exact .escapes (a :: before) (List.forall_mem_cons.mpr ⟨hp,hbefore⟩) ht hc
  | last hall hlast =>
    refine .last (List.forall_mem_cons.mpr ⟨hp,hall⟩) ?_
    obtain ⟨before,b,after,x,hs,hl,hu⟩ | ⟨rfl,hu⟩ := hlast
    · exact .inl ⟨a :: before,b,after,x,congrArg _ hs,hl,hu⟩
    · obtain ⟨x,hl⟩ | ⟨rfl,hn⟩ := ha
      · exact .inl ⟨[],a,attachments,x,rfl,hl,hu⟩
      · exact .inr ⟨rfl,List.forall_mem_cons.mpr ⟨hn,hu⟩⟩

/-- The records at the end of a body, also when it raised. -/
def written : EStateM.Result Exn (List Insert) Unit → List Insert
  | .ok _ db => db
  | .error _ db => db

section Services

variable {G : Obj → Prop}

end Services

/-! ### Sample attachments -/

section Delivered

variable {mail : Mail} {before after : List Text} {a : Text}
  (hattachments : mail.attachments = before ++ a :: after)
  (hbefore : ∀ b ∈ before, Passes libs mail b)

include hattachments hbefore

end Delivered

end Psiphon.Feedback
