import Psiphon.Feedback.Redaction

/-!
# What the redaction leaves

The two rewritings of a text one by one, then the leaf that they make together, then the object.
-/

namespace Psiphon.Feedback

open List Option
open Scan (Pattern Split)

variable {c : Char}

theorem takeWhile_append_cons {p : Char → Bool} (hc : p c = false) (w z : Text) :
    (w ++ c :: z).takeWhile p = w.takeWhile p := by
  rw [takeWhile_append,takeWhile_cons_of_neg (by simp [hc]),append_nil]
  split
  · rename_i ha
    exact (( takeWhile_prefix p).eq_of_length ha).symm
  · rfl

/-! ### Addresses -/

def OnlyLocal (text : Text) : Prop := ∀ m ∈ ipv4Regex.found text, m = localhost

theorem dottedSize_append {n : ℕ} {w : Text} (h : dottedSize n w ≠ none) (z : Text) :
    dottedSize n (w ++ z) ≠ none := by
  induction n generalizing w with
  | zero =>
    rw [dottedSize] at h ⊢
    have hle : (w.takeWhile isDigit).length ≤ ((w ++ z).takeWhile isDigit).length := by
      rw [takeWhile_append]
      split
      · rename_i hall
        rw [length_append,hall]
        omega
      · exact Nat.le_refl _
    split at h
    · exact absurd rfl h
    · rw [if_neg (by omega)]
      exact some_ne_none _
  | succ n ih =>
    rw [dottedSize] at h ⊢
    split at h
    · rename_i hd
      obtain ⟨hpos,hle,hdot⟩ := hd
      -- The dot is in the first part, so the digits before it are the same.
      have hlt := (List.getElem?_eq_some_iff.mp hdot).1
      have hs : (w ++ z).takeWhile isDigit = w.takeWhile isDigit := by
        rw [takeWhile_append,if_neg (by omega)]
      rw [hs,if_pos ⟨hpos,hle,(getElem?_append_left hlt).trans hdot⟩, drop_append_of_le_length hlt]
      intro hn
      refine ih (fun hn' => h ?_) (map_eq_none_iff.mp hn)
      rw [hn',map_none]
    · exact absurd rfl h

/-- A match does not reach over a character that is neither a digit nor a dot. -/
theorem dottedSize_append_cons (hd : isDigit c = false) (hdot : c ≠ '.') (n : ℕ) (w z : Text) :
    dottedSize n (w ++ c :: z) = dottedSize n w := by
  induction n generalizing w with
  | zero => rw [dottedSize,dottedSize,takeWhile_append_cons hd]
  | succ n ih =>
    rw [dottedSize,dottedSize,takeWhile_append_cons hd]
    obtain hlt | hge := Nat.lt_or_ge (w.takeWhile isDigit).length w.length
    · rw [getElem?_append_left hlt,drop_append_of_le_length hlt,ih]
    · have hl := Nat.le_antisymm (length_takeWhile_le isDigit w) hge
      rw [hl,getElem?_append_right (Nat.le_refl _),Nat.sub_self,
        getElem?_cons_zero,getElem?_eq_none (Nat.le_refl _)]
      simp [hdot]

theorem dottedSize_succ {digits : Text} (hall : ∀ c ∈ digits, isDigit c = true)
    (hpos : 1 ≤ digits.length) (hle : digits.length ≤ 3) (n : ℕ) (rest : Text) :
    dottedSize (n + 1) (digits ++ '.' :: rest) =
      (dottedSize n rest).map (digits.length + 1 + ·) := by
  have hd : (digits ++ '.' :: rest).takeWhile isDigit = digits := by
    rw [takeWhile_append_of_pos hall,takeWhile_cons_of_neg (by decide),append_nil]
  have hdot : (digits ++ '.' :: rest)[digits.length]? = some '.' := by
    rw [getElem?_append_right (Nat.le_refl _),Nat.sub_self,getElem?_cons_zero]
  have hdr : (digits ++ '.' :: rest).drop (digits.length + 1) = rest := by
    rw [← drop_drop,drop_left,drop_one,tail_cons]
  rw [dottedSize,hd,if_pos ⟨hpos,hle,hdot⟩,hdr]

/-- The local address is found as such exactly when no digit follows it. -/
theorem ipv4Regex_size (text : Text) : ipv4Regex.size text = dottedSize 3 text := rfl

theorem dottedSize_localhost (rest : Text) : dottedSize 3 (localhost ++ rest) =
      some (8 + min (1 + (rest.takeWhile isDigit).length) 3) := by
  have hl : localhost ++ rest =
      ['1','2','7'] ++ '.' :: (['0'] ++ '.' :: (['0'] ++ '.' :: '1' :: rest)) := rfl
  have hla : dottedSize 0 ('1' :: rest) = some (min (1 + (rest.takeWhile isDigit).length) 3) := by
    rw [dottedSize,takeWhile_cons_of_pos (by decide),length_cons,Nat.add_comm,if_neg (by omega)]
  have hnet : ∀ c ∈ ['1','2','7'], isDigit c = true := all_eq_true.mp (by decide)
  have hz : ∀ c ∈ ['0'], isDigit c = true := all_eq_true.mp (by decide)
  rw [hl,dottedSize_succ hnet (by decide) (by decide),dottedSize_succ hz (by decide) (by decide),
    dottedSize_succ hz (by decide) (by decide),hla]
  simp only [map_some,length_cons,length_nil]
  congr 1
  omega

/-- A text in brackets, in which no address is found. -/
structure Bracketed (text : Text) : Prop where
  brackets : ∃ body, text = '[' :: (body ++ [']'])
  noAddress : ipv4Regex.found text = []

variable {text : Text}

theorem Bracketed.found_append (h : Bracketed text) (rest : Text) :
    ipv4Regex.found (text ++ rest) = ipv4Regex.found rest := by
  refine ipv4Regex.found_append fun s hs hne => ?_
  obtain ⟨body,hb⟩ := h.brackets
  obtain ⟨s',rfl⟩ : ∃ s', s = s' ++ [']'] := by
    obtain ⟨pre,hpre⟩ := hs
    obtain ⟨s',c,rfl⟩ := (eq_nil_or_concat' s).resolve_left hne
    rw [hb,← append_assoc,← cons_append] at hpre
    have hl := (append_inj' hpre rfl).2
    exact ⟨s',by rw [hl]⟩
  have hn := ipv4Regex.found_eq_nil_iff.mp h.noAddress _ hs
  rw [append_assoc,singleton_append]
  exact (dottedSize_append_cons (by decide) (by decide) 3 s' rest).trans
    ((dottedSize_append_cons (by decide) (by decide) 3 s' []).symm.trans hn)

section Addresses

variable {f : Text → Text} (hlocal : f localhost = localhost)
  (hbracketed : ∀ m, m ≠ localhost → Bracketed (f m))

include hlocal hbracketed

/-- Rewriting leaves a text up to some place, where the new one has a bracket. -/
theorem replace_addresses_cases (text : Text) :
    ipv4Regex.replace f text = text ∨ ∃ b rest new, text = b ++ rest ∧
      ipv4Regex.replace f text = b ++ '[' :: new := by
  obtain hs | ⟨b,m,rest,ht,hm,hr⟩ := ipv4Regex.replace_cases f text
  · exact .inl hs
  · have hne : m ≠ localhost := fun h => hm (h ▸ hlocal)
    obtain ⟨body,hb⟩ := (hbracketed m hne).brackets
    refine .inr ⟨b,m ++ rest,body ++ [']'] ++ ipv4Regex.replace f rest,?_,?_⟩
    · rw [ht,append_assoc]
    · rw [hr,hb,append_assoc,cons_append]

/-- Where no address started, none starts after the rewriting. -/
theorem size_replace_addresses {rest : Text} (h : ipv4Regex.size (c :: rest) = none) :
    ipv4Regex.size (c :: ipv4Regex.replace f rest) = none := by
  obtain hs | ⟨b,rest',new,rfl,hr⟩ :=
    replace_addresses_cases hlocal hbracketed rest
  · rw [hs,h]
  · rw [hr]
    refine (dottedSize_append_cons (by decide) (by decide) 3 (c :: b) new).trans ?_
    by_contra hso
    exact dottedSize_append hso rest' h

theorem takeWhile_replace_addresses {rest : Text} (h : rest.takeWhile isDigit = []) :
    (ipv4Regex.replace f rest).takeWhile isDigit = [] := by
  obtain hs | ⟨b,rest',new,rfl,hr⟩ :=
    replace_addresses_cases hlocal hbracketed rest
  · rw [hs,h]
  · rw [hr]
    cases b with
    | nil => rfl
    | cons c b =>
      rw [cons_append,takeWhile_cons] at h ⊢
      split at h
      · cases h
      · rename_i hc
        rw [if_neg hc]

theorem onlyLocal_replace (text : Text) : OnlyLocal (ipv4Regex.replace f text) := by
  induction text using ipv4Regex.scan_induction with
  | nil => exact fun m hm => (by cases hm)
  | pass c rest hs ih =>
    rw [ipv4Regex.replace_of_none f hs,OnlyLocal,
      ipv4Regex.found_of_none (size_replace_addresses hlocal hbracketed hs)]
    exact ih
  | take text n hs ih =>
    rw [ipv4Regex.replace_of_some f hs]
    by_cases hm : text.take n = localhost
    · -- The match is kept, and is found again with the same end.
      have ht : localhost ++ text.drop n = text := hm ▸ take_append_drop n text
      have hn : n = 9 := by
        have hlen := congrArg length hm
        rw [length_take,Nat.min_eq_left (ipv4Regex.size_le hs)] at hlen
        exact hlen
      have hd : (text.drop n).takeWhile isDigit = [] := by
        have hl := dottedSize_localhost (text.drop n)
        rw [ht] at hl
        have hsame := Option.some.inj (hl.symm.trans hs)
        refine eq_nil_of_length_eq_zero ?_
        omega
      have ha : ipv4Regex.size (localhost ++ ipv4Regex.replace f (text.drop n)) = some 9 := by
        rw [ipv4Regex_size,dottedSize_localhost,takeWhile_replace_addresses hlocal hbracketed hd]
        rfl
      have hta : (localhost ++ ipv4Regex.replace f (text.drop n)).take 9 = localhost :=
        take_left' rfl
      have hdr : (localhost ++ ipv4Regex.replace f (text.drop n)).drop 9 =
          ipv4Regex.replace f (text.drop n) := drop_left' rfl
      rw [hm,hlocal,OnlyLocal,ipv4Regex.found_of_some ha,hta,hdr]
      intro m hmem
      obtain hmem | hmem := mem_cons.mp hmem
      · exact hmem
      · exact ih m hmem
    · rw [OnlyLocal,(hbracketed _ hm).found_append]
      exact ih

end Addresses

/-! ### Server entries -/

def NoRun (text : Text) : Prop :=
  ∀ run, run <:+: text → (∀ c ∈ run, isHex c = true) → run.length < 33

theorem NoRun.of_isInfix {text part : Text} (h : NoRun text) (hp : part <:+: text) : NoRun part :=
  fun run hr hh => h run (hr.trans hp) hh

theorem noRun_iff_suffix : NoRun text ↔ ∀ s, s <:+ text → (s.takeWhile isHex).length < 33 := by
  constructor
  · intro h s hs
    refine h _ (( takeWhile_prefix isHex).isInfix.trans hs.isInfix) fun c hc => ?_
    exact all_eq_true.mp all_takeWhile c hc
  · intro h run hr hh
    obtain ⟨b,after,ht⟩ := hr
    have hlt := h (run ++ after) ⟨b,by rw [← append_assoc,ht]⟩
    rw [takeWhile_append_of_pos hh,length_append] at hlt
    omega

theorem noRun_iff_found : NoRun text ↔ serverEntryRegex.found text = [] := by
  have hs : ∀ s : Text, serverEntryRegex.size s = none ↔ (s.takeWhile isHex).length < 33 := by
    intro s
    show (if 33 ≤ (s.takeWhile isHex).length then some (s.takeWhile isHex).length else none)
      = none ↔ _
    split <;> simp <;> omega
  rw [noRun_iff_suffix,serverEntryRegex.found_eq_nil_iff]
  exact forall_congr' fun s => imp_congr_right fun _ => (hs s).symm

theorem noRun_of_length (h : text.length < 33) : NoRun text := by
  refine noRun_iff_suffix.mpr fun s hs => ?_
  have hrun := length_takeWhile_le isHex s
  have hsuffix := hs.length_le
  omega

theorem noRun_cons :
    NoRun (c :: text) ↔ ((c :: text).takeWhile isHex).length < 33 ∧ NoRun text := by
  rw [noRun_iff_suffix,noRun_iff_suffix]
  constructor
  · exact fun h => ⟨h _ suffix_rfl,fun s hs => h s (hs.trans (suffix_cons c text))⟩
  · rintro ⟨hf,hr⟩ s hs
    obtain rfl | hs := suffix_cons_iff.mp hs
    · exact hf
    · exact hr s hs

theorem noRun_append_cons (hc : isHex c = false) {b after : Text} :
    NoRun (b ++ c :: after) ↔ NoRun b ∧ NoRun after := by
  induction b with
  | nil =>
    rw [nil_append,noRun_cons,takeWhile_cons_of_neg (by simp [hc])]
    refine ⟨fun h => ⟨fun run hr _ => ?_,h.2⟩,fun h => ⟨by decide,h.2⟩⟩
    rw [infix_nil.mp hr]
    decide
  | cons d b ih =>
    rw [cons_append,noRun_cons,noRun_cons,ih,← cons_append,takeWhile_append_cons hc,and_assoc]

theorem noRun_replace_addresses {f : Text → Text} (hlocal : f localhost = localhost)
    (hbracketed : ∀ m, m ≠ localhost → ∃ body, f m = '[' :: (body ++ [']']) ∧ NoRun (f m))
    (h : NoRun text) : NoRun (ipv4Regex.replace f text) := by
  -- What stands before the place of the scan may belong to a run with what follows.
  have hg : ∀ text b : Text, NoRun (b ++ text) → NoRun (b ++ ipv4Regex.replace f text) := by
    intro text
    induction text using ipv4Regex.scan_induction with
    | nil => exact fun _ h => h
    | pass c rest hs ih =>
      intro b h
      rw [ipv4Regex.replace_of_none f hs,append_cons]
      exact ih (b ++ [c]) (append_cons b c rest ▸ h)
    | take text n hs ih =>
      intro b h
      rw [ipv4Regex.replace_of_some f hs]
      by_cases hm : text.take n = localhost
      · rw [hm,hlocal,← hm,← append_assoc]
        refine ih (b ++ text.take n) ?_
        rw [append_assoc,take_append_drop]
        exact h
      · obtain ⟨body,hb,hrun⟩ := hbracketed _ hm
        rw [hb] at hrun ⊢
        have hb' : NoRun [] ∧ NoRun (body ++ [']']) := (noRun_append_cons (by decide)).mp hrun
        have hr : NoRun (text.drop n) :=
          h.of_isInfix ((drop_suffix n text).isInfix.trans (suffix_append b text).isInfix)
        rw [cons_append,noRun_append_cons (by decide),append_assoc,
          singleton_append,noRun_append_cons (by decide)]
        refine ⟨h.of_isInfix (prefix_append b text).isInfix,?_,ih [] hr⟩
        exact hb'.2.of_isInfix (prefix_append body [']']).isInfix
  exact hg text [] h

def withoutEntries (text : Text) : Text := serverEntryRegex.replace (fun _ => entryRedacted) text

theorem withoutEntries_cases (text : Text) :
    withoutEntries text = text ∨ ∃ b rest new, text = b ++ rest ∧
      withoutEntries text = b ++ '[' :: new := by
  obtain hs | ⟨b,m,rest,ht,-,hr⟩ :=
    serverEntryRegex.replace_cases (fun _ => entryRedacted) text
  · exact .inl hs
  · refine .inr ⟨b,m ++ rest, "SERVER ENTRY REDACTED]".toList ++ withoutEntries rest,?_,?_⟩
    · rw [ht,append_assoc]
    · rw [withoutEntries,hr,append_assoc]
      rfl

theorem noRun_withoutEntries (text : Text) : NoRun (withoutEntries text) := by
  induction text using serverEntryRegex.scan_induction with
  | nil => exact noRun_iff_found.mpr rfl
  | pass c rest hsi ih =>
    rw [withoutEntries,serverEntryRegex.replace_of_none _ hsi]
    refine noRun_cons.mpr ⟨?_,ih⟩
    have hs : ((c :: rest).takeWhile isHex).length < 33 := by
      by_contra hl
      have hso : serverEntryRegex.size (c :: rest) = some _ := if_pos (Nat.le_of_not_lt hl)
      cases hso.symm.trans hsi
    obtain hsa | ⟨b,rest',new,rfl,hr⟩ := withoutEntries_cases rest
    · rw [← withoutEntries,hsa]
      exact hs
    · rw [← withoutEntries,hr,← cons_append,takeWhile_append_cons (by decide)]
      rw [← cons_append,takeWhile_append] at hs
      split at hs
      · rw [length_append] at hs
        omega
      · exact hs
  | take text n hsi ih =>
    rw [withoutEntries,serverEntryRegex.replace_of_some _ hsi]
    have he : entryRedacted ++ withoutEntries (text.drop n) =
        [] ++ '[' :: ("SERVER ENTRY REDACTED".toList ++ ']' :: withoutEntries (text.drop n)) := rfl
    rw [← withoutEntries,he,noRun_append_cons (by decide),noRun_append_cons (by decide)]
    exact ⟨noRun_of_length (by decide),noRun_of_length (by decide),ih⟩

/-! ### Leaves -/

/-- The names of servers that are shown have no address and no long run of hexadecimal digits. -/
def Psinet.Discreet (psinet : Psinet) : Prop :=
  ∀ ip, ipv4Regex.found (psinet.getServerDisplayIdFromIp ip) = [] ∧
    NoRun (psinet.getServerDisplayIdFromIp ip)

theorem Psinet.brackets_display (psinet : Psinet) (ip : Text) :
    ∃ body, psinet.getServerDisplayIdFromIp ip = '[' :: (body ++ [']']) := by
  rw [getServerDisplayIdFromIp]
  split
  · exact ⟨_,rfl⟩
  · split
    · rename_i s _
      refine ⟨s.id ++ "][DELETED".toList,?_⟩
      show '[' :: (s.id ++ ("][DELETED".toList ++ [']'])) = _
      rw [append_assoc]
    · exact ⟨"UNKNOWN".toList,rfl⟩

theorem displayAddress_localhost (psinet : Psinet) : displayAddress psinet localhost = localhost :=
  if_pos rfl

def redactText (psinet : Psinet) (text : Text) : Text :=
  if serverEntryRegex.found text = [] then ipv4Regex.replace (displayAddress psinet) text
  else withoutEntries text

theorem getLast_redactions (psinet : Psinet) (kind : StrKind) (text : Text) :
    (redactions psinet (.str kind text)).getLast?.getD (.str kind text) =
      .str kind (redactText psinet text) := by
  have hp : (serverEntryRegex.split text).parts = [] ↔ serverEntryRegex.found text = [] := by
    rw [Pattern.found,Split.found,map_eq_nil_iff]
  have hw : withoutEntries text =
      intercalate entryRedacted (serverEntryRegex.split text).between := Split.join_const _ _
  rw [redactions,redactText,hw]
  by_cases he : serverEntryRegex.found text = []
  · rw [if_neg (not_not.mpr (hp.mpr he)),if_pos he,append_nil]
    split
    · rfl
    · rename_i hn
      have hs : ∀ m ∈ ipv4Regex.found text, displayAddress psinet m = m := by
        intro m hm
        have hlocal : m = localhost := by
          by_contra hne
          exact hn (any_eq_true.mpr ⟨m,hm,bne_iff_ne.mpr hne⟩)
        rw [displayAddress,if_pos hlocal]
      rw [ipv4Regex.replace_eq_self hs]
      rfl
  · rw [if_pos (mt hp.mp he),if_neg he,getLast?_append]
    rfl

section Discreet

variable {psinet : Psinet} (hdiscreet : psinet.Discreet)

include hdiscreet

theorem bracketed_display (m : Text) (hm : m ≠ localhost) :
    Bracketed (displayAddress psinet m) := by
  rw [displayAddress,if_neg hm]
  exact ⟨psinet.brackets_display m,(hdiscreet m).1⟩

theorem noRun_redactText (text : Text) : NoRun (redactText psinet text) := by
  rw [redactText]
  split
  · rename_i hn
    refine noRun_replace_addresses (displayAddress_localhost psinet) (fun m hm => ?_)
      (noRun_iff_found.mpr hn)
    obtain ⟨body,hb⟩ := psinet.brackets_display m
    rw [displayAddress,if_neg hm]
    exact ⟨body,hb,(hdiscreet m).2⟩
  · exact noRun_withoutEntries text

/-- The addresses are gone unless the leaf had an entry as well. -/
theorem onlyLocal_redactText (text : Text) :
    OnlyLocal (redactText psinet text) ↔ (¬ NoRun text → OnlyLocal (withoutEntries text)) := by
  rw [redactText,noRun_iff_found]
  split
  · rename_i hn
    refine ⟨fun _ hr => absurd hn hr,fun _ => ?_⟩
    exact onlyLocal_replace (displayAddress_localhost psinet) (bracketed_display hdiscreet) text
  · rename_i hs
    exact ⟨fun h _ => h,fun h => h hs⟩

end Discreet

/-- The new text is the old one with its addresses, or its long runs, replaced. -/
def OnlyMatchesChanged (before after : Text) : Prop :=
  (∃ f, after = ipv4Regex.replace f before) ∨ ∃ f, after = serverEntryRegex.replace f before

theorem onlyMatchesChanged_redactText (psinet : Psinet) (text : Text) :
    OnlyMatchesChanged text (redactText psinet text) := by
  rw [redactText]
  split
  · exact .inl ⟨_,rfl⟩
  · exact .inr ⟨_,rfl⟩

/-! ### Objects -/

def namesAt (psinet : Psinet) (key : Key) : List (Text × Text) :=
  if key = propagationChannelId then psinet.propagationChannels
  else if key = sponsorId then psinet.sponsors
  else []

def leafValues (psinet : Psinet) (path : Path) (val : Obj) : List Obj :=
  redactions psinet val ++
    match path.getLast? with
    | some key => conversions (namesAt psinet key) val
    | none => []

variable {path : Path} {obj : Obj}

namespace Obj

theorem truthy_setItem {obj new value : Obj} {key : Key} (h : obj.setItem key value = .ok new) :
    new.truthy = true := by
  cases obj with
  | dict entries =>
    cases h
    cases entries with
    | nil => rfl
    | cons entry entries =>
      rw [insert]
      split <;> rfl
  | list items =>
    cases key with
    | str => cases h
    | int n =>
      rw [setItem] at h
      split at h
      · rename_i i hp
        cases h
        cases items with
        | nil =>
          rw [position,if_neg (by simp only [length_nil]; omega)] at hp
          cases hp
        | cons item items => cases i <;> rfl
      · cases h
  | _ => cases h

theorem truthy_setAt {obj new value : Obj} (hp : path ≠ []) (h : obj.setAt path value = .ok new) :
    new.truthy = true := by
  cases path with
  | nil => exact absurd rfl hp
  | cons key path =>
    cases path with
    | nil => exact truthy_setItem h
    | cons next path =>
      obtain ⟨t,-,h⟩ := Fallible.bind_eq_ok_iff.mp h
      obtain ⟨t',-,h⟩ := Fallible.bind_eq_ok_iff.mp h
      exact truthy_setItem h

theorem truthy_setAll {obj new : Obj} (ht : obj.truthy = true) (hp : path ≠ [])
    {values : List Obj} (h : obj.setAll path values = .ok new) : new.truthy = true := by
  induction values generalizing obj with
  | nil => exact Except.ok.inj h ▸ ht
  | cons value values ih =>
    obtain ⟨next,hn,h⟩ := Fallible.bind_eq_ok_iff.mp h
    exact ih (truthy_setAt hp hn) h

/-- The first test of `assign_value_to_obj_at_path` passes for a leaf of the object. -/
theorem foldlM_assign (ht : obj.truthy = true) (hp : path ≠ []) (values : List Obj) :
    values.foldlM (fun obj value => obj.assignValueToObjAtPath path value) obj =
      obj.setAll path values := by
  induction values generalizing obj with
  | nil => rfl
  | cons value values ih =>
    have ha : obj.assignValueToObjAtPath path value = obj.setAt path value := by
      rw [assignValueToObjAtPath,ht,isEmpty_eq_false_iff.mpr hp]
      rfl
    rw [setAll,foldlM_cons,foldlM_cons,ha]
    cases hs : obj.setAt path value with
    | error e => rfl
    | ok new => exact ih (truthy_setAt hp hs)

theorem objwalk_of_not_truthy (hl : obj.isLeaf = false) (h : obj.truthy = false) :
    obj.objwalk [] = [] := by
  cases obj with
  | dict entries =>
    cases entries with
    | nil => rw [objwalk,walkEntries]
    | cons => cases h
  | list items =>
    cases items with
    | nil => rw [objwalk,walkItems]
    | cons => cases h
  | _ => cases hl

end Obj

theorem convertLeaf_eq_setAll (psinet : Psinet) (ht : obj.truthy = true) (hp : path ≠ [])
    (val : Obj) :
    convertLeaf psinet obj (path, val) = obj.setAll path (leafValues psinet path val) := by
  have hk := getLast?_eq_some_getLast hp
  have ha : obj.setAll path (leafValues psinet path val) =
      (obj.setAll path (redactions psinet val)).bind fun obj =>
        obj.setAll path (conversions (namesAt psinet (path.getLast hp)) val) := by
    rw [leafValues,hk]
    exact foldlM_append ..
  rw [ha,convertLeaf]
  simp only [hk,Obj.foldlM_assign ht hp]
  cases hs : obj.setAll path (redactions psinet val) with
  | error e => rfl
  | ok new => exact Obj.foldlM_assign (Obj.truthy_setAll ht hp hs) hp _

/-- The loop over leaves of an object is the walk that rewrites them. -/
theorem foldlM_convertLeaf (psinet : Psinet) {leaves : List (Path × Obj)}
    (hp : ∀ leaf ∈ leaves, leaf.1 ≠ []) (ht : obj.truthy = true) :
    leaves.foldlM (convertLeaf psinet) obj = Obj.visit (leafValues psinet) [] leaves obj := by
  induction leaves generalizing obj with
  | nil => rfl
  | cons leaf leaves ih =>
    have hpa := hp leaf (.head _)
    have hr : ∀ leaf ∈ leaves, leaf.1 ≠ [] := fun l hl => hp l (.tail _ hl)
    rw [Obj.visit,foldlM_cons,foldlM_cons,nil_append,← convertLeaf_eq_setAll psinet ht hpa]
    cases hle : convertLeaf psinet obj leaf with
    | error e => rfl
    | ok new =>
      rw [convertLeaf_eq_setAll psinet ht hpa] at hle
      exact ih hr (Obj.truthy_setAll ht hpa hle)

/-- On an object with parts `convert_psinet_values` returns, with every leaf rewritten. -/
theorem convertPsinetValues_eq (psinet : Psinet) (hwf : obj.WellFormed) (hl : obj.isLeaf = false) :
    convertPsinetValues psinet obj =
      .ok (obj.mapLeaves (Obj.lastValue (leafValues psinet)) []) := by
  have hw : convertPsinetValues psinet obj = (obj.objwalk []).foldlM (convertLeaf psinet) obj := by
    cases obj with
    | str => cases hl
    | _ => rfl
  have hv := Obj.visit_objwalk (leafValues psinet) [] obj hwf hl
  rw [hw,← hv]
  cases ht : obj.truthy with
  | false => rw [Obj.objwalk_of_not_truthy hl ht]; rfl
  | true => exact foldlM_convertLeaf psinet (Obj.objwalk_ne_nil hl) ht

/-- Every object without parts that is not a string raises. -/
theorem convertPsinetValues_of_isLeaf (psinet : Psinet) (hl : obj.isLeaf = true)
    (hs : ∀ kind text, obj ≠ .str kind text) :
    convertPsinetValues psinet obj = .error .indexError := by
  cases obj with
  | dict => cases hl
  | list => cases hl
  | str kind text => exact absurd rfl (hs kind text)
  | _ => simp [convertPsinetValues,Obj.objwalk,convertLeaf,redactions]

/-- The leaf lies under one of the two keys whose IDs are converted to names. -/
def UnderId (path : Path) : Prop := propagationChannelId ∈ path ∨ sponsorId ∈ path

instance (path : Path) : Decidable (UnderId path) := inferInstanceAs (Decidable (_ ∨ _))

def RedactedLeaf : Obj → Obj → Prop
  | .str kind text, after => ∃ text', after = .str kind text' ∧ OnlyLocal text' ∧ NoRun text' ∧
    OnlyMatchesChanged text text'
  | before, after => after = before

/-- Leaf by leaf, apart from those under the two keys. -/
def Redacted (before after : Obj) : Prop :=
  List.Forall₂ (fun b a => a.1 = b.1 ∧ (¬ UnderId b.1 → RedactedLeaf b.2 a.2))
    (before.objwalk []) (after.objwalk [])

/-- No leaf has a server entry together with an address outside of it; and the object is not itself
a string with something to redact. -/
def EntriesAlone (obj : Obj) : Prop :=
  match obj with
  | .str _ text => OnlyLocal text ∧ NoRun text
  | _ => ∀ leaf ∈ obj.objwalk [], ¬ UnderId leaf.1 → ∀ kind text, leaf.2 = .str kind text →
    ¬ NoRun text → OnlyLocal (withoutEntries text)

theorem namesAt_of_not_underId {psinet : Psinet} (h : ¬ UnderId path) {key : Key}
    (hkey : path.getLast? = some key) : namesAt psinet key = [] := by
  rw [UnderId,not_or] at h
  have hmem := mem_of_getLast? hkey
  have hc : key ≠ propagationChannelId := fun hid => h.1 (hid ▸ hmem)
  have hs : key ≠ sponsorId := fun hid => h.2 (hid ▸ hmem)
  rw [namesAt,if_neg hc,if_neg hs]

theorem leafValues_of_not_underId (psinet : Psinet) (h : ¬ UnderId path) (val : Obj) :
    leafValues psinet path val = redactions psinet val := by
  have hn : conversions [] val = [] := by cases val <;> rfl
  rw [leafValues]
  cases hk : path.getLast? with
  | none => exact append_nil _
  | some key =>
    show redactions psinet val ++ conversions (namesAt psinet key) val = _
    rw [namesAt_of_not_underId h hk,hn,append_nil]

theorem redactedLeaf_iff {psinet : Psinet} (hdiscreet : psinet.Discreet) (hu : ¬ UnderId path)
    (leaf : Obj) : RedactedLeaf leaf (.lastValue (leafValues psinet) path leaf) ↔
      ∀ kind text, leaf = .str kind text → ¬ NoRun text → OnlyLocal (withoutEntries text) := by
  rw [Obj.lastValue,leafValues_of_not_underId psinet hu]
  cases leaf with
  | str kind text =>
    rw [getLast_redactions,RedactedLeaf]
    constructor
    · rintro ⟨text',ht',hlocal,-⟩ kind' text'' hl
      obtain ⟨-,rfl⟩ := Obj.str.inj ht'
      obtain ⟨-,rfl⟩ := Obj.str.inj hl
      exact (onlyLocal_redactText hdiscreet text).mp hlocal
    · intro h
      exact ⟨_,rfl,(onlyLocal_redactText hdiscreet text).mpr (h kind text rfl),
        noRun_redactText hdiscreet text,onlyMatchesChanged_redactText psinet text⟩
  | _ => exact ⟨fun _ _ _ h => (by cases h),fun _ => rfl⟩

theorem isLeaf_of_mem_leafValues {psinet : Psinet} {leaf value : Obj}
    (h : value ∈ leafValues psinet path leaf) : value.isLeaf = true := by
  have hc : ∀ names, value ∈ conversions names leaf → value.isLeaf = true := by
    intro names hv
    rw [conversions] at hv
    split at hv
    · split at hv
      · cases hv
      · rw [mem_singleton.mp hv]
        rfl
    · cases hv
  obtain h | h := mem_append.mp h
  · cases leaf with
    | str kind text =>
      obtain h | h := mem_append.mp h
      · split at h
        · rw [mem_singleton.mp h]
          rfl
        · cases h
      · split at h
        · rw [mem_singleton.mp h]
          rfl
        · cases h
    | _ => cases h
  · split at h
    · exact hc _ h
    · cases h

theorem isLeaf_lastValue (psinet : Psinet) (path : Path) (leaf : Obj) (h : leaf.isLeaf = true) :
    (Obj.lastValue (leafValues psinet) path leaf).isLeaf = true := by
  rw [Obj.lastValue]
  cases hl : (leafValues psinet path leaf).getLast? with
  | none => exact h
  | some value => exact isLeaf_of_mem_leafValues (mem_of_getLast? hl)

/-- What `convert_psinet_values` returns is redacted exactly when no leaf has a server entry
together with an address. -/
theorem redacted_iff_entriesAlone {psinet : Psinet} (hdiscreet : psinet.Discreet) {obj new : Obj}
    (hwf : obj.WellFormed) (h : convertPsinetValues psinet obj = .ok new) :
    Redacted obj new ↔ EntriesAlone obj := by
  cases hl : obj.isLeaf with
  | true =>
    cases obj with
    | str kind text =>
      cases h
      have hu : ¬ UnderId [] := by simp [UnderId]
      have hs : ipv4Regex.replace id text = text :=
        ipv4Regex.replace_eq_self fun _ _ => rfl
      rw [Redacted,EntriesAlone,Obj.objwalk_of_isLeaf rfl,forall₂_cons,RedactedLeaf]
      constructor
      · rintro ⟨⟨-,hr⟩,-⟩
        obtain ⟨text',ht',hlocal,hrun,-⟩ := hr hu
        obtain ⟨-,rfl⟩ := Obj.str.inj ht'
        exact ⟨hlocal,hrun⟩
      · rintro ⟨hlocal,hrun⟩
        exact ⟨⟨rfl,fun _ => ⟨text,rfl,hlocal,hrun,.inl ⟨id,hs.symm⟩⟩⟩,.nil⟩
    | _ =>
      rw [convertPsinetValues_of_isLeaf psinet hl (by simp)] at h
      cases h
  | false =>
    rw [convertPsinetValues_eq psinet hwf hl] at h
    cases h
    have he : EntriesAlone obj ↔ ∀ leaf ∈ obj.objwalk [], ¬ UnderId leaf.1 →
        ∀ kind text, leaf.2 = .str kind text → ¬ NoRun text → OnlyLocal (withoutEntries text) := by
      cases obj with
      | str => cases hl
      | _ => exact .rfl
    rw [Redacted,Obj.objwalk_mapLeaves (isLeaf_lastValue psinet),forall₂_map_right_iff,
      forall₂_same,he]
    refine forall₂_congr fun leaf _ => ?_
    constructor
    · exact fun hl hu => (redactedLeaf_iff hdiscreet hu leaf.2).mp (hl.2 hu)
    · exact fun hl => ⟨rfl,fun hu => (redactedLeaf_iff hdiscreet hu leaf.2).mpr (hl hu)⟩

def emptyPsinet : Psinet := ⟨[], [], [], []⟩

theorem discreet_emptyPsinet : emptyPsinet.Discreet := by
  intro ip
  have hu : emptyPsinet.getServerDisplayIdFromIp ip = "[UNKNOWN]".toList := rfl
  rw [hu]
  exact ⟨by decide +kernel,noRun_of_length (by decide)⟩

def shortEntry : Text := replicate 33 'a'

def addressAndEntry : Obj :=
  .dict [(.str "Log".toList, .str .unicode "1.2.3.4 to 127.0.0.1".toList),
    (.str "Entry".toList, .str .unicode shortEntry)]

theorem redacted_addressAndEntry : ∃ new,
    convertPsinetValues emptyPsinet addressAndEntry = .ok new ∧ Redacted addressAndEntry new := by
  have hwf : addressAndEntry.WellFormed := by
    simp [addressAndEntry,Obj.WellFormed,Obj.WellFormedEntries]
  have hnew := convertPsinetValues_eq emptyPsinet hwf (by rfl)
  refine ⟨_,hnew,(redacted_iff_entriesAlone discreet_emptyPsinet hwf hnew).mpr ?_⟩
  intro leaf hl _ kind text ht hrun
  obtain rfl | rfl : leaf = ([.str "Log".toList], .str .unicode "1.2.3.4 to 127.0.0.1".toList) ∨
      leaf = ([.str "Entry".toList], .str .unicode shortEntry) := by
    simpa [addressAndEntry,Obj.objwalk,Obj.walkEntries] using hl
  · obtain ⟨-,rfl⟩ := Obj.str.inj ht
    exact absurd (noRun_of_length (by decide)) hrun
  · obtain ⟨-,rfl⟩ := Obj.str.inj ht
    have hf : ipv4Regex.found (withoutEntries shortEntry) = [] := by decide +kernel
    exact fun m hm => (by cases hm)

def addressBesideEntry : Obj :=
  .dict [(.str "Log".toList, .str .unicode ("1.2.3.4 ".toList ++ shortEntry))]

/-- The second rewriting starts from the value before the first, and puts the address back. -/
theorem not_redacted_addressBesideEntry : ∃ new,
    convertPsinetValues emptyPsinet addressBesideEntry = .ok new ∧ emptyPsinet.Discreet ∧
      addressBesideEntry.WellFormed ∧
      new.objwalk [] =
        [([.str "Log".toList], .str .unicode "1.2.3.4 [SERVER ENTRY REDACTED]".toList)] ∧
      ¬ Redacted addressBesideEntry new := by
  have hnew : convertPsinetValues emptyPsinet addressBesideEntry = .ok (.dict [(.str "Log".toList,
        .str .unicode "1.2.3.4 [SERVER ENTRY REDACTED]".toList)]) := rfl
  refine ⟨_,hnew,discreet_emptyPsinet,?_,?_,fun h => ?_⟩
  · simp [addressBesideEntry,Obj.WellFormed,Obj.WellFormedEntries]
  · simp [Obj.objwalk,Obj.walkEntries]
  · simp only [Redacted,addressBesideEntry,Obj.objwalk,Obj.walkEntries,append_nil,forall₂_cons] at h
    obtain ⟨text',ht',hlocal,-⟩ := h.1.2 (by decide)
    obtain ⟨-,rfl⟩ := Obj.str.inj ht'
    have hf : ipv4Regex.found "1.2.3.4 [SERVER ENTRY REDACTED]".toList =
        ["1.2.3.4".toList] := by decide +kernel
    have hl := hlocal "1.2.3.4".toList (hf ▸ mem_singleton_self _)
    exact absurd hl (by decide)

end Psiphon.Feedback
