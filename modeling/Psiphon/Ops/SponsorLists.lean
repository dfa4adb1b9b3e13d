import Psiphon.Ops.Mutators

/-!
# Home pages and regexes of a sponsor

The equality that `recordtype` makes compares the logs too. The removal of a regex pops the record
and then removes the text of the regex from the list, which raises.
-/

namespace Psiphon.Ops

open List Option
open Prod

/-! ### The sponsor with a name -/

def SponsorField.KeepsName {α : Type} (field : SponsorField α) : Prop :=
  ∀ a sponsor, (field.set a sponsor).name = sponsor.name

variable {sponsor : Sponsor}

theorem getSponsorByName_setSponsorField {α : Type} {field : SponsorField α}
    (hf : field.KeepsName) {net : Network} {name : String}
    (h : net.getSponsorByName name = some sponsor) (a : α) :
    (net.setSponsorField field sponsor.id a).getSponsorByName name =
      some (field.set a sponsor) := by
  have hn : ((fun s : Sponsor => s.name == name) ∘
      fun s => if Sponsor.id s = sponsor.id then field.set a s else s) =
      fun s => s.name == name := by
    funext s
    rw [Function.comp_apply]
    split
    · rw [hf]
    · rfl
  rw [Network.getSponsorByName] at h
  simp only [Network.getSponsorByName,Network.setSponsorField,Table.modify,Table.map,
    List.find?_map,hn,h,map_some,if_true]

/-! ### Home pages by region -/

def pagesOf (pages : HomePages) (region : String) : List SponsorHomePage :=
  (pages.lookup region).getD []

theorem dlookup_kreplace (l : List (Sigma fun _ : String => List SponsorHomePage))
    (r r' : String) (list : List SponsorHomePage) : (l.kreplace r list).dlookup r' =
      if r' = r then (l.dlookup r).map fun _ => list else l.dlookup r' := by
  induction l with
  | nil => exact (ite_self _).symm
  | cons entry l ih =>
    obtain ⟨first,old⟩ := entry
    by_cases hf : r = first
    · subst hf
      have hh : List.kreplace r list (⟨r,old⟩ :: l) = ⟨r,list⟩ :: l :=
        lookmap_cons_some _ _ (if_pos rfl)
      rw [hh,dlookup_cons_eq]
      split
      · next h =>
        subst h
        exact dlookup_cons_eq ..
      · next h => rw [dlookup_cons_ne _ _ h,dlookup_cons_ne _ _ h]
    · have ht : List.kreplace r list (⟨first,old⟩ :: l) = ⟨first,old⟩ :: List.kreplace r list l :=
        lookmap_cons_none _ _ (if_neg hf)
      rw [ht]
      by_cases h : r' = first
      · subst h
        rw [dlookup_cons_eq,if_neg (Ne.symm hf),dlookup_cons_eq]
      · rw [dlookup_cons_ne _ _ h,dlookup_cons_ne _ _ hf,dlookup_cons_ne _ _ h]
        exact ih

theorem pagesOf_putPages (r r' : String) (list : List SponsorHomePage)
    (p : HomePages) : pagesOf (putPages r list p) r' = if r' = r then list else pagesOf p r' := by
  rw [pagesOf,putPages]
  by_cases hm : r ∈ p
  · rw [if_pos hm,AList.lookup,AList.replace,dlookup_kreplace]
    obtain ⟨old,ho⟩ := isSome_iff_exists.mp (AList.lookup_isSome.mpr hm)
    rw [AList.lookup] at ho
    rw [ho]
    split <;> rfl
  · rw [if_neg hm]
    split
    · next h => rw [h,AList.lookup_insert,getD_some]
    · next h => rw [AList.lookup_insert_ne h,pagesOf]

/-! ### Calls -/

inductive PageList where
  | home
  | mobile
  deriving DecidableEq

def PageList.field : PageList → SponsorField HomePages
  | .home => homePagesField
  | .mobile => mobileHomePagesField

theorem PageList.field_keepsName (list : PageList) : list.field.KeepsName := by
  cases list <;> exact fun _ _ => rfl

theorem PageList.get_set (list list' : PageList) (p : HomePages) (sponsor : Sponsor) :
    list'.field.get (list.field.set p sponsor) =
      if list = list' then p else list'.field.get sponsor := by
  cases list <;> cases list' <;> rfl

inductive PageCall where
  | set (list : PageList) (region url : String)
  | remove (region url : String)
  deriving DecidableEq

def PageCall.apply (sponsorName : String) (net : Network) : PageCall × Date → Py Network
  | (.set .home region url, now) => setSponsorHomePage sponsorName region url now net
  | (.set .mobile region url, now) => setSponsorMobileHomePage sponsorName region url now net
  | (.remove region url, now) => removeSponsorHomePage sponsorName region url now net

def applyCalls (sponsorName : String) (net : Network) (calls : List (PageCall × Date)) :
    Py Network :=
  calls.foldlM (PageCall.apply sponsorName) net

def PageCall.url? (list : PageList) (region : String) : PageCall → Option String
  | .set list' region' url => if list' = list ∧ region' = region then some url else none
  | .remove _ _ => none

def PageCall.page? (list : PageList) (region : String) (call : PageCall × Date) :
    Option SponsorHomePage :=
  (call.1.url? list region).map fun url => ⟨region, url, createdLog call.2⟩

/-- The sponsor has every page that the calls have set, once for each call. -/
def HasAll (calls : List (PageCall × Date)) (sponsor : Sponsor) : Prop :=
  ∀ list region, pagesOf (PageList.field list |>.get sponsor) region =
    calls.filterMap (PageCall.page? list region)

variable {calls : List (PageCall × Date)}

theorem HasAll.notMem (h : HasAll calls sponsor) {now : Date} (hn : now ∉ calls.map snd)
    (list : PageList) (r url : String) :
    ⟨r,url,createdLog now⟩ ∉ pagesOf (list.field.get sponsor) r := by
  rw [h]
  intro hm
  obtain ⟨call,hc,hp⟩ := mem_filterMap.mp hm
  obtain ⟨url',-,hu⟩ := map_eq_some_iff.mp hp
  have ht : call.2 = now := by simpa [createdLog] using congrArg SponsorHomePage.logs hu
  exact hn (ht ▸ mem_map_of_mem hc)

theorem addHomePage_eq {field : SponsorField HomePages} {sponsorName r url : String}
    {now : Date} {net : Network} (hl : net.isLocked = true)
    (hs : net.getSponsorByName sponsorName = some sponsor)
    (hn : ⟨r,url,createdLog now⟩ ∉ pagesOf (field.get sponsor) r) :
    addHomePage field sponsorName r url now net =
      .ok { net.setSponsorField field sponsor.id (putPages r
          (pagesOf (field.get sponsor) r ++ [⟨r,url,createdLog now⟩]) (field.get sponsor)) with
        deployDataRequiredForAll := true } := by
  simp only [addHomePage,hl,pyAssert,if_true,hs,attributeOf,pagesOf]
  exact if_neg hn

theorem removeSponsorHomePage_eq {sponsorName r url : String} {now : Date} {net : Network}
    (hl : net.isLocked = true) (hs : net.getSponsorByName sponsorName = some sponsor)
    (hn : ⟨r,url,createdLog now⟩ ∉ pagesOf sponsor.homePages r) :
    removeSponsorHomePage sponsorName r url now net = .ok net := by
  simp only [removeSponsorHomePage,hl,pyAssert,if_true,hs,attributeOf]
  exact if_neg hn

structure Written (sponsorName : String) (calls : List (PageCall × Date)) (net : Network) :
    Prop where
  locked : net.isLocked = true
  sponsor : ∃ sponsor, net.getSponsorByName sponsorName = some sponsor ∧ HasAll calls sponsor

section Calls

variable {sponsorName : String} {calls : List (PageCall × Date)} {net : Network}

theorem Written.set (h : Written sponsorName calls net) {now : Date}
    (hn : now ∉ calls.map snd) (list : PageList) (r url : String) :
    ∃ net', addHomePage list.field sponsorName r url now net = .ok net' ∧
      Written sponsorName (calls ++ [(.set list r url, now)]) net' := by
  obtain ⟨hl,sponsor,hs,ha⟩ := h
  refine ⟨_,addHomePage_eq hl hs (ha.notMem hn list r url),hl,_,
    getSponsorByName_setSponsorField list.field_keepsName hs _,fun list' r' => ?_⟩
  rw [PageList.get_set,filterMap_append,← ha]
  by_cases hli : list = list'
  · subst hli
    rw [if_pos rfl,pagesOf_putPages]
    by_cases hr : r' = r
    · subst hr
      simp [PageCall.page?,PageCall.url?]
    · simp [PageCall.page?,PageCall.url?,hr,Ne.symm hr]
  · simp [PageCall.page?,PageCall.url?,hli]

/-- A call at a new time adds its page, if it has one, and does nothing else. -/
theorem Written.apply (h : Written sponsorName calls net) {call : PageCall × Date}
    (hn : call.2 ∉ calls.map snd) : ∃ net', PageCall.apply sponsorName net call = .ok net' ∧
      Written sponsorName (calls ++ [call]) net' := by
  obtain ⟨call,now⟩ := call
  cases call with
  | set list r url =>
    obtain ⟨net',hset,h'⟩ := h.set hn list r url
    exact ⟨net',by cases list <;> exact hset,h'⟩
  | remove r url =>
    obtain ⟨hl,sponsor,hs,ha⟩ := h
    refine ⟨net,removeSponsorHomePage_eq hl hs (ha.notMem hn .home r url),
      hl,sponsor,hs,fun list r' => ?_⟩
    rw [filterMap_append,← ha]
    exact (append_nil _).symm

theorem Written.applyCalls {b : List (PageCall × Date)} (h : Written sponsorName b net)
    (hn : ((b ++ calls).map snd).Nodup) :
    ∃ net', Ops.applyCalls sponsorName net calls = .ok net' ∧
      Written sponsorName (b ++ calls) net' := by
  induction calls generalizing b net with
  | nil => exact ⟨net,rfl,(append_nil b).symm ▸ h⟩
  | cons call calls ih =>
    have hc : call.2 ∉ b.map snd := by
      rw [map_append,map_cons] at hn
      exact fun hm => (nodup_append.mp hn).2.2 _ hm _ (.head _) rfl
    obtain ⟨net₁,ha,h₁⟩ := h.apply hc
    obtain ⟨net₂,hr,h₂⟩ := ih h₁ (by simpa using hn)
    refine ⟨net₂,?_,by simpa using h₂⟩
    rw [Ops.applyCalls,foldlM_cons,ha]
    exact hr

end Calls

/-! ### Sets of urls -/

def urlsOf (list : PageList) (sponsor : Sponsor) (region : String) : List String :=
  (pagesOf (list.field.get sponsor) region).map SponsorHomePage.url

/-- The home page was set and not removed after that. -/
def SetAndKept (calls : List PageCall) (region url : String) : Prop :=
  ∃ before after, calls = before ++ .set .home region url :: after ∧ .remove region url ∉ after

/-- The lists hold what is set and not removed, once. -/
structure ActsAsSet (calls : List PageCall) (sponsor : Sponsor) : Prop where
  nodup : ∀ list region, (urlsOf list sponsor region).Nodup
  home : ∀ region url, url ∈ urlsOf .home sponsor region ↔ SetAndKept calls region url
  mobile : ∀ region url, url ∈ urlsOf .mobile sponsor region ↔ .set .mobile region url ∈ calls

/-- No page is set twice, and no home page is removed after it was set. -/
structure SetOnce (calls : List PageCall) : Prop where
  once : ∀ list region url, calls.count (.set list region url) ≤ 1
  kept : ∀ before after region url,
    calls = before ++ .set .home region url :: after → .remove region url ∉ after

theorem HasAll.urlsOf_eq (h : HasAll calls sponsor) (list : PageList) (r : String) :
    urlsOf list sponsor r = (calls.map fst).filterMap (PageCall.url? list r) := by
  rw [urlsOf,h,map_filterMap,filterMap_map]
  refine filterMap_congr fun call _ => ?_
  rw [PageCall.page?,Option.map_map,Function.comp_apply]
  exact Option.map_id'

theorem PageCall.url?_eq_some_iff {list : PageList} {r url : String} {call : PageCall} :
    call.url? list r = some url ↔ call = .set list r url := by
  cases call with
  | set list' r' url' => simp [PageCall.url?,and_assoc]
  | remove r' url' => simp [PageCall.url?]

theorem mem_urls_iff {calls : List PageCall} {list : PageList} {r url : String} :
    url ∈ calls.filterMap (PageCall.url? list r) ↔ .set list r url ∈ calls := by
  simp [mem_filterMap,PageCall.url?_eq_some_iff]

theorem count_urls (calls : List PageCall) (list : PageList) (r url : String) :
    (calls.filterMap (PageCall.url? list r)).count url = calls.count (.set list r url) := by
  rw [count_filterMap,List.count]
  refine countP_congr fun call _ => ?_
  rw [beq_iff_eq,beq_iff_eq,PageCall.url?_eq_some_iff]

theorem after_eq_of_once {calls b after b' after' : List PageCall} {call : PageCall}
    (ho : calls.count call ≤ 1) (h : calls = b ++ call :: after)
    (h' : calls = b' ++ call :: after') : after = after' := by
  rw [h,count_append,count_cons_self] at ho
  have hb : call ∉ b := count_eq_zero.mp (by omega)
  have ha : call ∉ after := count_eq_zero.mp (by omega)
  exact ((append_cons_inj_of_notMem hb ha).mp (h.symm.trans h')).2.2

theorem actsAsSet_iff_setOnce (h : HasAll calls sponsor) :
    ActsAsSet (calls.map fst) sponsor ↔ SetOnce (calls.map fst) := by
  have hmem (list : PageList) (r url : String) :
      url ∈ urlsOf list sponsor r ↔ .set list r url ∈ calls.map fst := by
    rw [h.urlsOf_eq,mem_urls_iff]
  have hnd (list : PageList) (r : String) : (urlsOf list sponsor r).Nodup ↔
      ∀ url, (calls.map fst).count (.set list r url) ≤ 1 := by
    rw [h.urlsOf_eq,nodup_iff_count_le_one]
    exact forall_congr' fun url => by rw [count_urls]
  constructor
  · rintro ⟨hset,hh,-⟩
    have ho (list : PageList) (r : String) := (hnd list r).mp (hset list r)
    refine ⟨ho,fun b after r url hc => ?_⟩
    -- the page is in the list, so the one call that set it has no removal after it
    have hin : url ∈ urlsOf .home sponsor r := (hmem ..).mpr (hc ▸ by simp)
    obtain ⟨b',after',hc',hk⟩ := (hh r url).mp hin
    exact after_eq_of_once (ho .home r url) hc hc' ▸ hk
  · rintro ⟨ho,hk⟩
    refine ⟨fun list r => (hnd list r).mpr (ho list r),fun r url => ?_, hmem .mobile⟩
    rw [hmem]
    constructor
    · intro hin
      obtain ⟨b,after,hc⟩ := append_of_mem hin
      exact ⟨b,after,hc,hk b after r url hc⟩
    · rintro ⟨b,after,hc,-⟩
      rw [hc]
      simp

/-- After calls at different times the home pages of a sponsor are the set of the urls that were set
and not removed exactly when no page was set twice and none removed after it was set. -/
theorem homePages_actAsSet_iff {sponsorName : String} {net : Network} {sponsor : Sponsor}
    (hlocked : net.isLocked = true) (hsponsor : net.getSponsorByName sponsorName = some sponsor)
    (hhome : sponsor.homePages = ∅) (hmobile : sponsor.mobileHomePages = ∅)
    {calls : List (PageCall × Date)} (htimes : (calls.map snd).Nodup) :
    ∃ net' sponsor', applyCalls sponsorName net calls = .ok net' ∧
      net'.getSponsorByName sponsorName = some sponsor' ∧
      (ActsAsSet (calls.map fst) sponsor' ↔ SetOnce (calls.map fst)) := by
  have hs : HasAll [] sponsor := by
    intro list region
    have he : list.field.get sponsor = ∅ := by
      cases list
      · exact hhome
      · exact hmobile
    rw [he]
    rfl
  have hw : Written sponsorName [] net := ⟨hlocked,sponsor,hsponsor,hs⟩
  obtain ⟨net',ha,-,sponsor',hsponsor',hall⟩ := hw.applyCalls htimes
  exact ⟨net',sponsor',ha,hsponsor',actsAsSet_iff_setOnce hall⟩

def newSponsorNetwork : Network :=
  { Network.init with
    isLocked := true
    sponsors := (Table.empty Sponsor.id).add (newSponsor "1" "sponsor") }

theorem homePages_actAsSet_threeCalls :
    let calls : List (PageCall × Date) :=
      [(.set .home "CA" "a", 1),(.remove "CA" "b", 2),(.set .mobile "CA" "a", 3)]
    ∃ net' sponsor', applyCalls "sponsor" newSponsorNetwork calls = .ok net' ∧
      net'.getSponsorByName "sponsor" = some sponsor' ∧
      ActsAsSet (calls.map fst) sponsor' := by
  intro calls
  have ho : SetOnce (calls.map fst) := by
    refine ⟨fun list r url => nodup_iff_count_le_one.mp (by decide) _,?_⟩
    intro before after r url hc hr
    have hset : PageCall.set .home r url ∈ calls.map fst := hc ▸ by simp
    have hr : PageCall.remove r url ∈ calls.map fst := hc ▸ by simp [hr]
    grind
  obtain ⟨net',sponsor',ha,hs,hi⟩ := @homePages_actAsSet_iff "sponsor" newSponsorNetwork
    (newSponsor "1" "sponsor") rfl rfl rfl rfl calls (by decide)
  exact ⟨net',sponsor',ha,hs,hi.mpr ho⟩

theorem homePages_setTwice_removed :
    (∃ net' sponsor', applyCalls "sponsor" newSponsorNetwork
        [(.set .home "CA" "a", 1), (.set .home "CA" "a", 2)] = .ok net' ∧
      net'.getSponsorByName "sponsor" = some sponsor' ∧
      ¬ActsAsSet [.set .home "CA" "a", .set .home "CA" "a"] sponsor') ∧
    ∃ net' sponsor', applyCalls "sponsor" newSponsorNetwork
        [(.set .home "CA" "a", 1), (.remove "CA" "a", 2)] = .ok net' ∧
      net'.getSponsorByName "sponsor" = some sponsor' ∧
      ¬ActsAsSet [.set .home "CA" "a", .remove "CA" "a"] sponsor' := by
  refine ⟨⟨_,_,rfl,rfl,fun h => absurd (h.nodup .home "CA") (by decide +kernel)⟩,
    _,_,rfl,rfl,fun h => ?_⟩
  obtain ⟨before,after,hc,hk⟩ := (h.home "CA" "a").mp (by decide +kernel)
  have ha := after_eq_of_once (by decide) (nil_append _).symm hc
  exact hk (ha ▸ mem_singleton.mpr rfl)

/-! ### Regexes -/

/-- With different regexes the records popped are those that match. -/
theorem popMatches_eq {regex : String} {r : List SponsorRegex}
    (h : (r.map SponsorRegex.regex).Nodup) : popMatches regex r =
      (r.filter fun rx => rx.regex == regex, r.filter fun rx => rx.regex != regex) := by
  induction r using popMatches.induct regex with
  | case1 => rfl
  | case2 rx hrx =>
    rw [beq_iff_eq] at hrx
    simp [popMatches,hrx]
  | case3 rx hrx =>
    rw [beq_iff_eq] at hrx
    simp [popMatches,hrx]
  | case4 rx next rest hrx ih =>
    -- the records that follow do not match, so the one that is passed over does not
    rw [beq_iff_eq] at hrx
    subst hrx
    obtain ⟨hn,hnd⟩ := nodup_cons.mp h
    have hne : ∀ o ∈ next :: rest, o.regex ≠ rx.regex := fun o ho heq =>
      hn (heq ▸ mem_map_of_mem ho)
    have hnext := hne next (.head _)
    simp [popMatches,ih (nodup_cons.mp hnd).2,hnext]
  | case5 rx next rest hrx ih =>
    rw [beq_iff_eq] at hrx
    simp [popMatches,ih (nodup_cons.mp h).2,hrx]

section Removal

variable {field : SponsorField (List SponsorRegex)} {sponsorName regex : String} {w : World}
  {sponsor : Sponsor} (hl : w.net.isLocked = true)
  (hs : w.net.getSponsorByName sponsorName = some sponsor)
  (hnd : ((field.get sponsor).map SponsorRegex.regex).Nodup)

include hl hs

theorem removeRegex_eq : removeRegex field sponsorName regex w =
    if (popMatches regex (field.get sponsor)).1 ≠ [] then .error (.raised .valueError)
      { w with
        net := w.net.setSponsorField field sponsor.id (popMatches regex (field.get sponsor)).2 }
    else .ok () w := by
  have hf : attributeOf (w.net.getSponsorByName sponsorName) = .ok sponsor := by
    rw [hs]
    rfl
  rw [removeRegex,Hoare.get_bind,locked_bind hl,raisePy_bind_of_ok hf]
  split <;> rfl

include hnd

theorem removeRegex_of_notMem (hn : ∀ rx ∈ field.get sponsor, rx.regex ≠ regex) :
    removeRegex field sponsorName regex w = .ok () w := by
  rw [removeRegex_eq hl hs,popMatches_eq hnd,if_neg]
  rw [not_not,filter_eq_nil_iff]
  exact fun rx hrx h => hn rx hrx (beq_iff_eq.mp h)

theorem removeRegex_of_mem {rx : SponsorRegex} (hrx : rx ∈ field.get sponsor) :
    removeRegex field sponsorName rx.regex w = .error (.raised .valueError)
      { w with
        net := w.net.setSponsorField field sponsor.id
          ((field.get sponsor).filter fun o => o.regex != rx.regex) } := by
  rw [removeRegex_eq hl hs,popMatches_eq hnd,if_pos]
  exact ne_nil_of_mem (mem_filter.mpr ⟨hrx,beq_self_eq_true _⟩)

/-- The removal ends, takes out the record with the regex and no other, and marks the data for
deployment exactly when there was one. -/
def RemovesCleanly (field : SponsorField (List SponsorRegex))
    (remove : String → String → Script Unit) (sponsorName regex : String) (w : World)
    (sponsor : Sponsor) : Prop :=
  ∃ w' sponsor', remove sponsorName regex w = .ok () w' ∧
    w'.net.getSponsorByName sponsorName = some sponsor' ∧
    field.get sponsor' = (field.get sponsor).filter (fun rx => rx.regex != regex) ∧
    w'.net.deployDataRequiredForAll =
      (w.net.deployDataRequiredForAll || (field.get sponsor).any fun rx => rx.regex == regex)

theorem removesCleanly_iff (regex : String) :
    RemovesCleanly field (removeRegex field) sponsorName regex w sponsor ↔
      ∀ rx ∈ field.get sponsor, rx.regex ≠ regex := by
  constructor
  · rintro ⟨w',sponsor',hr,-⟩ rx hrx rfl
    rw [removeRegex_of_mem hl hs hnd hrx] at hr
    cases hr
  · intro hn
    refine ⟨w,sponsor,removeRegex_of_notMem hl hs hnd hn,hs,?_,?_⟩
    · exact (filter_eq_self.mpr fun rx hrx => bne_iff_ne.mpr (hn rx hrx)).symm
    · rw [any_eq_false.mpr fun rx hrx h => hn rx hrx (beq_iff_eq.mp h),Bool.or_false]

/-- A new regex is set and removed again: the list is as before, but the removal raises. -/
def RestoredByRaising (field : SponsorField (List SponsorRegex))
    (set : String → String → String → Date → Network → Py Network)
    (remove : String → String → Script Unit) (sponsorName regex replace : String) (now : Date)
    (w : World) (sponsor : Sponsor) : Prop :=
  ∃ net' w' sponsor', set sponsorName regex replace now w.net = .ok net' ∧
    remove sponsorName regex { w with net := net' } = .error (.raised .valueError) w' ∧
    w'.net.getSponsorByName sponsorName = some sponsor' ∧ field.get sponsor' = field.get sponsor

theorem restoredByRaising (hf : field.KeepsName)
    (hget : ∀ r sponsor, field.get (field.set r sponsor) = r)
    (hnone : ∀ rx ∈ field.get sponsor, rx.regex ≠ regex) (replace : String) (now : Date) :
    RestoredByRaising field (addRegex field) (removeRegex field) sponsorName regex replace now w
      sponsor := by
  let rx : SponsorRegex := ⟨regex,replace,createdLog now⟩
  let net' : Network :=
    { w.net.setSponsorField field sponsor.id (field.get sponsor ++ [rx]) with
      deployDataRequiredForAll := true }
  have hset : addRegex field sponsorName regex replace now w.net = .ok net' := by
    have hany : ((field.get sponsor).any fun rx => rx.regex == regex) = false :=
      any_eq_false.mpr fun rx hrx h => hnone rx hrx (beq_iff_eq.mp h)
    simp only [addRegex,hl,pyAssert,if_true,hs,attributeOf]
    exact if_neg (Bool.eq_false_iff.mp hany)
  have hs' : net'.getSponsorByName sponsorName =
      some (field.set (field.get sponsor ++ [rx]) sponsor) :=
    getSponsorByName_setSponsorField hf hs _
  have hnd' : ((field.get (field.set (field.get sponsor ++ [rx]) sponsor)).map
      SponsorRegex.regex).Nodup := by
    rw [hget,map_append]
    refine hnd.append (nodup_singleton _) ?_
    simpa [rx] using hnone
  have hmem : rx ∈ field.get (field.set (field.get sponsor ++ [rx]) sponsor) := by
    rw [hget]
    exact mem_append_right _ (mem_singleton.mpr rfl)
  refine ⟨net',_,_,hset,removeRegex_of_mem (w := { w with net := net' }) hl hs'
    hnd' hmem,getSponsorByName_setSponsorField hf hs' _,?_⟩
  rw [hget,hget,filter_append]
  have hkept : (field.get sponsor).filter (fun o => o.regex != regex) = field.get sponsor :=
    filter_eq_self.mpr fun o ho => bne_iff_ne.mpr (hnone o ho)
  rw [hkept]
  simp [rx]

end Removal

/-- With different regexes in each list, the removals are clean exactly when there is nothing to
remove; a new regex that is set and removed leaves the list as it was, by an exception. -/
theorem removeSponsorRegex_clean_iff {w : World} {sponsorName : String} {sponsor : Sponsor}
    (hlocked : w.net.isLocked = true)
    (hsponsor : w.net.getSponsorByName sponsorName = some sponsor)
    (hpage : (sponsor.pageViewRegexes.map SponsorRegex.regex).Nodup)
    (hhttps : (sponsor.httpsRequestRegexes.map SponsorRegex.regex).Nodup) (regex : String) :
    (RemovesCleanly pageViewRegexesField removeSponsorPageViewRegex sponsorName regex w sponsor ↔
      ∀ rx ∈ sponsor.pageViewRegexes, rx.regex ≠ regex) ∧
    (RemovesCleanly httpsRequestRegexesField removeSponsorHttpsRequestRegex sponsorName regex w
        sponsor ↔
      ∀ rx ∈ sponsor.httpsRequestRegexes, rx.regex ≠ regex) ∧
    ∀ replace now,
      ((∀ rx ∈ sponsor.pageViewRegexes, rx.regex ≠ regex) →
        RestoredByRaising pageViewRegexesField setSponsorPageViewRegex removeSponsorPageViewRegex
          sponsorName regex replace now w sponsor) ∧
      ((∀ rx ∈ sponsor.httpsRequestRegexes, rx.regex ≠ regex) →
        RestoredByRaising httpsRequestRegexesField setSponsorHttpsRequestRegex
          removeSponsorHttpsRequestRegex sponsorName regex replace now w sponsor) := by
  refine ⟨removesCleanly_iff hlocked hsponsor hpage regex,
    removesCleanly_iff hlocked hsponsor hhttps regex,fun replace now => ⟨fun h => ?_,fun h => ?_⟩⟩
  · exact restoredByRaising hlocked hsponsor hpage (fun _ _ => rfl) (fun _ _ => rfl) h replace now
  · exact restoredByRaising hlocked hsponsor hhttps (fun _ _ => rfl) (fun _ _ => rfl) h replace now

def oneRegexWorld : World where
  net :=
    { Network.init with
      isLocked := true
      sponsors := (Table.empty Sponsor.id).add
        { newSponsor "1" "sponsor" with
          pageViewRegexes := [⟨"a", "b", []⟩]
          httpsRequestRegexes := [⟨"a", "b", []⟩] } }
  saved := .init
  sent := fun _ => none
  done := []
  calls := 0

theorem removeSponsorRegex_clean_otherRegex :
    ∃ sponsor, oneRegexWorld.net.getSponsorByName "sponsor" = some sponsor ∧
      RemovesCleanly pageViewRegexesField removeSponsorPageViewRegex "sponsor" "c" oneRegexWorld
        sponsor ∧
      RemovesCleanly httpsRequestRegexesField removeSponsorHttpsRequestRegex "sponsor" "c"
        oneRegexWorld sponsor := by
  obtain ⟨hcl,hc,-⟩ := @removeSponsorRegex_clean_iff oneRegexWorld "sponsor" _ rfl rfl (by decide)
    (by decide) "c"
  exact ⟨_,rfl,hcl.mpr (by decide),hc.mpr (by decide)⟩

theorem removeSponsorPageViewRegex_raises : ∃ sponsor w',
    oneRegexWorld.net.getSponsorByName "sponsor" = some sponsor ∧
    (sponsor.pageViewRegexes.map SponsorRegex.regex).Nodup ∧
    removeSponsorPageViewRegex "sponsor" "a" oneRegexWorld = .error (.raised .valueError) w' ∧
    w'.net.deployDataRequiredForAll = false ∧
    ¬RemovesCleanly pageViewRegexesField removeSponsorPageViewRegex "sponsor" "a" oneRegexWorld
      sponsor := by
  refine ⟨_,_,rfl,by decide,rfl,rfl,?_⟩
  rintro ⟨w',sponsor',hr,-⟩
  cases hr

end Psiphon.Ops
