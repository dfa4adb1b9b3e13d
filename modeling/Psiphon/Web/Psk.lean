import Mathlib.Data.List.Induction
import Psiphon.Discovery.StrategyValue
import Psiphon.Lib.Lines
import Psiphon.Lib.Runs
import Psiphon.Lib.Words
import Psiphon.Python

/-!
# The keys of the VPN

`set_psk` of `psi_psk.py` puts a new key for a server address into the file `ipsec.secrets`.
-/

namespace Psiphon.Psk

open List
open Discovery (Ipv4)
open Lines (IsLine lines)
open Runs (run Along)

abbrev Text := List Char

/-- `binascii.hexlify` -/
def hexlify (bytes : List UInt8) : Text :=
  bytes.flatMap fun b => [Nat.digitChar (b.toNat / 16), Nat.digitChar (b.toNat % 16)]

def pskHead (ipAddress : Text) : Text := ipAddress ++ " : PSK \"".toList

/-- `'%s : PSK "%s"\n' % (server_ip_address, psk)` -/
def pskLine (ipAddress psk : Text) : Text := pskHead ipAddress ++ psk ++ "\"\n".toList

/-- One round of the loop over the lines, with `newlines` and `found`; `line.find(address) == 0`
says that the line starts with the address. -/
def visitLine (ipAddress newline : Text) (acc : List Text × Bool) (line : Text) :
    List Text × Bool :=
  if ipAddress.isPrefixOf line then (acc.1 ++ [newline], true) else (acc.1 ++ [line], acc.2)

/-- `set_psk`, on the content of the file if there is one. When the file cannot be opened, closing
it raises in its turn. -/
def setPsk (ipAddress psk : Text) : Option Text → Py Text
  | none => .error .unboundLocalError
  | some content =>
    let newline := pskLine ipAddress psk
    let (newlines, found) := (lines '\n' content).foldl (visitLine ipAddress newline) ([], false)
    .ok (if found then newlines else newlines ++ [newline]).flatten

structure Call where
  address : Ipv4
  random : List UInt8

def Call.ipAddress (call : Call) : Text := call.address.dotted

def Call.psk (call : Call) : Text := hexlify call.random

def step (content : Text) (call : Call) : Option Text :=
  (setPsk call.ipAddress call.psk (some content)).toOption

/-! ### What a call writes -/

theorem foldl_visitLine (ipAddress newline : Text) (ls : List Text) (acc : List Text × Bool) :
    ls.foldl (visitLine ipAddress newline) acc =
      (acc.1 ++ ls.map fun line => if ipAddress.isPrefixOf line then newline else line,
        acc.2 || ls.any fun line => ipAddress.isPrefixOf line) := by
  induction ls generalizing acc with
  | nil => simp
  | cons line ls ih =>
    rw [foldl_cons,ih,visitLine,map_cons,any_cons]
    split
    · next h => rw [h,Bool.true_or,Bool.or_true,append_assoc,singleton_append]
    · next h =>
      rw [Bool.eq_false_iff.mpr h,Bool.false_or,append_assoc,singleton_append]

/-- A line of the file with the key of the address. -/
def heads (ipAddress line : Text) : Bool :=
  (pskHead ipAddress).isPrefixOf line &&
    ("\"".toList.isSuffixOf (line.drop (pskHead ipAddress).length) ||
      "\"\n".toList.isSuffixOf (line.drop (pskHead ipAddress).length))

theorem heads_iff {ipAddress line : Text} : heads ipAddress line = true ↔
    ∃ key, line = pskHead ipAddress ++ key ++ "\"".toList ∨ line = pskLine ipAddress key := by
  rw [heads,Bool.and_eq_true,Bool.or_eq_true,List.isPrefixOf_iff_prefix,
    isSuffixOf_iff_suffix,isSuffixOf_iff_suffix]
  constructor
  · rintro ⟨⟨rest,rfl⟩,he⟩
    rw [drop_left] at he
    obtain ⟨key,rfl⟩ | ⟨key,rfl⟩ := he
    · exact ⟨key,.inl (append_assoc ..).symm⟩
    · exact ⟨key,.inr (append_assoc ..).symm⟩
  · rintro ⟨key,rfl | rfl⟩
    · rw [append_assoc,drop_left]
      exact ⟨prefix_append ..,.inl (suffix_append ..)⟩
    · rw [pskLine,append_assoc,drop_left]
      exact ⟨prefix_append ..,.inr (suffix_append ..)⟩

theorem isPrefixOf_of_heads {ipAddress line : Text} (h : heads ipAddress line = true) :
    ipAddress.isPrefixOf line = true := by
  have hh := (Bool.and_eq_true_iff.mp h).1
  rw [List.isPrefixOf_iff_prefix] at hh ⊢
  exact (prefix_append ..).trans hh

theorem heads_pskLine (ipAddress psk : Text) : heads ipAddress (pskLine ipAddress psk) = true :=
  heads_iff.mpr ⟨psk,.inr rfl⟩

/-! ### Addresses and keys -/

theorem notMem_dotted {c : Char} (hdot : c ≠ '.') (hd : c.isDigit = false) (a : Ipv4) :
    c ∉ a.dotted := by
  intro hc
  obtain rfl | ⟨part,hp,hc⟩ := Words.mem_intercalate hc
  · exact hdot rfl
  · obtain ⟨octet,-,rfl⟩ := mem_map.mp hp
    rw [Nat.isDigit_of_mem_toDigits (by decide) (by decide) hc] at hd
    cases hd

variable {line : Text}

theorem eq_of_heads {a b : Ipv4} (ha : heads a.dotted line = true)
    (hb : heads b.dotted line = true) :
    a = b := by
  have hs : ∀ address : Ipv4, heads address.dotted line = true →
      line.takeWhile (· ≠ ' ') = address.dotted := by
    intro address h
    have hh := (Bool.and_eq_true_iff.mp h).1
    rw [List.isPrefixOf_iff_prefix] at hh
    obtain ⟨rest,rfl⟩ := hh
    have hsp : ∀ c ∈ address.dotted, decide (c ≠ ' ') = true := fun c hc => by
      refine decide_eq_true fun h => ?_
      subst h
      exact notMem_dotted (by decide) (by decide) address hc
    rw [pskHead,append_assoc,takeWhile_append_of_pos hsp]
    simp
  exact Ipv4.dotted_injective ((hs a ha).symm.trans (hs b hb))

theorem newline_notMem_hexlify (bytes : List UInt8) : '\n' ∉ hexlify bytes := by
  have hd : ∀ n < 16, '\n' ≠ Nat.digitChar n := by decide
  intro h
  obtain ⟨b,-,hb⟩ := mem_flatMap.mp h
  have hlt := b.toNat_lt
  simp only [mem_cons,not_mem_nil,or_false] at hb
  obtain hb | hb := hb
  · exact hd _ (by omega) hb
  · exact hd _ (by omega) hb

theorem Call.isLine_pskLine (call : Call) : IsLine '\n' (pskLine call.ipAddress call.psk) := by
  refine ⟨pskHead call.ipAddress ++ call.psk ++ ['"'],?_,by simp [pskLine]⟩
  have ha : '\n' ∉ call.ipAddress := notMem_dotted (by decide) (by decide) _
  have hp : '\n' ∉ call.psk := newline_notMem_hexlify _
  simp [pskHead,ha,hp]

/-! ### One call -/

def Call.newline (call : Call) : Text := pskLine call.ipAddress call.psk

/-- The call replaces a line of the file. -/
def Call.found (call : Call) (content : Text) : Bool :=
  (lines '\n' content).any fun line => call.ipAddress.isPrefixOf line

/-- The line that the call leaves in the place of a line. -/
def Call.replace (call : Call) (line : Text) : Text :=
  if call.ipAddress.isPrefixOf line then call.newline else line

variable {call : Call}

theorem Call.isPrefixOf_of_found_false {c line : Text} (h : call.found c = false)
    (hl : line ∈ lines '\n' c) : call.ipAddress.isPrefixOf line = false :=
  Bool.eq_false_iff.mpr (any_eq_false.mp h line hl)

theorem Call.replace_eq_self (h : call.ipAddress.isPrefixOf line = false) :
    call.replace line = line :=
  if_neg (Bool.eq_false_iff.mp h)

theorem step_of_found {c : Text} (h : call.found c = true) :
    step c call = some ((lines '\n' c).map call.replace).flatten := by
  simp only [step,setPsk,foldl_visitLine,nil_append,Bool.false_or]
  rw [if_pos (show ((lines '\n' c).any _) = true from h)]
  rfl

theorem step_of_found_false {c : Text} (h : call.found c = false) :
    step c call = some (c ++ call.newline) := by
  have hs : ((lines '\n' c).map call.replace).flatten = c := by
    rw [map_congr_left fun line hl => call.replace_eq_self (call.isPrefixOf_of_found_false h hl),
      map_id',Lines.flatten_lines]
  simp only [step,setPsk,foldl_visitLine,nil_append,Bool.false_or]
  rw [if_neg (show ¬((lines '\n' c).any _) = true from Bool.eq_false_iff.mp h),
    flatten_append,flatten_singleton]
  exact congrArg (fun text => some (text ++ call.newline)) hs

theorem lines_map_replace (call : Call) (c : Text) :
    lines '\n' ((lines '\n' c).map call.replace).flatten = (lines '\n' c).map call.replace := by
  refine ((Lines.split_lines c).map fun line => ?_).lines_flatten
  rw [Call.replace]
  split
  · exact .inr call.isLine_pskLine
  · exact .inl rfl

theorem length_filter_map_replace_le {p : Text → Bool} (hn : p call.newline = false)
    (ls : List Text) : ((ls.map call.replace).filter p).length ≤ (ls.filter p).length := by
  rw [filter_map,length_map]
  refine List.Sublist.length_le (monotone_filter_right ls fun line hl => ?_)
  rw [Function.comp_apply,Call.replace] at hl
  split at hl
  · rw [hn] at hl
    cases hl
  · exact hl

theorem filter_map_replace_iff {p : Text → Bool} (hn : p call.newline = false) (ls : List Text) :
    (ls.map call.replace).filter p = ls.filter p ↔
      ∀ line ∈ ls, call.ipAddress.isPrefixOf line = true → p line = false := by
  induction ls with
  | nil => simp
  | cons line ls ih =>
    rw [map_cons,forall_mem_cons,← ih]
    cases hs : call.ipAddress.isPrefixOf line with
    | false =>
      rw [call.replace_eq_self hs]
      cases hl : p line <;> simp [hl]
    | true =>
      rw [Call.replace,if_pos hs,filter_cons_of_neg (by rw [hn]; decide)]
      cases hl : p line with
      | false => simp [hl]
      | true =>
        have hle := length_filter_map_replace_le hn ls
        rw [filter_cons_of_pos hl]
        refine ⟨fun h => ?_,fun h => absurd (h.1 rfl) (by decide)⟩
        rw [h,length_cons] at hle
        omega

/-! ### The keys in the file -/

/-- The line has the key of none of the addresses. -/
def untouched (calls : List Call) (line : Text) : Bool :=
  calls.all fun call => !heads call.ipAddress line

/-- The file has one line for every address of the calls, with the key of the last call for it, and
the other lines of the file before the calls. -/
structure Current (old : Text) (calls : List Call) (new : Text) : Prop where
  one : ∀ before call after, calls = before ++ call :: after →
    (∀ later ∈ after, later.address ≠ call.address) →
    (lines '\n' new).filter (heads call.ipAddress) = [pskLine call.ipAddress call.psk]
  others : (lines '\n' new).filter (untouched calls) = (lines '\n' old).filter (untouched calls)

/-- The call finds only the line of its address, or can write a line at the end of the file. -/
structure Exact (content : Text) (call : Call) : Prop where
  found : ∀ line ∈ lines '\n' content, call.ipAddress.isPrefixOf line = true →
    heads call.ipAddress line = true
  ends : call.found content = false → content = [] ∨ content.getLast? = some '\n'

instance Exact.decidable (content : Text) (call : Call) : Decidable (Exact content call) :=
  decidable_of_iff
    ((∀ line ∈ lines '\n' content, call.ipAddress.isPrefixOf line = true →
        heads call.ipAddress line = true) ∧
      (call.found content = false → content = [] ∨ content.getLast? = some '\n'))
    ⟨fun h => ⟨h.1, h.2⟩, fun h => ⟨h.found, h.ends⟩⟩

/-- Every address has at most one line. -/
def AtMostOne (content : Text) : Prop :=
  ∀ address : Ipv4, ((lines '\n' content).filter (heads address.dotted)).length ≤ 1

theorem heads_eq_false {a b : Ipv4} (hne : a ≠ b) (ha : heads a.dotted line = true) :
    heads b.dotted line = false :=
  Bool.eq_false_iff.mpr fun hb => hne (eq_of_heads ha hb)

theorem untouched_concat (calls : List Call) (call : Call) (line : Text) :
    untouched (calls ++ [call]) line = (untouched calls line && !heads call.ipAddress line) := by
  simp [untouched]

variable {calls : List Call}

theorem untouched_of_heads {a : Ipv4} (hn : ∀ call ∈ calls, call.address ≠ a)
    (h : heads a.dotted line = true) : untouched calls line = true := by
  refine all_eq_true.mpr fun call hc => ?_
  rw [Call.ipAddress,heads_eq_false (hn call hc).symm h]
  rfl

theorem filter_untouched_concat (calls : List Call) (call : Call) (ls : List Text) :
    ls.filter (untouched (calls ++ [call])) =
      (ls.filter (untouched calls)).filter fun line => !heads call.ipAddress line := by
  rw [filter_filter]
  exact filter_congr fun line _ => (untouched_concat calls call line).trans (Bool.and_comm ..)

theorem Call.untouched_newline (calls : List Call) (call : Call) :
    untouched (calls ++ [call]) call.newline = false := by
  rw [untouched_concat,Call.newline,heads_pskLine,Bool.not_true,Bool.and_false]

theorem exists_last_call (calls : List Call) (a : Ipv4) : (∀ call ∈ calls, call.address ≠ a) ∨
      ∃ b last after, calls = b ++ last :: after ∧ last.address = a ∧
        ∀ later ∈ after, later.address ≠ last.address := by
  induction calls using List.reverseRecOn with
  | nil => exact .inl fun _ h => (by cases h)
  | append_singleton calls call ih =>
    by_cases hc : call.address = a
    · exact .inr ⟨calls,call,[],rfl,hc,fun _ h => (by cases h)⟩
    · obtain hn | ⟨b,last,after,rfl,rfl,ha⟩ := ih
      · refine .inl fun o ho => ?_
        obtain ho | ho := mem_append.mp ho
        · exact hn o ho
        · exact mem_singleton.mp ho ▸ hc
      · refine .inr ⟨b,last,after ++ [call],by simp,rfl,fun later hl => ?_⟩
        obtain hl | hl := mem_append.mp hl
        · exact ha later hl
        · exact mem_singleton.mp hl ▸ hc

theorem Current.nil (c : Text) : Current c [] c where
  one before call after h := absurd h (by simp)
  others := rfl

theorem Current.atMostOne {old new : Text} (h : Current old calls new) (ho : AtMostOne old) :
    AtMostOne new := by
  intro a
  obtain hn | ⟨b,last,after,hc,rfl,ha⟩ := exists_last_call calls a
  · -- the lines of an address that was not called are among those that stayed
    have hs : ∀ c, (lines '\n' c).filter (heads a.dotted) =
        ((lines '\n' c).filter (untouched calls)).filter (heads a.dotted) := by
      intro c
      rw [filter_filter]
      refine filter_congr fun line _ => ?_
      cases hl : heads a.dotted line with
      | false => rfl
      | true => rw [untouched_of_heads hn hl,Bool.and_true]
    rw [hs,h.others,← hs]
    exact ho a
  · exact (h.one b last after hc ha).symm ▸ Nat.le_refl 1

theorem last_of_concat {calls b after : List Call} {call last : Call}
    (h : calls ++ [call] = b ++ last :: after)
    (ha : ∀ later ∈ after, later.address ≠ last.address) : (last = call ∧ b = calls) ∨
      ∃ between, after = between ++ [call] ∧ calls = b ++ last :: between ∧
        last.address ≠ call.address := by
  rcases eq_nil_or_concat' after with rfl | ⟨between,f,rfl⟩
  · obtain ⟨hb,hl⟩ := append_inj' h rfl
    exact .inl ⟨(List.cons.inj hl).1.symm,hb.symm⟩
  · have h' : calls ++ [call] = (b ++ last :: between) ++ [f] := by simpa using h
    obtain ⟨hc,hf⟩ := append_inj' h' rfl
    obtain rfl := (List.cons.inj hf).1
    exact .inr ⟨between,rfl,hc,(ha call (by simp)).symm⟩

/-- What a further call has to keep and to put into the file. -/
theorem current_concat_iff {old c new : Text} (h : Current old calls c) :
    Current old (calls ++ [call]) new ↔
      (lines '\n' new).filter (heads call.ipAddress) = [call.newline] ∧
      (∀ e ∈ calls, e.address ≠ call.address → (lines '\n' new).filter (heads e.ipAddress) =
          (lines '\n' c).filter (heads e.ipAddress)) ∧
      (lines '\n' new).filter (untouched (calls ++ [call])) =
        (lines '\n' c).filter (untouched (calls ++ [call])) := by
  have ho : (lines '\n' c).filter (untouched (calls ++ [call])) =
      (lines '\n' old).filter (untouched (calls ++ [call])) := by
    rw [filter_untouched_concat,filter_untouched_concat,h.others]
  rw [ho]
  constructor
  · intro hnew
    refine ⟨hnew.one calls call [] rfl fun _ h => (by cases h),fun e he hne => ?_, hnew.others⟩
    obtain hn | ⟨b,last,after,rfl,hla,ha⟩ :=
      exists_last_call calls e.address
    · exact absurd rfl (hn e he)
    · have hip : e.ipAddress = last.ipAddress := congrArg Ipv4.dotted hla.symm
      rw [← hla] at hne
      rw [hip]
      refine (hnew.one b last (after ++ [call]) (by simp) fun later hl => ?_).trans
        (h.one b last after rfl ha).symm
      obtain hl | hl := mem_append.mp hl
      · exact ha later hl
      · exact mem_singleton.mp hl ▸ hne.symm
  · rintro ⟨hca,he,hu⟩
    refine ⟨fun b last after hc ha => ?_,hu⟩
    obtain ⟨rfl,-⟩ | ⟨between,rfl,rfl,hne⟩ := last_of_concat hc ha
    · exact hca
    · rw [he last (by simp) hne]
      exact h.one b last between rfl fun later hl => ha later (mem_append_left _ hl)

theorem heads_iff_of_called (calls : List Call) (call : Call) (line : Text) :
    heads call.ipAddress line = true ↔
      (∀ e ∈ calls, e.address ≠ call.address → heads e.ipAddress line = false) ∧
        untouched (calls ++ [call]) line = false := by
  constructor
  · intro h
    refine ⟨fun e _ hne => heads_eq_false hne.symm h,?_⟩
    rw [untouched_concat,h,Bool.not_true,Bool.and_false]
  · rintro ⟨he,hu⟩
    by_contra h
    refine Bool.eq_false_iff.mp hu (all_eq_true.mpr fun o ho => ?_)
    have hf : heads o.ipAddress line = false := by
      by_cases hs : o.address = call.address
      · rw [Call.ipAddress,hs]
        exact Bool.eq_false_iff.mpr h
      · obtain ho | ho := mem_append.mp ho
        · exact he o ho hs
        · exact absurd (mem_singleton.mp ho ▸ rfl) hs
    rw [hf]
    rfl

theorem current_of_found_iff {old c : Text} (hold : AtMostOne old)
    (h : Current old calls c) (hf : call.found c = true) :
    Current old (calls ++ [call]) ((lines '\n' c).map call.replace).flatten ↔
      ∀ line ∈ lines '\n' c, call.ipAddress.isPrefixOf line = true →
        heads call.ipAddress line = true := by
  have hn : heads call.ipAddress call.newline = true := heads_pskLine ..
  rw [current_concat_iff h,lines_map_replace]
  constructor
  · rintro ⟨-,he,hu⟩ line hl hs
    rw [filter_map_replace_iff (call.untouched_newline calls)] at hu
    refine (heads_iff_of_called calls call line).mpr ⟨fun e hmem hne => ?_, hu line hl hs⟩
    exact (filter_map_replace_iff (heads_eq_false hne.symm hn) _).mp (he e hmem hne) line hl hs
  · intro hex
    refine ⟨?_,fun e hmem hne => ?_,?_⟩
    · -- the address has one line, and it is replaced
      have hh : ∀ line ∈ lines '\n' c,
          (heads call.ipAddress ∘ call.replace) line = heads call.ipAddress line := by
        intro line hl
        rw [Function.comp_apply,Call.replace]
        split
        · next hs => rw [hn,hex line hl hs]
        · rfl
      obtain ⟨line,hl,hs⟩ := any_eq_true.mp hf
      have hmem := mem_filter.mpr ⟨hl,hex line hl hs⟩
      rw [filter_map,filter_congr hh]
      obtain ⟨only,ho⟩ := length_eq_one_iff.mp
        (Nat.le_antisymm (h.atMostOne hold call.address) (length_pos_of_mem hmem))
      rw [Call.ipAddress] at hmem ⊢
      rw [ho] at hmem ⊢
      rw [← mem_singleton.mp hmem,map_singleton,Call.replace,if_pos hs]
    · refine (filter_map_replace_iff (heads_eq_false hne.symm hn) _).mpr ?_
      exact fun line hl hs => heads_eq_false hne.symm (hex line hl hs)
    · refine (filter_map_replace_iff (call.untouched_newline calls) _).mpr ?_
      exact fun line hl hs => ((heads_iff_of_called calls call line).mp (hex line hl hs)).2

theorem current_of_found_false_iff {old c : Text} (h : Current old calls c)
    (hfo : call.found c = false) : Current old (calls ++ [call]) (c ++ call.newline) ↔
      c = [] ∨ c.getLast? = some '\n' := by
  have hh : ∀ line ∈ lines '\n' c, heads call.ipAddress line = false := fun line hli =>
    Bool.eq_false_iff.mpr fun hli' => Bool.eq_false_iff.mp
      (call.isPrefixOf_of_found_false hfo hli) (isPrefixOf_of_heads hli')
  have hn : heads call.ipAddress call.newline = true := heads_pskLine ..
  have ht := Lines.flatten_lines '\n' c
  rw [← Lines.forall_isLine_iff,current_concat_iff h]
  constructor
  · rintro ⟨hc,-,-⟩
    obtain hall | ⟨first,last,hl,hfi,hne,hsep⟩ := (Lines.split_lines c).cases_last
    · exact hall
    · -- the new line would be the end of the last one
      exfalso
      have hnew : lines '\n' (c ++ call.newline) = first ++ [last ++ call.newline] := by
        rw [← ht,hl,flatten_concat,append_assoc]
        exact Lines.lines_concat hfi (Lines.isLine_append hsep call.isLine_pskLine)
      have hno : first.filter (heads call.ipAddress) = [] :=
        filter_eq_nil_iff.mpr fun line hli =>
          Bool.eq_false_iff.mp (hh line (hl ▸ mem_append_left _ hli))
      rw [hnew,filter_append,hno,nil_append,filter_singleton] at hc
      cases hla : heads call.ipAddress (last ++ call.newline) with
      | true =>
        rw [hla] at hc
        exact hne (append_cancel_right ((List.cons.inj hc).1.trans (nil_append _).symm))
      | false =>
        rw [hla] at hc
        cases hc
  · intro hall
    have hnew := Lines.lines_concat hall call.isLine_pskLine
    rw [ht,← Call.newline] at hnew
    have hf : ∀ p : Text → Bool, p call.newline = false →
        (lines '\n' c ++ [call.newline]).filter p = (lines '\n' c).filter p := by
      intro p hp
      rw [filter_append,filter_singleton,hp,cond_false,append_nil]
    rw [hnew]
    refine ⟨?_,fun earlier _ hne => hf _ (heads_eq_false hne.symm hn),
      hf _ (call.untouched_newline calls)⟩
    rw [filter_append,filter_eq_nil_iff.mpr fun line hli =>
      Bool.eq_false_iff.mp (hh line hli),filter_singleton,hn]
    rfl

/-- A call keeps the keys exactly when it finds only the line of its address and, where it finds
none, the last line of the file has ended. -/
theorem step_current_iff {old c new : Text} (ho : AtMostOne old)
    (h : Current old calls c) (hst : step c call = some new) :
    Current old (calls ++ [call]) new ↔ Exact c call := by
  cases hf : call.found c with
  | true =>
    obtain rfl := Option.some.inj ((step_of_found hf).symm.trans hst)
    rw [current_of_found_iff ho h hf]
    exact ⟨fun he => ⟨he,fun hfa => absurd (hf.symm.trans hfa) (by decide)⟩, fun he => he.found⟩
  | false =>
    obtain rfl := Option.some.inj ((step_of_found_false hf).symm.trans hst)
    rw [current_of_found_false_iff h hf]
    refine ⟨fun hen => ⟨fun line hl hs => ?_,fun _ => hen⟩, fun he => he.ends hf⟩
    exact absurd hs (Bool.eq_false_iff.mp (call.isPrefixOf_of_found_false hf hl))

theorem exists_run (old : Text) (calls : List Call) : ∃ new, run step old calls = some new := by
  induction calls generalizing old with
  | nil => exact ⟨old,rfl⟩
  | cons call calls ih =>
    obtain ⟨new,hn⟩ : ∃ new, step old call = some new := by
      cases hf : call.found old with
      | true => exact ⟨_,step_of_found hf⟩
      | false => exact ⟨_,step_of_found_false hf⟩
    obtain ⟨last,hl⟩ := ih new
    exact ⟨last,Runs.run_cons_eq_some.mpr ⟨new,hn,hl⟩⟩

/-- The file has one current key for each address after every call exactly when every call finds
only the line of its address and, where it finds none, the last line of the file has ended. -/
theorem current_iff_exact {old : Text} (hold : AtMostOne old) (calls : List Call) :
    (∀ before after, calls = before ++ after →
      ∃ new, run step old before = some new ∧ Current old before new) ↔
    Along step Exact old calls := by
  induction calls using List.reverseRecOn with
  | nil =>
    refine iff_of_true (fun before after h => ?_) trivial
    obtain ⟨rfl,-⟩ := append_eq_nil_iff.mp h.symm
    exact ⟨old,rfl,.nil old⟩
  | append_singleton calls call ih =>
    obtain ⟨c,hc⟩ := exists_run old calls
    obtain ⟨new,hnew⟩ := exists_run old (calls ++ [call])
    have hs : step c call = some new := by
      rw [Runs.run_append,hc] at hnew
      simpa [Runs.run_cons] using hnew
    rw [Runs.along_append,← ih]
    constructor
    · intro h
      have hca : ∀ before after, calls = before ++ after →
          ∃ new, run step old before = some new ∧ Current old before new :=
        fun before after hca => h before (after ++ [call]) (by rw [hca,append_assoc])
      refine ⟨hca,fun c' hc' => ?_⟩
      obtain rfl := Option.some.inj (hc.symm.trans hc')
      obtain ⟨_,hrun,hcu⟩ := hca calls [] (append_nil _).symm
      obtain rfl := Option.some.inj (hc.symm.trans hrun)
      obtain ⟨_,hrun',hcu'⟩ := h (calls ++ [call]) [] (append_nil _).symm
      obtain rfl := Option.some.inj (hnew.symm.trans hrun')
      exact ⟨(step_current_iff hold hcu hs).mp hcu',fun _ _ => trivial⟩
    · rintro ⟨hca,he⟩ before after h
      rcases eq_nil_or_concat' after with rfl | ⟨between,last,rfl⟩
      · obtain rfl := h.trans (append_nil _)
        obtain ⟨_,hrun,hcu⟩ := hca calls [] (append_nil _).symm
        obtain rfl := Option.some.inj (hc.symm.trans hrun)
        exact ⟨new,hnew,(step_current_iff hold hcu hs).mpr (he c hc).1⟩
      · rw [← append_assoc] at h
        exact hca before between (append_inj' h rfl).1

theorem current_afterTwoCalls :
    let old := "10.0.0.1 : PSK \"00\"\n".toList
    let calls : List Call := [⟨⟨![10, 0, 0, 1]⟩, [171]⟩, ⟨⟨![10, 0, 0, 2]⟩, [205]⟩]
    AtMostOne old ∧ Along step Exact old calls ∧ ∀ before after, calls = before ++ after →
      ∃ new, run step old before = some new ∧ Current old before new := by
  intro old calls
  have hold : AtMostOne old := fun address => by
    refine (length_filter_le ..).trans (Nat.le_of_eq ?_)
    decide +kernel
  have he : Along step Exact old calls := by decide +kernel
  exact ⟨hold,he,(current_iff_exact hold calls).mpr he⟩

theorem current_fails_startOfAddress :
    let other := "10.0.0.40 : PSK \"00\"\n".toList
    let unended := "include other.secrets".toList
    let call : Call := ⟨⟨![10, 0, 0, 4]⟩, [171]⟩
    AtMostOne other ∧ AtMostOne unended ∧
      (∃ new, run step other [call] = some new ∧ ¬Current other [call] new) ∧
      ∃ new, run step unended [call] = some new ∧ ¬Current unended [call] new := by
  refine ⟨fun a => ?_,fun a => ?_,⟨_,rfl,fun h => ?_⟩,_,rfl,fun h => ?_⟩
  · refine (length_filter_le ..).trans (Nat.le_of_eq ?_)
    decide +kernel
  · refine (length_filter_le ..).trans (Nat.le_of_eq ?_)
    decide +kernel
  · exact absurd h.others (by decide +kernel)
  · exact absurd h.others (by decide +kernel)

end Psiphon.Psk
