import Psiphon.Lib.Digits
import Mathlib.Data.List.OfFn
import Mathlib.Data.Fin.VecNotation

/-!
# The client address strategy value

The value that `meek-server.go` and `psi_ops_discovery.py` compute. Only the web server drops the
last octet of the address first.
-/

namespace Psiphon.Discovery

open List

abbrev Text := List Char

/-- HMAC-SHA256 as a function of the key and the message; a digest has 32 bytes. -/
abbrev Hmac := Text → Text → Fin 32 → UInt8

/-- `psi_ops_discovery.calculate_ip_address_strategy_value`'s form of the address; `none`
stands for an argument that is no string, on which `split` raises. -/
def truncatedIpAddress : Option Text → Text
  | some ipAddress => ['.'].intercalate ((ipAddress.splitOn '.').take 3) ++ ['.', '0']
  | none => "0.0.0.0".toList

def calculateIpAddressStrategyValue (hmac : Hmac) (hmacKey : Text) (ipAddress : Option Text) : ℕ :=
  (hmac hmacKey (truncatedIpAddress ipAddress) 0).toNat

/-- The meek server's `calculateClientIpAddressStrategyValue`. -/
def calculateClientIpAddressStrategyValue (hmac : Hmac) (hmacKey : Text) (ipAddress : Text) : ℕ :=
  (hmac hmacKey ipAddress 0).toNat

def updateRedis (hmac : Hmac) (hmacKey : Text) (ipAddress : Text) : Option ℕ :=
  if ipAddress.length > 0 then
    some (calculateClientIpAddressStrategyValue hmac hmacKey ipAddress)
  else none

/-! ### Dotted quads -/

structure Ipv4 where
  octets : Fin 4 → Fin 256

namespace Ipv4

def dotted (ip : Ipv4) : Text :=
  ['.'].intercalate ((List.ofFn ip.octets).map fun octet => Nat.toDigits 10 octet.val)

def network (ip : Ipv4) : Ipv4 := ⟨fun i => if i = 3 then 0 else ip.octets i⟩

theorem splitOn_dotted (ip : Ipv4) : ip.dotted.splitOn '.' =
    (List.ofFn ip.octets).map fun o => Nat.toDigits 10 o.val := by
  refine splitOn_intercalate '.' (fun l hl => ?_) (by simp [ofFn_succ])
  obtain ⟨o,_,rfl⟩ := mem_map.mp hl
  exact Digits.notMem_toDigits rfl o.val

theorem dotted_injective : Function.Injective dotted := fun a b h => by
  have hs := congrArg (List.splitOn '.') h
  rw [splitOn_dotted,splitOn_dotted] at hs
  rw [map_inj_right fun x y hxy => Fin.val_injective (Digits.toDigits_injective hxy)] at hs
  cases a
  cases b
  exact congrArg mk (ofFn_injective hs)

theorem dotted_ne_nil (ip : Ipv4) : ip.dotted ≠ [] := fun h => by
  have hs := congrArg List.length ip.splitOn_dotted
  rw [h] at hs
  simp at hs

/-- The web server hashes the network of the address. -/
theorem truncatedIpAddress_dotted (ip : Ipv4) :
    truncatedIpAddress (some ip.dotted) = ip.network.dotted := by
  show ['.'].intercalate ((ip.dotted.splitOn '.').take 3) ++ ['.','0'] = ip.network.dotted
  rw [splitOn_dotted]
  simp [dotted,network,ofFn_succ]

theorem network_eq_self_iff (ip : Ipv4) : ip.network = ip ↔ ip.octets 3 = 0 := by
  refine ⟨fun h => ?_,fun h => ?_⟩
  · rw [← h]
    rfl
  · refine congrArg mk (funext fun i => ?_)
    split
    · next hi => rw [hi,h]
    · rfl

end Ipv4

/-! ### The two front ends -/

/-- Two messages have one strategy value under every HMAC exactly when they are equal. -/
theorem strategyValue_eq_iff (hmacKey a b : Text) :
    (∀ hmac, calculateClientIpAddressStrategyValue hmac hmacKey a =
      calculateClientIpAddressStrategyValue hmac hmacKey b) ↔ a = b := by
  refine ⟨fun h => ?_,fun h _ => by rw [h]⟩
  have hab := h fun _ m _ => if m = a then 1 else 0
  by_contra hne
  simp [calculateClientIpAddressStrategyValue,Ne.symm hne] at hab

/-- The web server computes what the meek server computes for the network. -/
theorem calculateIpAddressStrategyValue_dotted (hmac : Hmac) (hmacKey : Text) (ip : Ipv4) :
    calculateIpAddressStrategyValue hmac hmacKey (some ip.dotted) =
      calculateClientIpAddressStrategyValue hmac hmacKey ip.network.dotted := by
  rw [calculateIpAddressStrategyValue,Ipv4.truncatedIpAddress_dotted]
  rfl

theorem updateRedis_dotted (hmac : Hmac) (hmacKey : Text) (ip : Ipv4) :
    updateRedis hmac hmacKey ip.dotted =
      some (calculateClientIpAddressStrategyValue hmac hmacKey ip.dotted) :=
  if_pos (length_pos_iff.mpr ip.dotted_ne_nil)

def Agrees (hmac : Hmac) (hmacKey : Text) (ip : Ipv4) : Prop :=
  updateRedis hmac hmacKey ip.dotted =
    some (calculateIpAddressStrategyValue hmac hmacKey (some ip.dotted))

def Shared (hmac : Hmac) (hmacKey : Text) (p q : Ipv4) : Prop :=
  updateRedis hmac hmacKey p.dotted = updateRedis hmac hmacKey q.dotted ∧
    calculateIpAddressStrategyValue hmac hmacKey (some p.dotted) =
      calculateIpAddressStrategyValue hmac hmacKey (some q.dotted)

theorem agrees_iff (hmacKey : Text) (ip : Ipv4) :
    (∀ hmac, Agrees hmac hmacKey ip) ↔ ip.octets 3 = 0 := by
  simp only [Agrees,updateRedis_dotted,calculateIpAddressStrategyValue_dotted,
    Option.some.injEq,strategyValue_eq_iff,Ipv4.dotted_injective.eq_iff]
  rw [eq_comm,ip.network_eq_self_iff]

/-- Over every HMAC, the front ends agree on two addresses of one network and give both
one value exactly when the last octet of each is 0. -/
theorem front_ends_agree_iff (hmacKey : Text) (p q : Ipv4) (hpq : p.network = q.network) :
    (∀ hmac, Agrees hmac hmacKey p ∧ Agrees hmac hmacKey q ∧ Shared hmac hmacKey p q) ↔
      p.octets 3 = 0 ∧ q.octets 3 = 0 := by
  rw [← agrees_iff hmacKey p,← agrees_iff hmacKey q]
  refine ⟨fun h => ⟨fun hmac => (h hmac).1,fun hmac => (h hmac).2.1⟩,fun ⟨hp,hq⟩ hmac => ?_⟩
  have hs : calculateIpAddressStrategyValue hmac hmacKey (some p.dotted) =
      calculateIpAddressStrategyValue hmac hmacKey (some q.dotted) := by
    rw [calculateIpAddressStrategyValue_dotted,calculateIpAddressStrategyValue_dotted,hpq]
  have hst : updateRedis hmac hmacKey p.dotted = updateRedis hmac hmacKey q.dotted :=
    calc updateRedis hmac hmacKey p.dotted
      _ = some (calculateIpAddressStrategyValue hmac hmacKey (some p.dotted)) := hp hmac
      _ = some (calculateIpAddressStrategyValue hmac hmacKey (some q.dotted)) :=
        congrArg some hs
      _ = updateRedis hmac hmacKey q.dotted := (hq hmac).symm
  exact ⟨hp hmac,hq hmac,hst,hs⟩

def privateAddress (octet : Fin 256) : Ipv4 := ⟨![10, 0, 0, octet]⟩

theorem front_ends_agree_on_network_address :
    (privateAddress 0).octets 3 = 0 ∧ ∀ hmac, Agrees hmac "key".toList (privateAddress 0) :=
  ⟨rfl,fun hmac => ((front_ends_agree_iff _ (privateAddress 0) (privateAddress 0) rfl).mpr
    ⟨rfl,rfl⟩ hmac).1⟩

/-- Some HMAC tells 10.0.0.7 from its network, so that the front ends differ on it, and
the meek server gives 10.0.0.7 and 10.0.0.8 two values. -/
theorem front_ends_differ_on_host_address :
    ∃ hmac, ¬ Agrees hmac "key".toList (privateAddress 7) ∧
      ¬ Shared hmac "key".toList (privateAddress 7) (privateAddress 8) :=
  ⟨fun _ m _ => if m = "10.0.0.7".toList then 1 else 0,by unfold Agrees; decide,
    by unfold Shared; decide⟩

end Psiphon.Discovery
