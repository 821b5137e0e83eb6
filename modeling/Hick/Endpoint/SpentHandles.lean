import Mathlib
import Hick.Endpoint.Handles
import Hick.Lib.Assoc

/-!
# Handles that are spent (endpoint/service.rs:330-372)

An endpoint numbers its services and stops at the last number, which it then gives to every service.
A printer that comes and goes often enough brings it there.
-/

namespace Hick
open Octets Wire Respond

def bareEndpoint (slots : List (Option (Route Uptime ZeroRng Slab)))
    (withdrawals : List (WithdrawalToken × WithdrawalItem Uptime)) (n : UInt32) (token : UInt64) :
    Endpoint Uptime ZeroRng ZeroRng Slab Slab :=
  { (.tryNew ⟨true, true, 0⟩ ⟨⟩ : Endpoint Uptime ZeroRng ZeroRng Slab Slab) with
    services := ⟨slots⟩
    nextServiceHandle := n
    withdrawals := withdrawals
    nextWithdrawalToken := token }

def printerRoute (handle : ServiceHandle) : Route Uptime ZeroRng Slab :=
  { (bareEndpoint [] [] 0 0).newRoute ServiceRecords.printer 0 (List.replicate 32 0) with
    handle := handle }

def leavingRoute (handle : ServiceHandle) : Route Uptime ZeroRng Slab :=
  { printerRoute handle with
    proto := (printerRoute handle).proto.quiesceForWithdrawal
    withdrawing := true }

def printerGoodbye (handle : ServiceHandle) : WithdrawalItem Uptime where
  records := (printerRoute handle).proto.withdrawalSnapshot.records
  owned := .both .default
  multicast := .both .default
  owed := .both 0
  nextAt := 0
  ceilingAt := (checkedAddDuration (0 : Uptime) withdrawalCeiling).getD 0
  finalAttempt := false
  route := some handle
  holdsName := false
  leftBy := handle

theorem bareEndpoint_serviceKey (r : Route Uptime ZeroRng Slab) (slots) (ws n token) :
    (bareEndpoint (some r :: slots) ws n token).serviceKey r.handle = some 0 := by
  change ((Slab.occupied 0 (some r :: slots)).find? fun kr => kr.2.handle == r.handle).map _ = _
  rw [Slab.occupied, List.find?_cons_of_pos (by simp)]
  rfl

theorem bareEndpoint_register (slots : List (Option (Route Uptime ZeroRng Slab)))
    (hslots : slots = [] ∨ slots = [none]) (n : UInt32) (token : UInt64) :
    (bareEndpoint slots [] n token).tryRegisterService ServiceRecords.printer 0 =
      (bareEndpoint [some (printerRoute ⟨n⟩)] [] (saturatingSucc32 n) token, .ok ⟨n⟩) := by
  rcases hslots with rfl | rfl <;> rfl

theorem bareEndpoint_unregister (rest) (n : UInt32) (token : UInt64) (h : ServiceHandle) :
    ∃ token', (bareEndpoint (some (printerRoute h) :: rest) [] n token).unregisterService h 0 =
      bareEndpoint (some (leavingRoute h) :: rest) [(⟨token⟩, printerGoodbye h)] n token' := by
  have hkey : (bareEndpoint (some (printerRoute h) :: rest) [] n token).serviceKey h = some 0 :=
    bareEndpoint_serviceKey (printerRoute h) rest [] n token
  refine ⟨if token = 18446744073709551615 then token else token + 1, ?_⟩
  unfold Endpoint.unregisterService
  rw [hkey]
  change Endpoint.beginWithdrawal (bareEndpoint (some (printerRoute h) :: rest) [] n token) h
    (printerRoute h).proto.withdrawalSnapshot 0 = _
  unfold Endpoint.beginWithdrawal
  rw [hkey]
  rfl

theorem bareEndpoint_drain (rest) (n : UInt32) (token token' : UInt64) (h : ServiceHandle) :
    (bareEndpoint (some (leavingRoute h) :: rest) [(⟨token⟩, printerGoodbye h)] n
      token').drainCompletedWithdrawals 0 = (bareEndpoint (none :: rest) [] n token', [h]) := by
  change Endpoint.drainToken 0 (bareEndpoint (some (leavingRoute h) :: rest)
    [(⟨token⟩, printerGoodbye h)] n token', []) ⟨token⟩ = _
  unfold Endpoint.drainToken
  have hfind : ([((⟨token⟩ : WithdrawalToken), printerGoodbye h)].find? fun tw => tw.1 == ⟨token⟩) =
      some (⟨token⟩, printerGoodbye h) := by simp
  have herase : ([((⟨token⟩ : WithdrawalToken), printerGoodbye h)].eraseP fun tw =>
      tw.1 == ⟨token⟩) = [] := by
    simp
  simp only [show (bareEndpoint (some (leavingRoute h) :: rest) [(⟨token⟩, printerGoodbye h)] n
    token').withdrawals = [((⟨token⟩ : WithdrawalToken), printerGoodbye h)] from rfl, hfind, herase]
  change (Endpoint.freeRoute (bareEndpoint (some (leavingRoute h) :: rest) [] n token') h, [h]) = _
  have hkey : (bareEndpoint (some (leavingRoute h) :: rest) [] n token').serviceKey h = some 0 :=
    bareEndpoint_serviceKey (leavingRoute h) rest [] n token'
  unfold Endpoint.freeRoute
  rw [hkey]
  rfl

def otherPrinter : ServiceRecords :=
  { ServiceRecords.printer with
    instanceName := ⟨[113, 46, 95, 112, 46, 108, 111, 99, 97, 108], by decide, by decide⟩ }

def otherRoute (handle : ServiceHandle) : Route Uptime ZeroRng Slab :=
  { (bareEndpoint [] [] 0 0).newRoute otherPrinter 0 (List.replicate 32 0) with handle := handle }

theorem bareEndpoint_register_other (token : UInt64) :
    (bareEndpoint [some (printerRoute lastServiceHandle)] [] lastServiceHandle.raw
      token).tryRegisterService otherPrinter 0 =
      (bareEndpoint [some (printerRoute lastServiceHandle), some (otherRoute lastServiceHandle)] []
        lastServiceHandle.raw token, .ok lastServiceHandle) := by
  rfl

theorem counter_reaches
    (P : List (Option (Route Uptime ZeroRng Slab)) → UInt32 → UInt64 → Prop) (hstart : P [] 0 0)
    (hcycle : ∀ slots n token, (slots = [] ∨ slots = [none]) → P slots n token →
      ∃ token', P [none] (saturatingSucc32 n) token')
    (k : Nat) (hk : k ≤ 4294967295) :
    ∃ slots token, (slots = [] ∨ slots = [none]) ∧ P slots (UInt32.ofNat k) token := by
  induction k with
  | zero => exact ⟨[], 0, .inl rfl, hstart⟩
  | succ k ih =>
    obtain ⟨slots, token, hslots, hreach⟩ := ih (by omega)
    obtain ⟨token', hreach'⟩ := hcycle slots (UInt32.ofNat k) token hslots hreach
    have hnext : saturatingSucc32 (UInt32.ofNat k) = UInt32.ofNat (k + 1) := by
      unfold saturatingSucc32
      rw [if_neg]
      · exact (UInt32.ofNat_add k 1).symm
      · intro heq
        have hnat := congrArg UInt32.toNat heq
        rw [UInt32.toNat_ofNat'] at hnat
        simp only [UInt32.reduceToNat, Nat.reducePow] at hnat
        omega
    rw [hnext] at hreach'
    exact ⟨[none], token', .inr rfl, hreach'⟩

section
variable {C : Type} (h : ServiceHandle) (c : C)

theorem lookup_single : (AList.singleton h c : Assoc ServiceHandle C).lookup h = some c :=
  @List.dlookup_cons_eq _ (fun _ => C) _ [] h c

theorem single_modify (f : C → C) :
    Assoc.modify f h (AList.singleton h c) = AList.singleton h (f c) := by
  unfold Assoc.modify
  rw [lookup_single h c]
  exact AList.insert_singleton_eq

theorem single_erase : (AList.singleton h c : Assoc ServiceHandle C).erase h = ∅ := by
  apply AList.ext
  exact List.kerase_cons_eq rfl

end
end Hick
