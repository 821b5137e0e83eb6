import Mathlib
import Hick.Endpoint.State

/-!
# Pumping goodbyes (endpoint/withdrawal.rs:319-882)

The driver asks for the next goodbye, reports how it went, and drains the items that are done.
-/

namespace Hick
open Octets Wire Respond

/-- A goodbye handed to the driver; `message` is what it left in the scratch buffer. -/
structure WithdrawalTransmit where
  dst : SocketAddr
  len : Nat
  token : WithdrawalToken
  debt : PerFamily Bool
  message : Message

namespace WithdrawalItem
variable {I : Type} [Instant I]

def withdrawnA (w : WithdrawalItem I) (retained : List IpAddr) : List Ipv4Addr :=
  w.outstanding.a.filter fun ip => !retained.contains (.v4 ip)

def withdrawnAaaa (w : WithdrawalItem I) (retained : List IpAddr) : List Ipv6Addr :=
  w.outstanding.aaaa.filter fun ip => !retained.contains (.v6 ip)

def hasSomething (w : WithdrawalItem I) (retained : List IpAddr) : Bool :=
  let owned := w.outstanding
  owned.ptr || owned.srv || owned.txt || owned.subtypes ||
    owned.a.any (fun ip => !retained.contains (.v4 ip)) ||
    owned.aaaa.any fun ip => !retained.contains (.v6 ip)

def round (w : WithdrawalItem I) (retained : List IpAddr) (now : I) (scratch : Bytes)
    (isFinal : Bool) : WithdrawalItem I × Option Message :=
  let owned := w.outstanding
  if !w.hasSomething retained then ({ w with owed := .both 0 }, none)
  else
    match writeGoodbye w.records scratch owned.ptr owned.srv owned.txt owned.subtypes
        (w.withdrawnA retained) (w.withdrawnAaaa retained) with
    | .ok (msg, ()) => (if isFinal then { w with finalAttempt := true } else w, some msg)
    | .error _ => (w.advanceAfterEncodeFailure now isFinal, none)

end WithdrawalItem

namespace Endpoint
variable {I G R : Type} {SR EV : Type → Type} [Instant I] [SeedSource G] [SeedableRng R]
  [Pool SR] [Pool EV]

def siblingRetainedAddrs (e : Endpoint I G R SR EV) (handle : ServiceHandle) : List IpAddr :=
  match e.routes.find? fun kr => kr.2.handle == handle with
  | none => []
  | some (_, own) =>
    (e.routes.filter fun kr =>
        kr.2.handle != handle && !kr.2.withdrawing && kr.2.host.sameOwner own.host).flatMap
      fun kr => kr.2.advertisedA.map .v4 ++ kr.2.advertisedAaaa.map .v6

def retainedFor (e : Endpoint I G R SR EV) (w : WithdrawalItem I) : List IpAddr :=
  match w.route with
  | some handle => e.siblingRetainedAddrs handle
  | none => []

def selectWithdrawal (e : Endpoint I G R SR EV) (now : I) :
    Option (Nat × WithdrawalToken × WithdrawalItem I × Bool) :=
  e.withdrawals.zipIdx.findSome? fun (tw, i) =>
    (tw.2.selected now).map fun isFinal => (i, tw.1, tw.2, isFinal)

def pollWithdrawalLoop (now : I) (scratch : Bytes) :
    Nat → Endpoint I G R SR EV → Endpoint I G R SR EV × Option WithdrawalTransmit
  | 0, e => (e, none)
  | fuel + 1, e =>
    match e.selectWithdrawal now with
    | none => (e, none)
    | some (i, token, w, isFinal) =>
      let (after, message) := w.round (e.retainedFor w) now scratch isFinal
      let e := { e with withdrawals := e.withdrawals.set i (token, after) }
      match message with
      | some msg => (e, some ⟨multicastDst, msg.size, token, w.debt, msg⟩)
      | none => pollWithdrawalLoop now scratch fuel e

/-- `poll_withdrawal_transmit`. No item is tried twice, so this many passes are enough. -/
def pollWithdrawalTransmit (e : Endpoint I G R SR EV) (now : I) (scratch : Bytes) :
    Endpoint I G R SR EV × Option WithdrawalTransmit :=
  pollWithdrawalLoop now scratch (e.withdrawals.length + 1) e

def noteWithdrawalResult (e : Endpoint I G R SR EV) (token : WithdrawalToken) (now : I)
    (v4 v6 : FamilyAttempt I) : Endpoint I G R SR EV :=
  match updateFirst (fun tw => tw.1 == token) (fun tw => (tw.1, tw.2.noteResult now v4 v6))
      e.withdrawals with
  | some withdrawals => { e with withdrawals := withdrawals }
  | none => e

def freeRoute (e : Endpoint I G R SR EV) (handle : ServiceHandle) : Endpoint I G R SR EV :=
  match e.serviceKey handle with
  | none => e
  | some key =>
    match Pool.tryRemove e.services key with
    | some (_, services) => { e with services := services }
    | none => e

/-- One pass of the loop of `drain_completed_withdrawals`: a token whose item is done. -/
def drainToken (now : I) (st : Endpoint I G R SR EV × List ServiceHandle)
    (token : WithdrawalToken) : Endpoint I G R SR EV × List ServiceHandle :=
  let (e, out) := st
  match e.withdrawals.find? fun tw => tw.1 == token with
  | none => st
  | some (_, item) =>
    let e := { e with withdrawals := e.withdrawals.eraseP fun tw => tw.1 == token }
    let e := e.retainRelinquished item.records item.multicast now
    match item.route with
    | none => (e, out)
    | some handle => (e.freeRoute handle, out ++ [handle])

/-- `drain_completed_withdrawals` (withdrawal.rs:831-882): the handles reported. -/
def drainCompletedWithdrawals (e : Endpoint I G R SR EV) (now : I) :
    Endpoint I G R SR EV × List ServiceHandle :=
  let completed := (e.withdrawals.filter fun tw => tw.2.completed now).map (·.1)
  completed.foldl (drainToken now) (e, [])

def scanWithdrawals (retained : WithdrawalItem I → List IpAddr) (now : I) (scratch : Bytes) :
    List (WithdrawalToken × WithdrawalItem I) →
      List (WithdrawalToken × WithdrawalItem I) × Option WithdrawalTransmit
  | [] => ([], none)
  | (token, w) :: rest =>
    match w.selected now with
    | none =>
      let (rest, sent) := scanWithdrawals retained now scratch rest
      ((token, w) :: rest, sent)
    | some isFinal =>
      match w.round (retained w) now scratch isFinal with
      | (after, some msg) =>
        ((token, after) :: rest, some ⟨multicastDst, msg.size, token, w.debt, msg⟩)
      | (after, none) =>
        let (rest, sent) := scanWithdrawals retained now scratch rest
        ((token, after) :: rest, sent)

end Endpoint

namespace WithdrawalItem
variable {I : Type} [Instant I]

theorem selected_some (w : WithdrawalItem I) (now : I) (isFinal : Bool)
    (h : w.selected now = some isFinal) : w.paid = false ∧
      ((isFinal = false ∧ w.nextAt ≤ now ∧ now < w.ceilingAt) ∨
        (isFinal = true ∧ w.ceilingAt ≤ now ∧ w.finalAttempt = false)) := by
  unfold selected at h
  split at h
  · cases h
  · rename_i hpaid
    refine ⟨Bool.eq_false_iff.mpr hpaid, ?_⟩
    split at h
    · rename_i hdue
      cases h
      exact .inl ⟨rfl, hdue⟩
    · split at h
      · rename_i hceil
        cases h
        exact .inr ⟨rfl, hceil⟩
      · cases h

theorem selected_paid (w : WithdrawalItem I) (now : I) (h : w.owed = .both 0) :
    w.selected now = none := by
  have hp : w.paid = true := by
    unfold paid
    rw [h]
    rfl
  unfold selected
  rw [if_pos hp]

inductive Rounded (w : WithdrawalItem I) (retained : List IpAddr) (now : I) (scratch : Bytes)
    (isFinal : Bool) : WithdrawalItem I × Option Message → Prop
  | nothing (h : w.hasSomething retained = false) :
    Rounded w retained now scratch isFinal ({ w with owed := .both 0 }, none)
  | sent (msg : Message) (h : w.hasSomething retained = true)
      (hmsg : writeGoodbye w.records scratch w.outstanding.ptr w.outstanding.srv w.outstanding.txt
        w.outstanding.subtypes (w.withdrawnA retained) (w.withdrawnAaaa retained) =
          .ok (msg, ())) :
    Rounded w retained now scratch isFinal
      (if isFinal then { w with finalAttempt := true } else w, some msg)
  | unencodable (err : EncodeError) (h : w.hasSomething retained = true)
      (herr : writeGoodbye w.records scratch w.outstanding.ptr w.outstanding.srv w.outstanding.txt
        w.outstanding.subtypes (w.withdrawnA retained) (w.withdrawnAaaa retained) = .error err) :
    Rounded w retained now scratch isFinal (w.advanceAfterEncodeFailure now isFinal, none)

theorem round_rounded (w : WithdrawalItem I) (retained : List IpAddr) (now : I) (scratch : Bytes)
    (isFinal : Bool) :
    Rounded w retained now scratch isFinal (w.round retained now scratch isFinal) := by
  unfold round
  cases hsome : w.hasSomething retained with
  | false => exact .nothing hsome
  | true =>
    simp only [Bool.not_true, Bool.false_eq_true, if_false]
    cases hmsg : writeGoodbye w.records scratch w.outstanding.ptr w.outstanding.srv
        w.outstanding.txt w.outstanding.subtypes (w.withdrawnA retained)
        (w.withdrawnAaaa retained) with
    | error err => exact .unencodable err hsome hmsg
    | ok out => exact .sent out.1 hsome hmsg

inductive Advanced (w : WithdrawalItem I) (now : I) : Bool → WithdrawalItem I → Prop
  | final : Advanced w now true { w with finalAttempt := true }
  | later (t : I) (h : checkedAddDuration now withdrawalRetryBackoff = some t) (hlt : now < t) :
    Advanced w now false { w with nextAt := t }
  | abandoned (h : ∀ t, checkedAddDuration now withdrawalRetryBackoff = some t → t ≤ now) :
    Advanced w now false { w with owed := .both 0 }

theorem advanceAfterEncodeFailure_advanced (w : WithdrawalItem I) (now : I) (isFinal : Bool) :
    Advanced w now isFinal (w.advanceAfterEncodeFailure now isFinal) := by
  unfold advanceAfterEncodeFailure
  cases isFinal with
  | true => exact .final
  | false =>
    simp only [Bool.false_eq_true, if_false]
    cases h : checkedAddDuration now withdrawalRetryBackoff with
    | none =>
      refine .abandoned fun t ht => ?_
      rw [h] at ht
      cases ht
    | some t =>
      by_cases hlt : now < t
      · simp only [if_pos hlt]
        exact .later t h hlt
      · simp only [if_neg hlt]
        refine .abandoned fun u hu => ?_
        rw [h] at hu
        cases hu
        exact not_lt.mp hlt

theorem round_passed_over (w after : WithdrawalItem I) (retained : List IpAddr) (now : I)
    (scratch : Bytes) (isFinal : Bool) (hsel : w.selected now = some isFinal)
    (h : w.round retained now scratch isFinal = (after, none)) : after.selected now = none := by
  have heff := w.round_rounded retained now scratch isFinal
  rw [h] at heff
  cases heff with
  | nothing _ => exact selected_paid _ now rfl
  | unencodable err _ _ =>
    obtain ⟨_, hwhen⟩ := w.selected_some now isFinal hsel
    have hadv := w.advanceAfterEncodeFailure_advanced now isFinal
    generalize w.advanceAfterEncodeFailure now isFinal = after at hadv ⊢
    cases hadv with
    | final =>
      rcases hwhen with ⟨hfalse, _⟩ | ⟨_, hceil, _⟩
      · cases hfalse
      · unfold selected
        simp only [not_lt.mpr hceil, and_false, Bool.true_eq_false, if_false]
        split <;> rfl
    | later t _ hlt =>
      rcases hwhen with ⟨_, _, hopen⟩ | ⟨htrue, _⟩
      · unfold selected
        simp only [not_le.mpr hlt, false_and, if_false, not_le.mpr hopen]
        split <;> rfl
      · cases htrue
    | abandoned _ => exact selected_paid _ now rfl

end WithdrawalItem

namespace Endpoint
variable {I G R : Type} {SR EV : Type → Type} [Instant I] [SeedSource G] [SeedableRng R]
  [Pool SR] [Pool EV]

omit [SeedSource G] [SeedableRng R] [Pool SR] [Pool EV] in
theorem selectWithdrawal_append (e : Endpoint I G R SR EV) (now : I)
    (pre rest : List (WithdrawalToken × WithdrawalItem I)) (hw : e.withdrawals = pre ++ rest)
    (hpre : ∀ tw ∈ pre, tw.2.selected now = none) :
    e.selectWithdrawal now = (rest.zipIdx pre.length).findSome? fun (tw, i) =>
      (tw.2.selected now).map fun isFinal => (i, tw.1, tw.2, isFinal) := by
  have hnone : pre.zipIdx.findSome? (fun (tw, i) =>
      (tw.2.selected now).map fun isFinal => (i, tw.1, tw.2, isFinal)) = none := by
    rw [List.findSome?_eq_none_iff]
    intro p hp
    obtain ⟨tw, i⟩ := p
    have hmem := List.fst_mem_of_mem_zipIdx hp
    simp only [hpre tw hmem, Option.map_none]
  unfold selectWithdrawal
  rw [hw, List.zipIdx_append, List.findSome?_append, hnone, Nat.zero_add, Option.none_or]

omit [SeedSource G] [SeedableRng R] [Pool EV] in
theorem pollWithdrawalLoop_eq (now : I) (scratch : Bytes) (fuel : Nat)
    (e : Endpoint I G R SR EV) (pre rest : List (WithdrawalToken × WithdrawalItem I))
    (hw : e.withdrawals = pre ++ rest) (hpre : ∀ tw ∈ pre, tw.2.selected now = none)
    (hfuel : rest.length < fuel) :
    pollWithdrawalLoop now scratch fuel e =
      ({ e with withdrawals := pre ++ (scanWithdrawals e.retainedFor now scratch rest).1 },
        (scanWithdrawals e.retainedFor now scratch rest).2) := by
  induction rest generalizing fuel e pre with
  | nil =>
    cases fuel with
    | zero => cases hfuel
    | succ fuel =>
      rw [pollWithdrawalLoop, selectWithdrawal_append e now pre [] hw hpre]
      simp only [List.zipIdx_nil, List.findSome?_nil, scanWithdrawals]
      rw [← hw]
  | cons tw rest ih =>
    obtain ⟨token, w⟩ := tw
    have hsplit : pre ++ (token, w) :: rest = (pre ++ [(token, w)]) ++ rest := by
      rw [List.append_assoc]
      rfl
    have hskip : ∀ (tw : WithdrawalToken × WithdrawalItem I), tw.2.selected now = none →
        ∀ x ∈ pre ++ [tw], x.2.selected now = none := by
      intro tw htw x hx
      rcases List.mem_append.mp hx with hx | hx
      · exact hpre x hx
      · rw [List.mem_singleton.mp hx]
        exact htw
    cases hsel : w.selected now with
    | none =>
      have hrest := ih fuel e (pre ++ [(token, w)]) (by rw [hw, hsplit]) (hskip _ hsel)
        (by simp only [List.length_cons] at hfuel; omega)
      rw [hrest]
      simp only [scanWithdrawals, hsel, List.append_assoc, List.singleton_append]
    | some isFinal =>
      cases fuel with
      | zero => cases hfuel
      | succ fuel =>
        rw [pollWithdrawalLoop, selectWithdrawal_append e now pre _ hw hpre]
        simp only [List.zipIdx_cons, List.findSome?_cons, hsel, Option.map_some, scanWithdrawals]
        cases hround : w.round (e.retainedFor w) now scratch isFinal with
        | mk after message =>
          have hset : e.withdrawals.set pre.length (token, after) =
              (pre ++ [(token, after)]) ++ rest := by
            rw [hw, List.set_append_right _ _ (le_refl _), Nat.sub_self, List.set_cons_zero,
              List.append_assoc]
            rfl
          cases message with
          | some msg =>
            simp only
            rw [hset, List.append_assoc]
            rfl
          | none =>
            have hafter := w.round_passed_over after _ now scratch isFinal hsel hround
            have hrest := ih fuel
              { e with withdrawals := e.withdrawals.set pre.length (token, after) }
              (pre ++ [(token, after)]) hset (hskip (token, after) hafter)
              (by simp only [List.length_cons] at hfuel; omega)
            simp only
            rw [hrest]
            have hkeep : Endpoint.retainedFor
                { e with withdrawals := e.withdrawals.set pre.length (token, after) } =
                  e.retainedFor := rfl
            simp only [hkeep, List.append_assoc, List.singleton_append]

omit [SeedSource G] [SeedableRng R] [Pool EV] in
theorem pollWithdrawalTransmit_eq (e : Endpoint I G R SR EV) (now : I) (scratch : Bytes) :
    e.pollWithdrawalTransmit now scratch =
      ({ e with withdrawals := (scanWithdrawals e.retainedFor now scratch e.withdrawals).1 },
        (scanWithdrawals e.retainedFor now scratch e.withdrawals).2) :=
  pollWithdrawalLoop_eq now scratch _ e [] e.withdrawals rfl (by simp) (Nat.lt_succ_self _)

end Endpoint
end Hick
