import Mathlib
import Hick.Endpoint.Run

/-!
# Which handles have a route (endpoint/service.rs:89-383, endpoint/withdrawal.rs:831-882)

A call of the host leaves every route at its key under its handle.
-/

set_option linter.unusedSectionVars false

namespace Hick
open Octets Wire Respond

def lastServiceHandle : ServiceHandle := ⟨4294967295⟩

theorem raw_lt_succ (n : UInt32) :
    n < saturatingSucc32 n ∨ saturatingSucc32 n = lastServiceHandle.raw := by
  unfold saturatingSucc32 lastServiceHandle
  split
  · rename_i h
    exact .inr h
  · rename_i h
    left
    have hne : n.toNat ≠ 4294967295 := fun heq => h (UInt32.toNat_inj.mp heq)
    have := n.toNat_lt
    rw [UInt32.lt_iff_toNat_lt, UInt32.toNat_add]
    simp only [UInt32.toNat_ofNat, Nat.reducePow] at *
    omega

theorem minted_succ (n raw : UInt32) (h : raw < n ∨ n = lastServiceHandle.raw) :
    raw < saturatingSucc32 n ∨ saturatingSucc32 n = lastServiceHandle.raw := by
  rcases h with hlt | hlast
  · rcases raw_lt_succ n with hsucc | hsucc
    · exact .inl (UInt32.lt_trans hlt hsucc)
    · exact .inr hsucc
  · right
    rw [hlast]
    rfl

namespace Endpoint
variable {I G R : Type} {SR EV : Type → Type} [Instant I] [SeedSource G] [SeedableRng R]
  [Pool SR] [Pool EV]

def handleAt (e : Endpoint I G R SR EV) (key : Nat) : Option ServiceHandle :=
  (e.route key).map Route.handle

def Has (e : Endpoint I G R SR EV) (handle : ServiceHandle) : Prop :=
  ∃ key, e.handleAt key = some handle

def HandlesUnique (e : Endpoint I G R SR EV) : Prop :=
  ∀ i j handle, e.handleAt i = some handle → e.handleAt j = some handle → i = j

structure Keeps (e e' : Endpoint I G R SR EV) : Prop where
  at_ : ∀ key, e'.handleAt key = e.handleAt key
  next : e'.nextServiceHandle = e.nextServiceHandle

namespace Keeps
variable {e e' e'' : Endpoint I G R SR EV}

theorem rfl' : Keeps e e := ⟨fun _ => rfl, rfl⟩

theorem trans (h : Keeps e e') (h' : Keeps e' e'') : Keeps e e'' :=
  ⟨fun key => (h'.at_ key).trans (h.at_ key), h'.next.trans h.next⟩

theorem has (h : Keeps e e') (handle : ServiceHandle) : e'.Has handle ↔ e.Has handle := by
  simp only [Has, h.at_]

theorem unique (h : Keeps e e') (hu : e.HandlesUnique) : e'.HandlesUnique := by
  intro i j handle hi hj
  rw [h.at_] at hi hj
  exact hu i j handle hi hj

end Keeps

theorem HandlesUnique.filled (e e' : Endpoint I G R SR EV) (key : Nat) (handle : ServiceHandle)
    (h : e.HandlesUnique)
    (hat : ∀ j, e'.handleAt j = if j = key then some handle else e.handleAt j)
    (hnot : ¬e.Has handle) : e'.HandlesUnique := by
  intro i j other hi hj
  rw [hat] at hi hj
  split at hi
  · rename_i hik
    cases hi
    split at hj
    · rename_i hjk
      rw [hik, hjk]
    · exact absurd ⟨j, hj⟩ hnot
  · split at hj
    · cases hj
      exact absurd ⟨i, hi⟩ hnot
    · exact h i j other hi hj

theorem Route.mirrorName_handle (r : Route I R EV) : (Route.mirrorName r).handle = r.handle := by
  unfold Route.mirrorName
  split <;> rfl

theorem enqueueRenameWithdrawal_keeps (e : Endpoint I G R SR EV) (handoff : RenameGoodbyeHandoff)
    (now : I) (holdsName : Bool) (leftBy : ServiceHandle) :
    Keeps e (e.enqueueRenameWithdrawal handoff now holdsName leftBy) := by
  unfold enqueueRenameWithdrawal
  dsimp only
  split
  · exact ⟨fun _ => rfl, rfl⟩
  · exact ⟨fun _ => rfl, rfl⟩

theorem reclaimDetachedGoodbyes_keeps (e : Endpoint I G R SR EV) (handle : ServiceHandle)
    (name : Name) : Keeps e (e.reclaimDetachedGoodbyes handle name) := by
  unfold reclaimDetachedGoodbyes
  split
  · exact .rfl'
  · split
    · exact .rfl'
    · exact ⟨fun _ => rfl, rfl⟩

theorem pollWithdrawalLoop_keeps (now : I) (scratch : Bytes) (fuel : Nat)
    (e : Endpoint I G R SR EV) : Keeps e (pollWithdrawalLoop now scratch fuel e).1 := by
  induction fuel generalizing e with
  | zero => exact .rfl'
  | succ fuel ih =>
    unfold pollWithdrawalLoop
    split
    · exact .rfl'
    · dsimp only
      split
      · exact ⟨fun _ => rfl, rfl⟩
      · rename_i i token w isFinal _ _ _
        generalize w.round (e.retainedFor w) now scratch isFinal = after
        have hrest := ih { e with withdrawals := e.withdrawals.set i (token, after.1) }
        exact ⟨hrest.at_, hrest.next⟩

theorem noteWithdrawalResult_keeps (e : Endpoint I G R SR EV) (token : WithdrawalToken) (now : I)
    (v4 v6 : FamilyAttempt I) : Keeps e (e.noteWithdrawalResult token now v4 v6) := by
  unfold noteWithdrawalResult
  split
  · exact ⟨fun _ => rfl, rfl⟩
  · exact .rfl'

section
variable [LawfulPool SR]

variable (e : Endpoint I G R SR EV) (handle : ServiceHandle)

theorem updateRoute_keeps (key : Nat) (f : Route I R EV → Route I R EV)
    (h : ∀ r, (f r).handle = r.handle) : Keeps e (e.updateRoute key f) := by
  refine ⟨fun j => ?_, rfl⟩
  rw [handleAt, route_updateRoute]
  split
  · rw [Option.map_map, show Route.handle ∘ f = Route.handle from funext h]
    rfl
  · rfl

theorem drainRenameGoodbye_keeps (key : Nat) (now : I) :
    Keeps e (e.drainRenameGoodbye key now) := by
  unfold drainRenameGoodbye
  split
  · exact .rfl'
  · split
    · exact .rfl'
    · have hkept := updateRoute_keeps e key (fun route =>
        { route with proto := route.proto.takeRenameGoodbyeHandoff.1 }) fun _ => rfl
      exact hkept.trans (enqueueRenameWithdrawal_keeps _ _ _ _ _)

theorem beginWithdrawal_keeps (snapshot : WithdrawalSnapshot) (now : I) : Keeps e
    (e.beginWithdrawal handle snapshot now) := by
  unfold beginWithdrawal
  split
  · exact .rfl'
  · split
    · exact .rfl'
    · rename_i key _ _
      have hkept := updateRoute_keeps e key (fun route =>
        { route with
          proto := route.proto.quiesceForWithdrawal
          withdrawing := true }) fun _ => rfl
      exact ⟨hkept.at_, rfl⟩

theorem handleServiceTimeout_keeps (now : I) :
    Keeps e (e.handleServiceTimeout handle now).1 := by
  rcases e.handleServiceTimeout_cases handle now with heq | ⟨key, r, mid, -, -, -, hmid, heq⟩
  · rw [heq]
    exact .rfl'
  · have hkept : Keeps e mid :=
      hmid ▸ updateRoute_keeps e key _ fun _ => Route.mirrorName_handle _
    rw [heq]
    exact hkept.trans (drainRenameGoodbye_keeps _ _ _)

theorem pollServiceTransmit_keeps (now : I)
    (buf : Bytes) : Keeps e (e.pollServiceTransmit handle now buf).1 := by
  rcases e.pollServiceTransmit_cases handle now buf with heq | ⟨key, r, -, -, -, -, heq⟩
  · rw [heq]
    exact .rfl'
  · rw [heq]
    exact updateRoute_keeps e _ _ fun _ => rfl

theorem pollService_keeps :
    Keeps e (e.pollService handle).1 := by
  rcases e.pollService_cases handle with heq | ⟨key, r, -, -, heq⟩
  · rw [heq]
    exact .rfl'
  · rw [heq]
    exact updateRoute_keeps e _ _ fun _ => rfl

theorem noteServiceTransmitOutcome_keeps (now : I) (v4 v6 : FamilyAttempt I) :
    Keeps e (e.noteServiceTransmitOutcome handle now v4 v6).1 := by
  rcases e.noteServiceTransmitOutcome_cases handle now v4 v6 with heq |
    ⟨key, r, mid, -, -, -, hmid, heq⟩
  · rw [heq]
    exact .rfl'
  · have hkept : Keeps e mid := hmid ▸ updateRoute_keeps e key _ fun _ => rfl
    rw [heq]
    split
    · exact (hkept.trans (reclaimDetachedGoodbyes_keeps _ _ _)).trans
        (drainRenameGoodbye_keeps _ _ _)
    · exact hkept.trans (drainRenameGoodbye_keeps _ _ _)

theorem unregisterService_keeps (now : I) :
    Keeps e (e.unregisterService handle now) := by
  unfold unregisterService
  split
  · exact .rfl'
  · dsimp only
    split
    · exact drainRenameGoodbye_keeps _ _ _
    · exact (drainRenameGoodbye_keeps _ _ _).trans (beginWithdrawal_keeps _ _ _ _)

theorem dispatch_keeps (key : Nat) (event : ServiceEvent) (now : I) :
    Keeps e (e.dispatch key event now) := by
  unfold dispatch
  split
  · exact .rfl'
  · rename_i route _
    have hkept := updateRoute_keeps e key (fun r =>
      { r with proto := (route.proto.handleEvent event now e.flood).1 }) fun _ => rfl
    exact ⟨hkept.at_, rfl⟩

theorem tryRegisterService_error (e e' : Endpoint I G R SR EV) (records : ServiceRecords) (now : I)
    (err : RegisterServiceError) (h : e.tryRegisterService records now = (e', .error err)) :
    (∀ key, e'.handleAt key = e.handleAt key) ∧
      (e'.nextServiceHandle = e.nextServiceHandle ∨
        e'.nextServiceHandle = saturatingSucc32 e.nextServiceHandle) := by
  unfold tryRegisterService at h
  split at h
  · cases h
    exact ⟨fun _ => rfl, .inl rfl⟩
  · dsimp only at h
    split at h
    · cases h
      exact ⟨fun _ => rfl, .inr rfl⟩
    · cases h

theorem tryRegisterService_ok (e e' : Endpoint I G R SR EV) (records : ServiceRecords) (now : I)
    (handle : ServiceHandle) (h : e.tryRegisterService records now = (e', .ok handle)) :
    handle = ⟨e.nextServiceHandle⟩ ∧
      e'.nextServiceHandle = saturatingSucc32 e.nextServiceHandle ∧
      ∃ key, e.handleAt key = none ∧
        ∀ j, e'.handleAt j = if j = key then some handle else e.handleAt j := by
  unfold tryRegisterService at h
  split at h
  · cases h
  · dsimp only at h
    split at h
    · cases h
    · rename_i key services hins
      cases h
      obtain ⟨hvacant, hget⟩ := LawfulPool.get_insert _ services _ key hins
      refine ⟨rfl, rfl, key, by rw [handleAt, route, hvacant]; rfl, fun j => ?_⟩
      rw [handleAt, route, hget j]
      split
      · rfl
      · rfl

end

variable [ReleasingPool SR]

theorem freeRoute_handleAt (e : Endpoint I G R SR EV) (handle : ServiceHandle)
    (hu : e.HandlesUnique) (key : Nat) :
    (e.freeRoute handle).handleAt key = (e.handleAt key).filter (· ≠ handle) := by
  unfold freeRoute
  rcases e.serviceKey_cases handle with hkey | ⟨k, r, hkey, hr, hh⟩
  · rw [hkey]
    dsimp only
    cases hat : e.handleAt key with
    | none => rfl
    | some other =>
      obtain ⟨r, hr, hrh⟩ := Option.map_eq_some_iff.mp hat
      have hne := e.serviceKey_none handle hkey key r hr
      rw [hrh] at hne
      rw [Option.filter_some, if_pos (by simpa using hne)]
  · rw [hkey]
    obtain ⟨services, hrem⟩ := ReleasingPool.tryRemove_of_get e.services r k hr
    dsimp only
    rw [hrem]
    have hat : e.handleAt k = some handle := by rw [handleAt, hr, Option.map_some, hh]
    have hget := e.route_tryRemove k key r services hrem
    dsimp only
    rw [handleAt, route, hget]
    by_cases hk : key = k
    · rw [if_pos hk, hk, hat, Option.map_none, Option.filter_some, if_neg (by simp)]
    · rw [if_neg hk]
      cases hother : e.handleAt key with
      | none =>
        rw [handleAt] at hother
        rw [hother]
        rfl
      | some other =>
        have hne : other ≠ handle := by
          intro heq
          exact hk (hu key k handle (heq ▸ hother) hat)
        rw [handleAt] at hother
        rw [hother, Option.filter_some, if_pos (by simpa using hne)]

structure Drained (e : Endpoint I G R SR EV) (st : Endpoint I G R SR EV × List ServiceHandle) :
    Prop where
  at_ : ∀ key, st.1.handleAt key = (e.handleAt key).filter (· ∉ st.2)
  next : st.1.nextServiceHandle = e.nextServiceHandle

theorem Drained.unique {e : Endpoint I G R SR EV} {st : Endpoint I G R SR EV × List ServiceHandle}
    (h : Drained e st) (hu : e.HandlesUnique) : st.1.HandlesUnique := by
  intro i j handle hi hj
  rw [h.at_] at hi hj
  exact hu i j handle (Option.eq_some_of_filter_eq_some hi) (Option.eq_some_of_filter_eq_some hj)

theorem drainToken_drained (e : Endpoint I G R SR EV) (hu : e.HandlesUnique) (now : I)
    (st : Endpoint I G R SR EV × List ServiceHandle) (h : Drained e st) (token : WithdrawalToken) :
    Drained e (drainToken now st token) := by
  have hus := h.unique hu
  obtain ⟨d, out⟩ := st
  unfold drainToken
  dsimp only
  cases hfind : d.withdrawals.find? fun tw => tw.1 == token with
  | none => exact h
  | some tw =>
    obtain ⟨t, item⟩ := tw
    dsimp only
    cases hroute : item.route with
    | none => exact ⟨h.at_, h.next⟩
    | some handle =>
      dsimp only
      generalize hd : Endpoint.retainRelinquished { d with
        withdrawals := d.withdrawals.eraseP fun tw => tw.1 == token } item.records
          item.multicast now = d'
      have hsame : ∀ key, d'.handleAt key = d.handleAt key := by
        intro key
        rw [← hd]
        rfl
      have hud : d'.HandlesUnique := by
        intro i j handle hi hj
        rw [hsame] at hi hj
        exact hus i j handle hi hj
      constructor
      · intro key
        dsimp only
        rw [freeRoute_handleAt d' handle hud, hsame, h.at_, Option.filter_filter]
        congr 1
        funext other
        simp [Bool.and_comm]
      · dsimp only
        rw [← h.next]
        unfold freeRoute
        subst hd
        split
        · rfl
        · split <;> rfl

theorem drainCompletedWithdrawals_drained (e : Endpoint I G R SR EV) (hu : e.HandlesUnique)
    (now : I) : Drained e (e.drainCompletedWithdrawals now) := by
  have hfold : ∀ (tokens : List WithdrawalToken) (st : Endpoint I G R SR EV × List ServiceHandle),
      Drained e st → Drained e (tokens.foldl (drainToken now) st) := by
    intro tokens
    induction tokens with
    | nil => exact fun st h => h
    | cons token rest ih =>
      intro st h
      exact ih _ (drainToken_drained e hu now st h token)
  apply hfold
  constructor
  · intro key
    cases e.handleAt key with
    | none => rfl
    | some handle =>
      rw [Option.filter_some, if_pos (by simp)]
  · rfl

end Endpoint
end Hick
