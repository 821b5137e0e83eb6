import Mathlib
import Hick.Endpoint.Moves

/-!
# The roster of an endpoint (endpoint/service.rs:89-383, endpoint/withdrawal.rs:106-246, 831-882)

To a driver an endpoint is the handles it has a route for, each with whether its service is leaving,
and the goodbyes that are in flight for each.
-/

set_option linter.unusedSectionVars false

namespace Hick
open Octets Wire Respond

namespace WithdrawalItem
variable {I : Type} [Instant I]

theorem round_route (w : WithdrawalItem I) (retained : List IpAddr) (now : I) (scratch : Bytes)
    (isFinal : Bool) : (w.round retained now scratch isFinal).1.route = w.route := by
  have hround := w.round_rounded retained now scratch isFinal
  generalize w.round retained now scratch isFinal = done at hround ⊢
  cases hround with
  | nothing h => rfl
  | sent msg h hmsg =>
    dsimp only
    split
    · rfl
    · rfl
  | unencodable err h herr =>
    have hadvanced := w.advanceAfterEncodeFailure_advanced now isFinal
    dsimp only
    generalize w.advanceAfterEncodeFailure now isFinal = after at hadvanced ⊢
    cases hadvanced with
    | _ => rfl

theorem reclaim_route (w : WithdrawalItem I) (name serviceType : Name) (subtypes : List Name)
    (handle : ServiceHandle) (h : w.route = some handle) :
    w.reclaim name serviceType subtypes = some w := by
  unfold reclaim reclaimableFor
  rw [h]
  rfl

theorem route_of_reclaim (w w' : WithdrawalItem I) (name serviceType : Name) (subtypes : List Name)
    (h : w.reclaim name serviceType subtypes = some w') : w'.route = w.route := by
  unfold reclaim at h
  split at h
  · cases h
    rfl
  · dsimp only at h
    split at h
    · cases h
    · cases h
      rfl

end WithdrawalItem

namespace Endpoint
variable {I G R : Type} {SR EV : Type → Type} [Instant I] [SeedSource G] [SeedableRng R]
  [Pool SR] [Pool EV]

def standing (e : Endpoint I G R SR EV) (handle : ServiceHandle) : Option Bool :=
  ((e.serviceKey handle).bind e.route).map Route.withdrawing

def leavers (e : Endpoint I G R SR EV) : List (Option ServiceHandle) :=
  e.withdrawals.map fun tw => tw.2.route

def farewells (e : Endpoint I G R SR EV) (handle : ServiceHandle) : Nat :=
  e.leavers.count (some handle)

variable (e : Endpoint I G R SR EV)

theorem any_leavers (handle : ServiceHandle) :
    (e.withdrawals.any fun tw => tw.2.route == some handle) = true ↔ 0 < e.farewells handle := by
  unfold farewells leavers
  rw [List.count_pos_iff, List.any_eq_true, List.mem_map]
  simp only [beq_iff_eq]

theorem updateRoute_farewells (key : Nat)
    (f : Route I R EV → Route I R EV) (handle : ServiceHandle) :
    (e.updateRoute key f).farewells handle = e.farewells handle := rfl

theorem enqueueWithdrawal_farewells (item : WithdrawalItem I)
    (handle : ServiceHandle) :
    (e.enqueueWithdrawal item).farewells handle =
      e.farewells handle + if item.route = some handle then 1 else 0 := by
  unfold farewells leavers enqueueWithdrawal mintWithdrawalToken
  dsimp only
  rw [List.map_append, List.count_append, List.map_singleton, List.count_singleton]
  simp only [beq_iff_eq]

theorem enqueueRenameWithdrawal_farewells (handoff : RenameGoodbyeHandoff) (now : I)
    (holdsName : Bool) (leftBy handle : ServiceHandle) :
    (e.enqueueRenameWithdrawal handoff now holdsName leftBy).farewells handle =
      e.farewells handle := by
  unfold enqueueRenameWithdrawal
  dsimp only
  split
  · rfl
  · rw [enqueueWithdrawal_farewells]
    rfl

theorem drainRenameGoodbye_farewells (key : Nat) (now : I)
    (handle : ServiceHandle) :
    (e.drainRenameGoodbye key now).farewells handle = e.farewells handle := by
  unfold drainRenameGoodbye
  split
  · rfl
  · split
    · rfl
    · rw [enqueueRenameWithdrawal_farewells]
      rfl

theorem reclaimDetachedGoodbyes_farewells (by_ : ServiceHandle)
    (name : Name) (handle : ServiceHandle) :
    (e.reclaimDetachedGoodbyes by_ name).farewells handle = e.farewells handle := by
  unfold reclaimDetachedGoodbyes
  split
  · rfl
  · split
    · rfl
    · rename_i route _
      unfold farewells leavers
      dsimp only
      induction e.withdrawals with
      | nil => rfl
      | cons tw rest ih =>
        obtain ⟨token, item⟩ := tw
        rw [List.filterMap_cons]
        cases hitem : item.reclaim name route.serviceType route.subtypes with
        | none =>
          have hother : item.route ≠ some handle := by
            intro heq
            rw [item.reclaim_route name _ _ handle heq] at hitem
            cases hitem
          rw [Option.map_none, List.map_cons, List.count_cons_of_ne hother]
          exact ih
        | some item' =>
          have hroute := item.route_of_reclaim item' name _ _ hitem
          rw [Option.map_some, List.map_cons, List.map_cons, List.count_cons, List.count_cons, ih,
            hroute]

theorem scanWithdrawals_leavers (retained : WithdrawalItem I → List IpAddr) (now : I)
    (scratch : Bytes) (ws : List (WithdrawalToken × WithdrawalItem I)) :
    (scanWithdrawals retained now scratch ws).1.map (fun tw => tw.2.route) =
      ws.map fun tw => tw.2.route := by
  induction ws with
  | nil => rfl
  | cons tw rest ih =>
    obtain ⟨token, w⟩ := tw
    rw [scanWithdrawals]
    cases w.selected now with
    | none =>
      dsimp only
      rw [List.map_cons, List.map_cons, ih]
    | some isFinal =>
      have hroute := w.round_route (retained w) now scratch isFinal
      dsimp only
      cases hround : w.round (retained w) now scratch isFinal with
      | mk after message =>
        rw [hround] at hroute
        cases message with
        | none =>
          dsimp only
          rw [List.map_cons, List.map_cons, ih, hroute]
        | some msg =>
          dsimp only
          rw [List.map_cons, List.map_cons, hroute]

theorem pollWithdrawalTransmit_farewells (now : I) (scratch : Bytes)
    (handle : ServiceHandle) :
    (e.pollWithdrawalTransmit now scratch).1.farewells handle = e.farewells handle := by
  rw [pollWithdrawalTransmit_eq]
  unfold farewells leavers
  dsimp only
  rw [scanWithdrawals_leavers]

theorem updateFirst_map {α β : Type} (p : α → Bool) (f : α → α) (g : α → β)
    (hg : ∀ x, g (f x) = g x)
    (l l' : List α) (h : updateFirst p f l = some l') : l'.map g = l.map g := by
  induction l generalizing l' with
  | nil => cases h
  | cons x xs ih =>
    rw [updateFirst] at h
    split at h
    · cases h
      rw [List.map_cons, List.map_cons, hg]
    · obtain ⟨rest, hrest, rfl⟩ := Option.map_eq_some_iff.mp h
      rw [List.map_cons, List.map_cons, ih rest hrest]

theorem noteWithdrawalResult_farewells (token : WithdrawalToken) (now : I)
    (v4 v6 : FamilyAttempt I) (handle : ServiceHandle) :
    (e.noteWithdrawalResult token now v4 v6).farewells handle = e.farewells handle := by
  unfold noteWithdrawalResult
  split
  · rename_i ws hws
    unfold farewells leavers
    dsimp only
    have hsame := updateFirst_map (fun tw : WithdrawalToken × WithdrawalItem I => tw.1 == token)
      (fun tw => (tw.1, tw.2.noteResult now v4 v6)) (fun tw => tw.2.route) (fun _ => rfl) _ ws hws
    rw [hsame]
  · rfl

section
variable [LawfulPool SR]

variable (e : Endpoint I G R SR EV)

theorem standing_of_no_key (handle : ServiceHandle)
    (h : e.serviceKey handle = none) : e.standing handle = none := by
  unfold standing
  rw [h]
  rfl

theorem standing_none_iff (handle : ServiceHandle) :
    e.standing handle = none ↔ ¬ e.Has handle := by
  unfold standing
  rcases e.serviceKey_cases handle with hkey | ⟨key, r, hkey, hr, hh⟩
  · rw [hkey]
    constructor
    · rintro - ⟨key, hat⟩
      obtain ⟨r, hr, hh⟩ := Option.map_eq_some_iff.mp hat
      exact e.serviceKey_none handle hkey key r hr hh
    · intro _
      rfl
  · rw [hkey, Option.bind_some, hr, Option.map_some]
    constructor
    · intro h
      cases h
    · intro hnot
      exact absurd ⟨key, by rw [handleAt, hr, Option.map_some, hh]⟩ hnot

theorem standing_some_iff (hu : e.HandlesUnique) (handle : ServiceHandle)
    (leaving : Bool) : e.standing handle = some leaving ↔
      ∃ key r, e.route key = some r ∧ r.handle = handle ∧ r.withdrawing = leaving := by
  have hone : ∀ key r, e.route key = some r → r.handle = handle →
      e.standing handle = some r.withdrawing := by
    intro key r hr hh
    unfold standing
    rcases e.serviceKey_cases handle with hkey | ⟨k, r', hkey, hr', hh'⟩
    · exact absurd hh (e.serviceKey_none handle hkey key r hr)
    · have hsame : k = key := by
        apply hu k key handle
        · rw [handleAt, hr', Option.map_some, hh']
        · rw [handleAt, hr, Option.map_some, hh]
      rw [hkey, Option.bind_some, hsame, hr, Option.map_some]
  constructor
  · intro h
    rcases e.serviceKey_cases handle with hkey | ⟨key, r, -, hr, hh⟩
    · unfold standing at h
      rw [hkey] at h
      cases h
    · rw [hone key r hr hh] at h
      exact ⟨key, r, hr, hh, Option.some.inj h⟩
  · rintro ⟨key, r, hr, hh, hw⟩
    rw [hone key r hr hh, hw]

theorem standing_congr (e e' : Endpoint I G R SR EV) (hkeeps : Keeps e e') (hu : e.HandlesUnique)
    (handle : ServiceHandle)
    (hflag : ∀ key r r', e.route key = some r → e'.route key = some r' → r.handle = handle →
      r'.withdrawing = r.withdrawing) : e'.standing handle = e.standing handle := by
  cases hstands : e.standing handle with
  | none =>
    rw [standing_none_iff, hkeeps.has]
    exact (e.standing_none_iff handle).mp hstands
  | some leaving =>
    obtain ⟨key, r, hr, hh, hw⟩ := (e.standing_some_iff hu handle leaving).mp hstands
    have hat := hkeeps.at_ key
    rw [handleAt, handleAt, hr, Option.map_some] at hat
    obtain ⟨r', hr', hh'⟩ := Option.map_eq_some_iff.mp hat
    rw [standing_some_iff e' (hkeeps.unique hu)]
    refine ⟨key, r', hr', hh'.trans hh, ?_⟩
    rw [hflag key r r' hr hr' hh, hw]

structure Unmoved (e e' : Endpoint I G R SR EV) : Prop where
  keeps : Keeps e e'
  standing : ∀ handle, e'.standing handle = e.standing handle
  farewells : ∀ handle, e'.farewells handle = e.farewells handle

theorem Unmoved.rfl' {e : Endpoint I G R SR EV} : Unmoved e e :=
  ⟨Keeps.rfl', fun _ => rfl, fun _ => rfl⟩

theorem Unmoved.trans {e e' e'' : Endpoint I G R SR EV} (h : Unmoved e e') (h' : Unmoved e' e'') :
    Unmoved e e'' where
  keeps := h.keeps.trans h'.keeps
  standing handle := (h'.standing handle).trans (h.standing handle)
  farewells handle := (h'.farewells handle).trans (h.farewells handle)

def Idle : EndpointCall I → Prop
  | .register _ | .unregister _ | .forceRemove _ | .drain => False
  | _ => True

theorem next_idle_keeps (c : HostCall I) (h : Idle c.call) :
    Keeps e (e.next c) := by
  obtain ⟨now, call⟩ := c
  cases call with
  | register records => cases h
  | unregister handle => cases h
  | forceRemove handle => cases h
  | drain => cases h
  | event key event => exact dispatch_keeps e key event now
  | serviceTimeout handle => exact handleServiceTimeout_keeps e handle now
  | serviceTransmit handle buf => exact pollServiceTransmit_keeps e handle now buf
  | serviceOutcome handle v4 v6 => exact noteServiceTransmitOutcome_keeps e handle now v4 v6
  | serviceUpdate handle => exact pollService_keeps e handle
  | withdrawalTransmit scratch => exact pollWithdrawalLoop_keeps now scratch _ e
  | withdrawalResult token v4 v6 => exact noteWithdrawalResult_keeps e token now v4 v6
  | timeout => exact ⟨fun _ => rfl, rfl⟩

theorem next_idle_farewells (c : HostCall I) (h : Idle c.call)
    (handle : ServiceHandle) : (e.next c).farewells handle = e.farewells handle := by
  obtain ⟨now, call⟩ := c
  cases call with
  | register records => cases h
  | unregister handle => cases h
  | forceRemove handle => cases h
  | drain => cases h
  | event key event =>
    change (e.dispatch key event now).farewells handle = _
    unfold dispatch
    split
    · rfl
    · rfl
  | serviceTimeout by_ =>
    change (e.handleServiceTimeout by_ now).1.farewells handle = _
    rcases e.handleServiceTimeout_cases by_ now with heq | ⟨key, r, mid, -, -, -, rfl, heq⟩
    · rw [heq]
    · rw [heq]
      exact drainRenameGoodbye_farewells _ _ _ _
  | serviceTransmit by_ buf =>
    change (e.pollServiceTransmit by_ now buf).1.farewells handle = _
    rcases e.pollServiceTransmit_cases by_ now buf with heq | ⟨key, r, -, -, -, -, heq⟩
    · rw [heq]
    · rw [heq]
      rfl
  | serviceOutcome by_ v4 v6 =>
    change (e.noteServiceTransmitOutcome by_ now v4 v6).1.farewells handle = _
    rcases e.noteServiceTransmitOutcome_cases by_ now v4 v6 with heq |
      ⟨key, r, mid, -, -, -, rfl, heq⟩
    · rw [heq]
    · rw [heq, drainRenameGoodbye_farewells]
      split
      · exact reclaimDetachedGoodbyes_farewells _ _ _ _
      · rfl
  | serviceUpdate by_ =>
    change (e.pollService by_).1.farewells handle = _
    rcases e.pollService_cases by_ with heq | ⟨key, r, -, -, heq⟩
    · rw [heq]
    · rw [heq]
      rfl
  | withdrawalTransmit scratch => exact pollWithdrawalTransmit_farewells e now scratch handle
  | withdrawalResult token v4 v6 => exact noteWithdrawalResult_farewells e token now v4 v6 handle
  | timeout => rfl

theorem RouteMove.flag (c : HostCall I) (key : Nat) (r r' : Route I R EV)
    (h : Idle c.call) (hmove : RouteMove e c key r r') : r'.withdrawing = r.withdrawing := by
  cases hmove with
  | kept => rfl
  | event event hc => rfl
  | timeout handle hc hkey hw =>
    unfold Route.handedOver Route.mirrorName
    dsimp only
    split
    · rfl
    · rfl
  | polled handle buf hc hkey hw => rfl
  | confirmed handle v4 v6 hc hkey => rfl
  | updated handle hc hkey => rfl
  | drained hc => rfl
  | withdrawn hc r' hr =>
    rw [hc] at h
    cases h

theorem next_unmoved (hu : e.HandlesUnique) (c : HostCall I)
    (h : Idle c.call) : Unmoved e (e.next c) where
  keeps := next_idle_keeps e c h
  standing handle := by
    apply standing_congr e _ (next_idle_keeps e c h) hu
    intro key r r' hr hr' _
    rcases e.next_moves c key r hr with ⟨moved, hmoved, hmove⟩ | ⟨hnone, -⟩
    · rw [hmoved] at hr'
      cases hr'
      exact hmove.flag e c key r r' h
    · rw [hnone] at hr'
      cases hr'
  farewells := next_idle_farewells e c h

/-- Each handle has one route, and one goodbye is in flight for each that is leaving and for no
other; no handle that is still to be given out has a route. -/
structure Rostered (e : Endpoint I G R SR EV) : Prop where
  unique : e.HandlesUnique
  farewells : ∀ handle, e.farewells handle = if e.standing handle = some true then 1 else 0
  minted : ∀ handle, e.Has handle →
    handle.raw < e.nextServiceHandle ∨ e.nextServiceHandle = lastServiceHandle.raw

theorem tryNew_has (config : EndpointConfig) (rng : G) (handle : ServiceHandle) :
    ¬(tryNew config rng : Endpoint I G R SR EV).Has handle := by
  rintro ⟨key, hat⟩
  rw [handleAt, tryNew_route] at hat
  cases hat

theorem tryNew_rostered (config : EndpointConfig) (rng : G) :
    Rostered (tryNew config rng : Endpoint I G R SR EV) where
  unique i j handle hi _ := absurd ⟨i, hi⟩ (tryNew_has config rng handle)
  farewells handle := by
    rw [(standing_none_iff _ handle).mpr (tryNew_has config rng handle)]
    rfl
  minted handle h := absurd h (tryNew_has config rng handle)

theorem Unmoved.rostered {e e' : Endpoint I G R SR EV} (h : Unmoved e e') (he : Rostered e) :
    Rostered e' where
  unique := h.keeps.unique he.unique
  farewells handle := by
    rw [h.farewells, h.standing]
    exact he.farewells handle
  minted handle hhas := by
    rw [h.keeps.next]
    exact he.minted handle ((h.keeps.has handle).mp hhas)

theorem drainRenameGoodbye_unmoved (hu : e.HandlesUnique) (key : Nat)
    (now : I) : Unmoved e (e.drainRenameGoodbye key now) where
  keeps := drainRenameGoodbye_keeps e key now
  standing handle := by
    apply standing_congr e _ (drainRenameGoodbye_keeps e key now) hu
    intro j r r' hr hr' _
    rw [drainRenameGoodbye_route, hr] at hr'
    split at hr'
    · cases hr'
      rfl
    · cases hr'
      rfl
  farewells := drainRenameGoodbye_farewells e key now

theorem standing_updateRoute (hu : e.HandlesUnique) (key : Nat)
    (r : Route I R EV) (hr : e.route key = some r) (f : Route I R EV → Route I R EV)
    (hf : ∀ r, (f r).handle = r.handle) (handle : ServiceHandle) :
    (e.updateRoute key f).standing handle =
      if handle = r.handle then some (f r).withdrawing else e.standing handle := by
  have hkeeps := updateRoute_keeps e key f hf
  split
  · rename_i heq
    rw [standing_some_iff _ (hkeeps.unique hu)]
    refine ⟨key, f r, ?_, (hf r).trans heq.symm, rfl⟩
    rw [route_updateRoute, if_pos rfl, hr, Option.map_some]
  · rename_i hne
    apply standing_congr e _ hkeeps hu
    intro j old new hold hnew hh
    rw [route_updateRoute, hold] at hnew
    split at hnew
    · rename_i hj
      rw [hj, hr] at hold
      cases hold
      exact absurd hh.symm hne
    · cases hnew
      rfl

theorem beginWithdrawal_standing (h : Rostered e)
    (handle : ServiceHandle) (snapshot : WithdrawalSnapshot) (now : I) (j : ServiceHandle) :
    (e.beginWithdrawal handle snapshot now).standing j =
        (if j = handle then (e.standing j).map fun _ => true else e.standing j) ∧
      (e.beginWithdrawal handle snapshot now).farewells j =
        if (e.beginWithdrawal handle snapshot now).standing j = some true then 1 else 0 := by
  have hunmoved : ∀ e' : Endpoint I G R SR EV, e' = e →
      (j = handle → e.standing j = none ∨ e.standing j = some true) →
        e'.standing j = (if j = handle then (e.standing j).map fun _ => true else e.standing j) ∧
          e'.farewells j = if e'.standing j = some true then 1 else 0 := by
    intro e' he hstands
    subst he
    refine ⟨?_, h.farewells j⟩
    split
    · rename_i hj
      cases hstands hj with
      | inl hnone => rw [hnone, Option.map_none]
      | inr hsome => rw [hsome, Option.map_some]
    · rfl
  rcases e.serviceKey_cases handle with hkey | ⟨key, r, hkey, hr, hh⟩
  · apply hunmoved
    · unfold beginWithdrawal
      rw [hkey]
    · intro hj
      left
      rw [hj]
      exact e.standing_of_no_key handle hkey
  · cases hany : e.withdrawals.any fun tw => tw.2.route == some handle with
    | true =>
      apply hunmoved
      · unfold beginWithdrawal
        rw [hkey]
        dsimp only
        rw [hany, if_pos rfl]
      · intro hj
        right
        have hpos := (e.any_leavers handle).mp hany
        rw [h.farewells handle] at hpos
        split at hpos
        · rename_i hstands
          rw [hj]
          exact hstands
        · exact absurd hpos (Nat.lt_irrefl 0)
    | false =>
      have hzero : e.farewells handle = 0 := by
        apply Nat.eq_zero_of_not_pos
        rw [← e.any_leavers handle, hany]
        exact Bool.false_ne_true
      have hstands : e.standing handle = some r.withdrawing :=
        (e.standing_some_iff h.unique handle _).mpr ⟨key, r, hr, hh, rfl⟩
      obtain ⟨item, hunfold, hleft⟩ : ∃ item : WithdrawalItem I,
          e.beginWithdrawal handle snapshot now = (e.updateRoute key fun route => { route with
            proto := route.proto.quiesceForWithdrawal
            withdrawing := true }).enqueueWithdrawal item ∧ item.route = some handle := by
        unfold beginWithdrawal
        rw [hkey]
        dsimp only
        rw [hany, if_neg Bool.false_ne_true]
        exact ⟨_, rfl, rfl⟩
      have hleaving : (e.beginWithdrawal handle snapshot now).standing j =
          if j = handle then some true else e.standing j := by
        have hupdated := standing_updateRoute e h.unique key r hr (fun route =>
          { route with proto := route.proto.quiesceForWithdrawal, withdrawing := true })
          (fun _ => rfl) j
        rw [hunfold, ← hh]
        exact hupdated
      have hcounted : (e.beginWithdrawal handle snapshot now).farewells j =
          e.farewells j + if some handle = some j then 1 else 0 := by
        rw [hunfold, enqueueWithdrawal_farewells, updateRoute_farewells, hleft]
      rw [hleaving, hcounted]
      by_cases hj : j = handle
      · rw [if_pos hj, if_pos hj, hj, hstands, hzero, Option.map_some, if_pos rfl]
        exact ⟨rfl, rfl⟩
      · have hother : ¬some handle = some j := fun heq => hj (Option.some.inj heq).symm
        simp only [if_neg hj, if_neg hother, Nat.add_zero]
        exact ⟨trivial, h.farewells j⟩

theorem beginWithdrawal_rostered (h : Rostered e)
    (handle : ServiceHandle) (snapshot : WithdrawalSnapshot) (now : I) :
    Rostered (e.beginWithdrawal handle snapshot now) where
  unique := (beginWithdrawal_keeps e handle snapshot now).unique h.unique
  farewells j := (beginWithdrawal_standing e h handle snapshot now j).2
  minted j hhas := by
    have hkeeps := beginWithdrawal_keeps e handle snapshot now
    rw [hkeeps.next]
    exact h.minted j ((hkeeps.has j).mp hhas)

theorem unregisterService_standing (h : Rostered e)
    (handle : ServiceHandle) (now : I) :
    Rostered (e.unregisterService handle now) ∧ ∀ j, (e.unregisterService handle now).standing j =
      if j = handle then (e.standing j).map fun _ => true else e.standing j := by
  unfold unregisterService
  rcases e.serviceKey_cases handle with hkey | ⟨key, r, hkey, hr, hh⟩
  · rw [hkey]
    dsimp only
    refine ⟨h, fun j => ?_⟩
    split
    · rename_i hj
      rw [hj, e.standing_of_no_key handle hkey, Option.map_none]
    · rfl
  · have hdrained := drainRenameGoodbye_unmoved e h.unique key now
    have hroute : (e.drainRenameGoodbye key now).route key = some r.handedOver := by
      rw [drainRenameGoodbye_route, if_pos rfl, hr, Option.map_some]
    rw [hkey]
    dsimp only
    rw [hroute]
    dsimp only
    refine ⟨beginWithdrawal_rostered _ (hdrained.rostered h) _ _ _, fun j => ?_⟩
    rw [(beginWithdrawal_standing _ (hdrained.rostered h) handle _ now j).1, hdrained.standing]

theorem registerError_unmoved (e e' : Endpoint I G R SR EV) (records : ServiceRecords) (now : I)
    (err : RegisterServiceError) (h : e.tryRegisterService records now = (e', .error err))
    (he : Rostered e) : Rostered e' ∧ (∀ j, e'.standing j = e.standing j) ∧
      (∀ j, e'.farewells j = e.farewells j) := by
  have hnext := (tryRegisterService_error e e' records now err h).2
  have hservices : e'.services = e.services ∧ e'.withdrawals = e.withdrawals := by
    unfold tryRegisterService at h
    split at h
    · cases h
      exact ⟨rfl, rfl⟩
    · dsimp only at h
      split at h
      · cases h
        exact ⟨rfl, rfl⟩
      · cases h
  have hroute : ∀ key, e'.route key = e.route key := by
    intro key
    rw [route, route, hservices.1]
  have hat : ∀ key, e'.handleAt key = e.handleAt key := by
    intro key
    rw [handleAt, handleAt, hroute]
  have hstanding : ∀ j, e'.standing j = e.standing j := by
    intro j
    unfold standing serviceKey routes
    rw [hservices.1, show e'.route = e.route from funext hroute]
  have hfarewells : ∀ j, e'.farewells j = e.farewells j := by
    intro j
    unfold farewells leavers
    rw [hservices.2]
  refine ⟨⟨?_, ?_, ?_⟩, hstanding, hfarewells⟩
  · intro i j handle hi hj
    rw [hat] at hi hj
    exact he.unique i j handle hi hj
  · intro handle
    rw [hfarewells, hstanding]
    exact he.farewells handle
  · intro handle hhas
    have hbefore : e.Has handle := by
      obtain ⟨key, hkey⟩ := hhas
      exact ⟨key, (hat key).symm.trans hkey⟩
    rcases hnext with hsame | hsucc
    · rw [hsame]
      exact he.minted handle hbefore
    · rw [hsucc]
      exact minted_succ _ _ (he.minted handle hbefore)

def Mintable (e : Endpoint I G R SR EV) : Prop :=
  e.nextServiceHandle = lastServiceHandle.raw → ¬e.Has lastServiceHandle

theorem Rostered.fresh {e : Endpoint I G R SR EV} (h : Rostered e) (hmint : e.Mintable) :
    ¬e.Has ⟨e.nextServiceHandle⟩ := by
  intro hhas
  rcases h.minted _ hhas with hlt | hlast
  · exact absurd hlt (UInt32.lt_irrefl _)
  · rw [hlast] at hhas
    exact hmint hlast hhas

theorem registerOk_standing (e e' : Endpoint I G R SR EV) (records : ServiceRecords) (now : I)
    (handle : ServiceHandle) (h : e.tryRegisterService records now = (e', .ok handle))
    (he : Rostered e) (hmint : e.Mintable) :
    Rostered e' ∧ e.standing handle = none ∧
      ∀ j, e'.standing j = if j = handle then some false else e.standing j := by
  obtain ⟨hhandle, hnext, key, hvacant, hat⟩ := tryRegisterService_ok e e' records now handle h
  have hnot : ¬e.Has handle := by
    rw [hhandle]
    exact he.fresh hmint
  have hplace : e'.withdrawals = e.withdrawals ∧ ∃ k r, e.route k = none ∧ r.withdrawing = false ∧
      ∀ j, e'.route j = if j = k then some r else e.route j := by
    unfold tryRegisterService at h
    split at h
    · cases h
    · dsimp only at h
      split at h
      · cases h
      · rename_i k services hins
        cases h
        obtain ⟨hfree, hget⟩ := LawfulPool.get_insert _ services _ k hins
        exact ⟨rfl, k, _, hfree, rfl, hget⟩
  obtain ⟨hws, k, r, hfree, hflag, hroute⟩ := hplace
  have hk : k = key ∧ r.handle = handle := by
    have hnew := hat k
    rw [handleAt, hroute, if_pos rfl, Option.map_some] at hnew
    split at hnew
    · rename_i hk
      exact ⟨hk, Option.some.inj hnew⟩
    · rw [handleAt, hfree] at hnew
      cases hnew
  have hunique := he.unique.filled e e' key handle hat hnot
  have hstanding : ∀ j, e'.standing j = if j = handle then some false else e.standing j := by
    intro j
    split
    · rename_i hj
      rw [standing_some_iff e' hunique]
      exact ⟨k, r, by rw [hroute, if_pos rfl], hk.2.trans hj.symm, hflag⟩
    · rename_i hj
      cases hstands : e.standing j with
      | none =>
        rw [standing_none_iff]
        rintro ⟨i, hi⟩
        rw [hat] at hi
        split at hi
        · cases hi
          exact hj rfl
        · exact (e.standing_none_iff j).mp hstands ⟨i, hi⟩
      | some leaving =>
        obtain ⟨i, old, hold, hh, hw⟩ := (e.standing_some_iff he.unique j leaving).mp hstands
        rw [standing_some_iff e' hunique]
        refine ⟨i, old, ?_, hh, hw⟩
        rw [hroute, if_neg, hold]
        intro hik
        rw [hik, hfree] at hold
        cases hold
  have hnone : e.standing handle = none := (e.standing_none_iff handle).mpr hnot
  refine ⟨⟨hunique, ?_, ?_⟩, hnone, hstanding⟩
  · intro j
    have hsame : e'.farewells j = e.farewells j := by
      unfold farewells leavers
      rw [hws]
    have hbefore := he.farewells j
    by_cases hj : j = handle
    · rw [hj, hnone] at hbefore
      have hzero : e.farewells handle = 0 := hbefore
      have hnew : e'.standing handle = some false := by
        rw [hstanding, if_pos rfl]
      rw [hsame, hj, hzero, hnew]
      rfl
    · have hnew : e'.standing j = e.standing j := by
        rw [hstanding, if_neg hj]
      rw [hsame, hnew]
      exact hbefore
  · rintro j ⟨i, hi⟩
    rw [hnext]
    rw [hat] at hi
    split at hi
    · cases hi
      rw [hhandle]
      exact raw_lt_succ _
    · exact minted_succ _ _ (he.minted j ⟨i, hi⟩)

end

variable [ReleasingPool SR]

variable (e : Endpoint I G R SR EV)

theorem freeRoute_unique (hu : e.HandlesUnique) (handle : ServiceHandle) :
    (e.freeRoute handle).HandlesUnique := by
  intro i j other hi hj
  rw [freeRoute_handleAt e handle hu] at hi hj
  exact hu i j other (Option.eq_some_of_filter_eq_some hi) (Option.eq_some_of_filter_eq_some hj)

theorem freeRoute_standing (hu : e.HandlesUnique)
    (handle j : ServiceHandle) :
    (e.freeRoute handle).standing j = if j = handle then none else e.standing j := by
  have hat := freeRoute_handleAt e handle hu
  split
  · rename_i hj
    rw [standing_none_iff]
    rintro ⟨key, hkey⟩
    rw [hat, Option.filter_eq_some_iff] at hkey
    simp [hj] at hkey
  · rename_i hj
    cases hstands : e.standing j with
    | none =>
      rw [standing_none_iff]
      rintro ⟨key, hkey⟩
      rw [hat] at hkey
      exact (e.standing_none_iff j).mp hstands ⟨key, Option.eq_some_of_filter_eq_some hkey⟩
    | some leaving =>
      obtain ⟨key, r, hr, hh, hw⟩ := (e.standing_some_iff hu j leaving).mp hstands
      have hleft : (e.freeRoute handle).handleAt key = some j := by
        rw [hat, handleAt, hr, Option.map_some, hh, Option.filter_some, if_pos (by simpa using hj)]
      obtain ⟨r', hr', -⟩ := Option.map_eq_some_iff.mp hleft
      have hsame := freeRoute_route e handle key r' hr'
      rw [hr] at hsame
      cases hsame
      rw [standing_some_iff _ (freeRoute_unique e hu handle)]
      exact ⟨key, r, hr', hh, hw⟩

theorem freeRoute_farewells (handle j : ServiceHandle) :
    (e.freeRoute handle).farewells j = e.farewells j := by
  unfold freeRoute
  split
  · rfl
  · split
    · rfl
    · rfl

theorem count_eraseP {α β : Type} [BEq β] (p : α → Bool) (g : α → β) (x : α) (l : List α) (b : β)
    (h : l.find? p = some x) :
    ((l.eraseP p).map g).count b + (if g x == b then 1 else 0) = (l.map g).count b := by
  obtain ⟨hx, pre, post, rfl, hpre⟩ := List.find?_eq_some_iff_append.mp h
  have hnone : ∀ a ∈ pre, ¬p a = true := by
    intro a ha
    simpa using hpre a ha
  rw [List.eraseP_append_right _ hnone, List.eraseP_cons_of_pos hx, List.map_append, List.map_append,
    List.map_cons, List.count_append, List.count_append, List.count_cons]
  omega

structure Departed (e : Endpoint I G R SR EV) (st : Endpoint I G R SR EV × List ServiceHandle) :
    Prop where
  rostered : Rostered st.1
  standing : ∀ j, st.1.standing j = if j ∈ st.2 then none else e.standing j
  leaving : ∀ j ∈ st.2, e.standing j = some true

theorem drainToken_departed (now : I)
    (st : Endpoint I G R SR EV × List ServiceHandle) (h : Departed e st) (token : WithdrawalToken) :
    Departed e (drainToken now st token) := by
  obtain ⟨d, out⟩ := st
  unfold drainToken
  dsimp only
  cases hfind : d.withdrawals.find? fun tw => tw.1 == token with
  | none => exact h
  | some tw =>
    obtain ⟨t, item⟩ := tw
    dsimp only
    generalize hd : Endpoint.retainRelinquished { d with
      withdrawals := d.withdrawals.eraseP fun tw => tw.1 == token } item.records
        item.multicast now = d'
    have hstanding : ∀ j, d'.standing j = d.standing j := by
      intro j
      rw [← hd]
      rfl
    have hunique : d'.HandlesUnique := by
      rw [← hd]
      exact h.rostered.unique
    have hnext : d'.nextServiceHandle = d.nextServiceHandle := by
      rw [← hd]
      rfl
    have hhas : ∀ j, d'.Has j ↔ d.Has j := by
      intro j
      rw [← hd]
      exact Iff.rfl
    have hcount : ∀ j, d'.farewells j + (if item.route == some j then 1 else 0) = d.farewells j := by
      intro j
      rw [← hd]
      exact count_eraseP _ (fun tw => tw.2.route) _ _ _ hfind
    cases hroute : item.route with
    | none =>
      refine ⟨⟨hunique, ?_, ?_⟩, ?_, h.leaving⟩
      · intro j
        have hj := hcount j
        rw [hroute] at hj
        have hsame : d'.farewells j = d.farewells j := hj
        rw [hsame, hstanding]
        exact h.rostered.farewells j
      · intro j hj
        rw [hnext]
        exact h.rostered.minted j ((hhas j).mp hj)
      · intro j
        exact (hstanding j).trans (h.standing j)
    | some handle =>
      dsimp only
      have hleaves : d.standing handle = some true := by
        have hone := hcount handle
        rw [hroute, beq_self_eq_true, if_pos rfl, h.rostered.farewells handle] at hone
        by_contra hnot
        rw [if_neg hnot] at hone
        omega
      have hgone : ∀ j, (d'.freeRoute handle).standing j =
          if j = handle then none else d.standing j := by
        intro j
        rw [freeRoute_standing d' hunique, hstanding]
      refine ⟨⟨freeRoute_unique d' hunique handle, ?_, ?_⟩, ?_, ?_⟩
      · intro j
        have hj := hcount j
        rw [hroute] at hj
        rw [freeRoute_farewells]
        by_cases heq : j = handle
        · rw [heq, beq_self_eq_true, if_pos rfl, h.rostered.farewells handle, if_pos hleaves] at hj
          have hzero : d'.farewells handle = 0 := by omega
          have hnone : (d'.freeRoute handle).standing handle = none := by
            rw [hgone, if_pos rfl]
          rw [heq, hzero, hnone]
          rfl
        · have hother : (some handle == some j) = false := by
            rw [beq_eq_false_iff_ne]
            exact fun hs => heq (Option.some.inj hs).symm
          rw [hother] at hj
          have hsame : d'.farewells j = d.farewells j := hj
          have hstands : (d'.freeRoute handle).standing j = d.standing j := by
            rw [hgone, if_neg heq]
          rw [hsame, hstands]
          exact h.rostered.farewells j
      · rintro j ⟨key, hkey⟩
        rw [freeRoute_handleAt d' handle hunique] at hkey
        have hbefore := (hhas j).mp ⟨key, Option.eq_some_of_filter_eq_some hkey⟩
        have hsame : (d'.freeRoute handle).nextServiceHandle = d.nextServiceHandle := by
          rw [← hnext]
          unfold freeRoute
          split
          · rfl
          · split
            · rfl
            · rfl
        rw [hsame]
        exact h.rostered.minted j hbefore
      · intro j
        rw [hgone]
        by_cases heq : j = handle
        · rw [if_pos heq, if_pos]
          rw [heq]
          exact List.mem_append_right _ (List.mem_singleton.mpr rfl)
        · have hmem : j ∈ out ++ [handle] ↔ j ∈ out := by
            rw [List.mem_append, List.mem_singleton]
            exact or_iff_left heq
          have hst := h.standing j
          simp only [if_neg heq, hmem]
          exact hst
      · intro j hj
        cases List.mem_append.mp hj with
        | inl hbefore => exact h.leaving j hbefore
        | inr hnow =>
          have heq := List.mem_singleton.mp hnow
          have hst := h.standing handle
          rw [hleaves] at hst
          split at hst
          · cases hst
          · rw [heq]
            exact hst.symm

theorem drainCompletedWithdrawals_departed (h : Rostered e) (now : I) :
    Departed e (e.drainCompletedWithdrawals now) := by
  have hfold : ∀ (tokens : List WithdrawalToken) (st : Endpoint I G R SR EV × List ServiceHandle),
      Departed e st → Departed e (tokens.foldl (drainToken now) st) := by
    intro tokens
    induction tokens with
    | nil => exact fun st hst => hst
    | cons token rest ih =>
      intro st hst
      exact ih _ (drainToken_departed e now st hst token)
  apply hfold
  refine ⟨h, fun j => ?_, fun j hj => ?_⟩
  · rw [if_neg List.not_mem_nil]
  · cases hj

end Endpoint
end Hick
