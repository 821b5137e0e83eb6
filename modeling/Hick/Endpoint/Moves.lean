import Hick.Endpoint.Handles

/-!
# What the calls of a host can do to the routes

A call moves the route at a key, adds one, or frees one. Whatever holds of every route is
proved from the list of these moves alone.
-/

set_option linter.unusedSectionVars false

namespace Hick
open Octets Wire Respond Runs

namespace Route
variable {I R : Type} {EV : Type → Type} [Instant I] [SeedableRng R] [Pool EV]

def handedOver (r : Route I R EV) : Route I R EV :=
  { r with proto := r.proto.takeRenameGoodbyeHandoff.1 }

def withdrawn (r : Route I R EV) : Route I R EV :=
  { r with
    proto := r.proto.quiesceForWithdrawal
    withdrawing := true }

end Route

namespace Endpoint
variable {I G R : Type} {SR EV : Type → Type} [Instant I] [SeedSource G] [SeedableRng R]
  [Pool SR] [Pool EV]

theorem mirrorName_proto (r : Route I R EV) : (Route.mirrorName r).proto = r.proto := by
  unfold Route.mirrorName
  split <;> rfl

theorem mirrorName_labels (r : Route I R EV) :
    (Route.mirrorName r).name.labels = r.proto.records.instanceName.labels := by
  unfold Route.mirrorName
  split
  · rename_i h
    exact (Name.sameOwner_iff _ _).mp h
  · rfl

inductive RouteMove (e : Endpoint I G R SR EV) (c : HostCall I) (key : Nat) (r : Route I R EV) :
    Route I R EV → Prop
  | kept : RouteMove e c key r r
  | event (event : ServiceEvent) (hc : c.call = .event key event) :
    RouteMove e c key r { r with proto := (r.proto.handleEvent event c.now e.flood).1 }
  | timeout (handle : ServiceHandle) (hc : c.call = .serviceTimeout handle)
    (hkey : e.serviceKey handle = some key) (hw : r.withdrawing = false) :
    RouteMove e c key r
      (Route.mirrorName { r with
        proto := (r.proto.handleTimeout c.now e.flood (e.renameScratch key r)).1 }).handedOver
  | polled (handle : ServiceHandle) (buf : Bytes) (hc : c.call = .serviceTransmit handle buf)
    (hkey : e.serviceKey handle = some key) (hw : r.withdrawing = false) :
    RouteMove e c key r { r with proto := (r.proto.pollDeferred c.now e.flood buf).1 }
  | confirmed (handle : ServiceHandle) (v4 v6 : FamilyAttempt I)
    (hc : c.call = .serviceOutcome handle v4 v6) (hkey : e.serviceKey handle = some key) :
    RouteMove e c key r
      (Route.mirrorAddrs { r with proto := (r.proto.noteTransmitOutcome c.now v4 v6).1 }).handedOver
  | updated (handle : ServiceHandle) (hc : c.call = .serviceUpdate handle)
    (hkey : e.serviceKey handle = some key) :
    RouteMove e c key r { r with proto := r.proto.poll.1 }
  | drained (hc : c.call = .unregister r.handle) : RouteMove e c key r r.handedOver
  | withdrawn (hc : c.call = .unregister r.handle) (r' : Route I R EV)
    (hr : r' = r ∨ r' = r.handedOver) : RouteMove e c key r r'.withdrawn

inductive Frees (e : Endpoint I G R SR EV) (c : HostCall I) (r : Route I R EV) : Prop
  | forced (hc : c.call = .forceRemove r.handle)
  | drained (hc : c.call = .drain) (hr : r.handle ∈ (e.drainCompletedWithdrawals c.now).2)

variable (e : Endpoint I G R SR EV)

theorem enqueueWithdrawal_route (item : WithdrawalItem I) (key : Nat) :
    (e.enqueueWithdrawal item).route key = e.route key := rfl

theorem enqueueRenameWithdrawal_route (handoff : RenameGoodbyeHandoff)
    (now : I) (holdsName : Bool) (leftBy : ServiceHandle) (key : Nat) :
    (e.enqueueRenameWithdrawal handoff now holdsName leftBy).route key = e.route key := by
  unfold enqueueRenameWithdrawal
  dsimp only
  split <;> rfl

variable [LawfulPool SR]

theorem drainRenameGoodbye_route (key : Nat) (now : I) (j : Nat) :
    (e.drainRenameGoodbye key now).route j =
      if j = key then (e.route j).map Route.handedOver else e.route j := by
  unfold drainRenameGoodbye
  cases hr : e.route key with
  | none =>
    dsimp only
    split
    · rename_i hj
      rw [hj, hr]
      rfl
    · rfl
  | some r =>
    dsimp only
    cases hoff : r.proto.renameGoodbyeHandoff with
    | none =>
      have hsame : r.handedOver = r := by
        have hproto : r.proto.takeRenameGoodbyeHandoff.1 = r.proto := by
          unfold Service.takeRenameGoodbyeHandoff
          rw [← hoff]
        unfold Route.handedOver
        rw [hproto]
      dsimp only
      split
      · rename_i hj
        rw [hj, hr, Option.map_some, hsame]
      · rfl
    | some handoff =>
      dsimp only
      rw [enqueueRenameWithdrawal_route, route_updateRoute]
      rfl

theorem beginWithdrawal_route (handle : ServiceHandle)
    (snapshot : WithdrawalSnapshot) (now : I) (j : Nat) :
    (e.beginWithdrawal handle snapshot now).route j = e.route j ∨
      ∃ r, e.route j = some r ∧ r.handle = handle ∧
        (e.beginWithdrawal handle snapshot now).route j = some r.withdrawn := by
  unfold beginWithdrawal
  cases hkey : e.serviceKey handle with
  | none => exact .inl rfl
  | some key =>
    dsimp only
    obtain ⟨r, hr, hh⟩ := e.serviceKey_some handle key hkey
    by_cases hbusy : (e.withdrawals.any fun tw => tw.2.route == some handle) = true
    · rw [if_pos hbusy]
      exact .inl rfl
    · rw [if_neg hbusy, enqueueWithdrawal_route, route_updateRoute]
      by_cases hj : j = key
      · subst hj
        refine .inr ⟨r, hr, hh, ?_⟩
        rw [if_pos rfl, hr]
        rfl
      · rw [if_neg hj]
        exact .inl rfl

theorem reclaimDetachedGoodbyes_route (handle : ServiceHandle)
    (name : Name) (j : Nat) :
    (e.reclaimDetachedGoodbyes handle name).route j = e.route j := by
  unfold reclaimDetachedGoodbyes
  split
  · rfl
  · split <;> rfl

theorem retain_fold_route (now : I) (dropped : List (WithdrawalToken × WithdrawalItem I))
    (e : Endpoint I G R SR EV) (j : Nat) :
    (dropped.foldl (fun e tw => e.retainRelinquished tw.2.records tw.2.multicast now) e).route j =
      e.route j := by
  induction dropped generalizing e with
  | nil => rfl
  | cons tw rest ih =>
    rw [List.foldl_cons, ih]
    rfl

theorem drainToken_route (now : I) (st : Endpoint I G R SR EV × List ServiceHandle)
    (token : WithdrawalToken) (j : Nat) :
    (drainToken now st token).1.route j = st.1.route j ∨
      (drainToken now st token).1.route j = none ∧
        ∃ r, st.1.route j = some r ∧ r.handle ∈ (drainToken now st token).2 := by
  obtain ⟨e, out⟩ := st
  unfold drainToken
  dsimp only
  cases hfind : e.withdrawals.find? fun tw => tw.1 == token with
  | none => exact .inl rfl
  | some tw =>
    obtain ⟨t, item⟩ := tw
    dsimp only
    cases hroute : item.route with
    | none => exact .inl rfl
    | some handle =>
      dsimp only
      unfold freeRoute
      generalize hd : Endpoint.retainRelinquished { e with
        withdrawals := e.withdrawals.eraseP fun tw => tw.1 == token } item.records
          item.multicast now = d
      have hsame : ∀ i, d.route i = e.route i := by
        intro i
        rw [← hd]
        rfl
      cases hkey : d.serviceKey handle with
      | none =>
        dsimp only
        exact .inl (hsame j)
      | some key =>
        obtain ⟨r, hr, hh⟩ := d.serviceKey_some handle key hkey
        dsimp only
        cases hrem : Pool.tryRemove d.services key with
        | none => exact .inl (hsame j)
        | some removed =>
          have hget := d.route_tryRemove key j removed.1 removed.2 hrem
          by_cases hj : j = key
          · subst hj
            rw [if_pos rfl] at hget
            refine .inr ⟨hget, r, by rw [← hsame]; exact hr, ?_⟩
            rw [hh]
            exact List.mem_append_right _ (List.mem_singleton.mpr rfl)
          · rw [if_neg hj] at hget
            exact .inl (hget.trans (hsame j))

theorem drainToken_reports (now : I) (st : Endpoint I G R SR EV × List ServiceHandle)
    (token : WithdrawalToken) (handle : ServiceHandle) (h : handle ∈ st.2) :
    handle ∈ (drainToken now st token).2 := by
  obtain ⟨e, out⟩ := st
  unfold drainToken
  dsimp only
  split
  · exact h
  · split
    · exact h
    · exact List.mem_append_left _ h

theorem drain_fold_reports (now : I) (tokens : List WithdrawalToken)
    (st : Endpoint I G R SR EV × List ServiceHandle) (handle : ServiceHandle) (h : handle ∈ st.2) :
    handle ∈ (tokens.foldl (drainToken now) st).2 := by
  induction tokens generalizing st with
  | nil => exact h
  | cons token rest ih =>
    rw [List.foldl_cons]
    exact ih _ (drainToken_reports now st token handle h)

theorem drain_fold_route (now : I) (tokens : List WithdrawalToken)
    (st : Endpoint I G R SR EV × List ServiceHandle) (j : Nat) :
    (tokens.foldl (drainToken now) st).1.route j = st.1.route j ∨
      (tokens.foldl (drainToken now) st).1.route j = none ∧
        ∃ r, st.1.route j = some r ∧ r.handle ∈ (tokens.foldl (drainToken now) st).2 := by
  induction tokens generalizing st with
  | nil => exact .inl rfl
  | cons token rest ih =>
    rw [List.foldl_cons]
    rcases ih (drainToken now st token) with hrest | ⟨hrest, r, hr, hmem⟩
    · rcases drainToken_route now st token j with hkeep | ⟨hnone, r, hr, hmem⟩
      · exact .inl (hrest.trans hkeep)
      · exact .inr ⟨hrest.trans hnone, r, hr, drain_fold_reports now rest _ r.handle hmem⟩
    · rcases drainToken_route now st token j with hkeep | ⟨hnone, _⟩
      · exact .inr ⟨hrest, r, hkeep ▸ hr, hmem⟩
      · rw [hnone] at hr
        cases hr

theorem forceRemoveService_route (handle : ServiceHandle) (now : I)
    (j : Nat) :
    (e.forceRemoveService handle now).1.route j = e.route j ∨
      (e.forceRemoveService handle now).1.route j = none ∧
        ∃ r, e.route j = some r ∧ r.handle = handle := by
  unfold forceRemoveService
  cases hkey : e.serviceKey handle with
  | none => exact .inl rfl
  | some key =>
    obtain ⟨r, hr, hh⟩ := e.serviceKey_some handle key hkey
    simp only [hr]
    rw [retain_fold_route]
    generalize hd : e.retainRelinquished r.proto.withdrawalSnapshot.records
      r.proto.withdrawalSnapshot.multicast now = d
    have hsame : ∀ i, d.route i = e.route i := by
      intro i
      rw [← hd]
      rfl
    cases hrem : Pool.tryRemove d.services key with
    | none => exact .inl (hsame j)
    | some removed =>
      have hget := d.route_tryRemove key j removed.1 removed.2 hrem
      by_cases hj : j = key
      · subst hj
        rw [if_pos rfl] at hget
        exact .inr ⟨hget, r, hr, hh⟩
      · rw [if_neg hj] at hget
        exact .inl (hget.trans (hsame j))

theorem next_moves (c : HostCall I) (key : Nat) (r : Route I R EV)
    (h : e.route key = some r) :
    (∃ r', (e.next c).route key = some r' ∧ RouteMove e c key r r') ∨
      (e.next c).route key = none ∧ Frees e c r := by
  obtain ⟨now, call⟩ := c
  have hstays : ∀ e' : Endpoint I G R SR EV, e'.route key = e.route key →
      ∃ r', e'.route key = some r' ∧ RouteMove e ⟨now, call⟩ key r r' := by
    intro e' he'
    exact ⟨r, he'.trans h, .kept⟩
  have hupdates : ∀ (k : Nat) (route : Route I R EV) (f : Route I R EV → Route I R EV),
      e.route k = some route →
        (k = key → route = r → RouteMove e ⟨now, call⟩ key r (f r)) →
          ∃ r', (e.updateRoute k f).route key = some r' ∧ RouteMove e ⟨now, call⟩ key r r' := by
    intro k route f hk hmove
    rw [route_updateRoute]
    by_cases hj : key = k
    · subst hj
      rw [h] at hk
      rw [if_pos rfl, h]
      exact ⟨_, rfl, hmove rfl (Option.some.inj hk).symm⟩
    · rw [if_neg hj]
      exact ⟨r, h, .kept⟩
  cases call with
  | register records =>
    refine .inl (hstays _ ?_)
    change (e.tryRegisterService records now).1.route key = e.route key
    unfold tryRegisterService
    cases e.registerChecks records with
    | error err => rfl
    | ok _ =>
      dsimp only
      split
      · rfl
      · rename_i k services hins
        obtain ⟨hvacant, hget⟩ := LawfulPool.get_insert _ services _ k hins
        change Pool.get services key = e.route key
        rw [hget key]
        split
        · rename_i hk
          rw [hk] at h
          have hnone : e.route k = none := hvacant
          rw [hnone] at h
          cases h
        · rfl
  | event k event =>
    change (∃ r', (e.dispatch k event now).route key = some r' ∧ _) ∨ _
    unfold dispatch
    cases hk : e.route k with
    | none => exact .inl (hstays _ rfl)
    | some route =>
      refine .inl (hupdates k route (fun route' =>
        { route' with proto := (route.proto.handleEvent event now e.flood).1 }) hk ?_)
      rintro rfl rfl
      exact .event event rfl
  | serviceTimeout handle =>
    change (∃ r', (e.handleServiceTimeout handle now).1.route key = some r' ∧ _) ∨ _
    rcases e.handleServiceTimeout_cases handle now with heq |
      ⟨k, route, mid, hkey, hk, hw, rfl, heq⟩
    · rw [heq]
      exact .inl (hstays _ rfl)
    · rw [heq, drainRenameGoodbye_route, route_updateRoute]
      by_cases hj : key = k
      · subst hj
        rw [h] at hk
        cases hk
        rw [if_pos rfl, if_pos rfl, h]
        exact .inl ⟨_, rfl, .timeout handle rfl hkey hw⟩
      · rw [if_neg hj, if_neg hj]
        exact .inl ⟨r, h, .kept⟩
  | serviceTransmit handle buf =>
    change (∃ r', (e.pollServiceTransmit handle now buf).1.route key = some r' ∧ _) ∨ _
    rcases e.pollServiceTransmit_cases handle now buf with heq | ⟨k, route, hkey, hk, -, hw, heq⟩
    · rw [heq]
      exact .inl (hstays _ rfl)
    · rw [heq]
      refine .inl (hupdates k route _ hk ?_)
      rintro rfl rfl
      exact .polled handle buf rfl hkey hw
  | serviceOutcome handle v4 v6 =>
    change (∃ r', (e.noteServiceTransmitOutcome handle now v4 v6).1.route key = some r' ∧ _) ∨ _
    rcases e.noteServiceTransmitOutcome_cases handle now v4 v6 with heq |
      ⟨k, route, mid, hkey, hk, -, hmid, heq⟩
    · rw [heq]
      exact .inl (hstays _ rfl)
    · have hreclaim : ∀ (p : Prop) [Decidable p],
          (if p then mid.reclaimDetachedGoodbyes handle route.name else mid).route key =
            mid.route key := by
        intro p _
        split
        · exact mid.reclaimDetachedGoodbyes_route handle route.name key
        · rfl
      rw [heq, drainRenameGoodbye_route, hreclaim, hmid, route_updateRoute]
      by_cases hj : key = k
      · subst hj
        rw [h] at hk
        cases hk
        rw [if_pos rfl, if_pos rfl, h]
        exact .inl ⟨_, rfl, .confirmed handle v4 v6 rfl hkey⟩
      · rw [if_neg hj, if_neg hj]
        exact .inl ⟨r, h, .kept⟩
  | serviceUpdate handle =>
    change (∃ r', (e.pollService handle).1.route key = some r' ∧ _) ∨ _
    rcases e.pollService_cases handle with heq | ⟨k, route, hkey, hk, heq⟩
    · rw [heq]
      exact .inl (hstays _ rfl)
    · rw [heq]
      refine .inl (hupdates k route _ hk ?_)
      rintro rfl rfl
      exact .updated handle rfl hkey
  | unregister handle =>
    change (∃ r', (e.unregisterService handle now).route key = some r' ∧ _) ∨ _
    unfold unregisterService
    cases hkey : e.serviceKey handle with
    | none => exact .inl (hstays _ rfl)
    | some k =>
      dsimp only
      obtain ⟨route, hk, hh⟩ := e.serviceKey_some handle k hkey
      have hdrained := e.drainRenameGoodbye_route k now
      cases hroute : (e.drainRenameGoodbye k now).route k with
      | none =>
        rw [hdrained, if_pos rfl, hk] at hroute
        cases hroute
      | some drained =>
        dsimp only
        have hcall : ∀ r' : Route I R EV, r'.handle = handle →
            (⟨now, .unregister handle⟩ : HostCall I).call = .unregister r'.handle := by
          intro r' hr'
          rw [hr']
        rcases beginWithdrawal_route (e.drainRenameGoodbye k now) handle
          drained.proto.withdrawalSnapshot now key with hsame | ⟨r', hr', hhandle, hwithdrawn⟩
        · rw [hdrained] at hsame
          by_cases hj : key = k
          · subst hj
            rw [h] at hk
            cases hk
            rw [if_pos rfl, h] at hsame
            exact .inl ⟨_, hsame, .drained (hcall r hh)⟩
          · rw [if_neg hj] at hsame
            exact .inl (hstays _ hsame)
        · rw [hdrained] at hr'
          by_cases hj : key = k
          · subst hj
            rw [h] at hk
            cases hk
            rw [if_pos rfl, h] at hr'
            cases hr'
            exact .inl ⟨_, hwithdrawn, .withdrawn (hcall r hh) _ (.inr rfl)⟩
          · rw [if_neg hj, h] at hr'
            cases hr'
            exact .inl ⟨_, hwithdrawn, .withdrawn (hcall r hhandle) _ (.inl rfl)⟩
  | forceRemove handle =>
    rcases e.forceRemoveService_route handle now key with hkeep | ⟨hnone, r', hr', hh⟩
    · exact .inl (hstays _ hkeep)
    · rw [h] at hr'
      cases hr'
      exact .inr ⟨hnone, .forced (by rw [hh])⟩
  | withdrawalTransmit scratch =>
    refine .inl (hstays _ ?_)
    change (e.pollWithdrawalTransmit now scratch).1.route key = e.route key
    rw [pollWithdrawalTransmit_eq]
    rfl
  | withdrawalResult token v4 v6 =>
    refine .inl (hstays _ ?_)
    change (e.noteWithdrawalResult token now v4 v6).route key = e.route key
    unfold noteWithdrawalResult
    split <;> rfl
  | drain =>
    rcases drain_fold_route now _ (e, []) key with hkeep | ⟨hnone, r', hr', hmem⟩
    · exact .inl (hstays _ hkeep)
    · have hr : e.route key = some r' := hr'
      rw [h] at hr
      cases hr
      exact .inr ⟨hnone, .drained rfl hmem⟩
  | timeout => exact .inl (hstays _ rfl)

theorem next_fills (c : HostCall I) (key : Nat) (r : Route I R EV)
    (hvacant : e.route key = none) (h : (e.next c).route key = some r) :
    ∃ records, c.call = .register records ∧ e.registerChecks records = .ok () ∧ ∃ seed,
      r = e.newRoute records c.now seed := by
  obtain ⟨now, call⟩ := c
  have hkept : ∀ e' : Endpoint I G R SR EV, Keeps e e' → e'.route key = some r → False := by
    intro e' hkeeps hr
    have hat := hkeeps.at_ key
    rw [handleAt, handleAt, hvacant, hr] at hat
    cases hat
  cases call with
  | register records =>
    refine ⟨records, rfl, ?_⟩
    change (e.tryRegisterService records now).1.route key = some r at h
    unfold tryRegisterService at h
    cases hchecks : e.registerChecks records with
    | error err =>
      rw [hchecks] at h
      have hsame : e.route key = some r := h
      rw [hvacant] at hsame
      cases hsame
    | ok _ =>
      rw [hchecks] at h
      dsimp only at h
      split at h
      · have hsame : e.route key = some r := h
        rw [hvacant] at hsame
        cases hsame
      · rename_i k services hins
        obtain ⟨-, hget⟩ := LawfulPool.get_insert _ services _ k hins
        have hr : Pool.get services key = some r := h
        rw [hget key] at hr
        split at hr
        · cases hr
          exact ⟨rfl, _, rfl⟩
        · have hsame : e.route key = some r := hr
          rw [hvacant] at hsame
          cases hsame
  | event k event => exact absurd h fun hr => hkept _ (dispatch_keeps e k event now) hr
  | serviceTimeout handle =>
    exact absurd h fun hr => hkept _ (handleServiceTimeout_keeps e handle now) hr
  | serviceTransmit handle buf =>
    exact absurd h fun hr => hkept _ (pollServiceTransmit_keeps e handle now buf) hr
  | serviceOutcome handle v4 v6 =>
    exact absurd h fun hr => hkept _ (noteServiceTransmitOutcome_keeps e handle now v4 v6) hr
  | serviceUpdate handle => exact absurd h fun hr => hkept _ (pollService_keeps e handle) hr
  | unregister handle => exact absurd h fun hr => hkept _ (unregisterService_keeps e handle now) hr
  | forceRemove handle =>
    rcases e.forceRemoveService_route handle now key with hsame | ⟨hnone, -⟩
    · have hr := hsame.symm.trans h
      rw [hvacant] at hr
      cases hr
    · have hr := hnone.symm.trans h
      cases hr
  | withdrawalTransmit scratch =>
    exact absurd h fun hr => hkept _ (pollWithdrawalLoop_keeps now scratch _ e) hr
  | withdrawalResult token v4 v6 =>
    exact absurd h fun hr => hkept _ (noteWithdrawalResult_keeps e token now v4 v6) hr
  | drain =>
    rcases drain_fold_route now _ (e, []) key with hsame | ⟨hnone, -⟩
    · have hr := hsame.symm.trans h
      rw [hvacant] at hr
      cases hr
    · have hr := hnone.symm.trans h
      cases hr
  | timeout =>
    have hsame : e.route key = some r := h
    rw [hvacant] at hsame
    cases hsame

theorem next_routes (P : Route I R EV → Prop) (e : Endpoint I G R SR EV) (c : HostCall I)
    (hmove : ∀ key r r', P r → RouteMove e c key r r' → P r')
    (hnew : ∀ records seed, P (e.newRoute records c.now seed))
    (h : ∀ key r, e.route key = some r → P r) (key : Nat) (r : Route I R EV)
    (hr : (e.next c).route key = some r) : P r := by
  cases hbefore : e.route key with
  | none =>
    obtain ⟨records, -, -, seed, rfl⟩ := e.next_fills c key r hbefore hr
    exact hnew records seed
  | some old =>
    rcases e.next_moves c key old hbefore with ⟨r', hr', hmoved⟩ | ⟨hnone, -⟩
    · rw [hr'] at hr
      cases hr
      exact hmove key old r (h key old hbefore) hmoved
    · rw [hnone] at hr
      cases hr

end Endpoint
end Hick
