import Hick.Endpoint.GoodbyeRounds
import Hick.Endpoint.Moves

/-!
# What the calls of a host can do to the goodbyes

A call moves the items that are there, drops some and adds at most two. Whatever holds of every
item is proved from the list of these moves alone.
-/

set_option linter.unusedSectionVars false

namespace Hick
open Octets Wire Respond Runs

namespace WithdrawalItem
variable {I : Type} [Instant I]

def ofHandoff (handoff : RenameGoodbyeHandoff) (now : I) (holdsName : Bool)
    (leftBy : ServiceHandle) : WithdrawalItem I where
  records := handoff.records
  owned := handoff.owned
  multicast := handoff.multicast
  owed := owedPerFamily handoff.owned
  nextAt := now
  ceilingAt := (checkedAddDuration now withdrawalCeiling).getD now
  finalAttempt := false
  route := none
  holdsName := holdsName
  leftBy := leftBy

def ofDeparture (snapshot : WithdrawalSnapshot) (now : I) (handle : ServiceHandle) :
    WithdrawalItem I where
  records := snapshot.records
  owned := snapshot.owned
  multicast := snapshot.multicast
  owed := owedPerFamily snapshot.owned
  nextAt := now
  ceilingAt := (checkedAddDuration now withdrawalCeiling).getD now
  finalAttempt := false
  route := some handle
  holdsName := false
  leftBy := handle

end WithdrawalItem

namespace Endpoint
variable {I G R : Type} {SR EV : Type → Type} [Instant I] [SeedSource G] [SeedableRng R]
  [Pool SR] [Pool EV]

inductive ItemMove (e : Endpoint I G R SR EV) (c : HostCall I) (token : WithdrawalToken)
    (w : WithdrawalItem I) : WithdrawalItem I → Prop
  | kept : ItemMove e c token w w
  | offered (scratch : Bytes) (hc : c.call = .withdrawalTransmit scratch) (isFinal : Bool)
    (hsel : w.selected c.now = some isFinal) :
    ItemMove e c token w (w.round (e.retainedFor w) c.now scratch isFinal).1
  | noted (v4 v6 : FamilyAttempt I) (hc : c.call = .withdrawalResult token v4 v6) :
    ItemMove e c token w (w.noteResult c.now v4 v6)
  | reclaimed (handle : ServiceHandle) (v4 v6 : FamilyAttempt I)
    (hc : c.call = .serviceOutcome handle v4 v6) (name serviceType : Name)
    (subtypes : List Name) (w' : WithdrawalItem I)
    (hleft : w.reclaim name serviceType subtypes = some w') :
    ItemMove e c token w w'

omit [SeedSource G] [SeedableRng R] [Pool EV] in
theorem ItemMove.records (e : Endpoint I G R SR EV) (c : HostCall I) (token : WithdrawalToken)
    (w w' : WithdrawalItem I) (h : ItemMove e c token w w') :
    (w'.records = w.records ∨ ∃ keep, w'.records = w.records.retainSubtypes keep) ∧
      w'.holds = w.holds ∧ w'.leftBy = w.leftBy := by
  cases h with
  | kept => exact ⟨.inl rfl, rfl, rfl⟩
  | offered scratch hc isFinal hsel =>
    have hround := w.round_rounded (e.retainedFor w) c.now scratch isFinal
    generalize w.round (e.retainedFor w) c.now scratch isFinal = out at hround
    cases hround with
    | nothing _ => exact ⟨.inl rfl, rfl, rfl⟩
    | sent msg _ _ => split <;> exact ⟨.inl rfl, rfl, rfl⟩
    | unencodable err _ _ =>
      have hadvanced := w.advanceAfterEncodeFailure_advanced c.now isFinal
      generalize w.advanceAfterEncodeFailure c.now isFinal = after at hadvanced
      cases hadvanced <;> exact ⟨.inl rfl, rfl, rfl⟩
  | noted v4 v6 hc => exact ⟨.inl rfl, rfl, rfl⟩
  | reclaimed handle v4 v6 hc name serviceType subtypes _ hleft =>
    unfold WithdrawalItem.reclaim at hleft
    split at hleft
    · cases hleft
      exact ⟨.inl rfl, rfl, rfl⟩
    · dsimp only at hleft
      split at hleft
      · cases hleft
      · cases hleft
        exact ⟨.inr ⟨_, rfl⟩, rfl, rfl⟩

/-- A service as it is when its goodbye is taken: untouched, or after what the call has it do. -/
inductive HandsOver (e : Endpoint I G R SR EV) (c : HostCall I) (s : Service I R EV) :
    Service I R EV → Prop
  | untouched : HandsOver e c s s
  | timeout (taken : NamesInUse) : HandsOver e c s (s.handleTimeout c.now e.flood taken).1
  | confirmed (v4 v6 : FamilyAttempt I) : HandsOver e c s (s.noteTransmitOutcome c.now v4 v6).1

inductive ItemNew (e : Endpoint I G R SR EV) (c : HostCall I) : WithdrawalItem I → Prop
  | handedOff (key : Nat) (r old : Route I R EV) (hr : (e.next c).route key = some r)
    (hold : e.route key = some old) (s : Service I R EV) (hs : HandsOver e c old.proto s)
    (handoff : RenameGoodbyeHandoff) (hoff : s.renameGoodbyeHandoff = some handoff) :
    ItemNew e c (.ofHandoff handoff c.now
      (r.name.sameOwner handoff.records.instanceName) r.handle)
  | departed (handle : ServiceHandle) (hc : c.call = .unregister handle) (key : Nat)
    (old : Route I R EV) (hold : e.route key = some old) (snapshot : WithdrawalSnapshot)
    (hsnap : snapshot.records = old.proto.records) :
    ItemNew e c (.ofDeparture snapshot c.now handle)

variable (e : Endpoint I G R SR EV)

theorem drainRenameGoodbye_items (key : Nat) (now : I)
    (tw : WithdrawalToken × WithdrawalItem I)
    (h : tw ∈ (e.drainRenameGoodbye key now).withdrawals) :
    tw ∈ e.withdrawals ∨ ∃ r handoff, e.route key = some r ∧
      r.proto.renameGoodbyeHandoff = some handoff ∧
        tw.2 = .ofHandoff handoff now (r.name.sameOwner handoff.records.instanceName) r.handle := by
  unfold drainRenameGoodbye at h
  split at h
  · exact .inl h
  · rename_i r hr
    split at h
    · exact .inl h
    · rename_i handoff hoff
      unfold enqueueRenameWithdrawal at h
      dsimp only at h
      split at h
      · exact .inl h
      · rcases List.mem_append.mp h with hold | hnew
        · exact .inl hold
        · rw [List.mem_singleton.mp hnew]
          exact .inr ⟨r, handoff, hr, hoff, rfl⟩

theorem beginWithdrawal_items (handle : ServiceHandle)
    (snapshot : WithdrawalSnapshot) (now : I) (tw : WithdrawalToken × WithdrawalItem I)
    (h : tw ∈ (e.beginWithdrawal handle snapshot now).withdrawals) :
    tw ∈ e.withdrawals ∨ tw.2 = .ofDeparture snapshot now handle := by
  unfold beginWithdrawal at h
  split at h
  · exact .inl h
  · split at h
    · exact .inl h
    · rcases List.mem_append.mp h with hold | hnew
      · exact .inl hold
      · rw [List.mem_singleton.mp hnew]
        exact .inr rfl

theorem reclaimDetachedGoodbyes_items (handle : ServiceHandle)
    (name : Name) (tw : WithdrawalToken × WithdrawalItem I)
    (h : tw ∈ (e.reclaimDetachedGoodbyes handle name).withdrawals) :
    tw ∈ e.withdrawals ∨ ∃ w serviceType subtypes, (tw.1, w) ∈ e.withdrawals ∧
      w.reclaim name serviceType subtypes = some tw.2 := by
  unfold reclaimDetachedGoodbyes at h
  split at h
  · exact .inl h
  · split at h
    · exact .inl h
    · rename_i route _
      obtain ⟨old, hold, hleft⟩ := List.mem_filterMap.mp h
      obtain ⟨item, hitem, heq⟩ := Option.map_eq_some_iff.mp hleft
      rw [← heq]
      exact .inr ⟨old.2, route.serviceType, route.subtypes, hold, hitem⟩

theorem mem_scanWithdrawals (retained : WithdrawalItem I → List IpAddr) (now : I)
    (scratch : Bytes) (ws : List (WithdrawalToken × WithdrawalItem I))
    (tw : WithdrawalToken × WithdrawalItem I)
    (h : tw ∈ (scanWithdrawals retained now scratch ws).1) :
    tw ∈ ws ∨ ∃ w isFinal, (tw.1, w) ∈ ws ∧ w.selected now = some isFinal ∧
      tw.2 = (w.round (retained w) now scratch isFinal).1 := by
  induction ws with
  | nil => exact .inl h
  | cons head rest ih =>
    obtain ⟨token, w⟩ := head
    have hlater : tw ∈ (scanWithdrawals retained now scratch rest).1 →
        tw ∈ (token, w) :: rest ∨ ∃ v isFinal, (tw.1, v) ∈ (token, w) :: rest ∧
          v.selected now = some isFinal ∧ tw.2 = (v.round (retained v) now scratch isFinal).1 := by
      intro hrest
      rcases ih hrest with hold | ⟨v, isFinal, hv, hsel, hround⟩
      · exact .inl (List.mem_cons_of_mem _ hold)
      · exact .inr ⟨v, isFinal, List.mem_cons_of_mem _ hv, hsel, hround⟩
    rw [scanWithdrawals] at h
    cases hsel : w.selected now with
    | none =>
      rw [hsel] at h
      rcases List.mem_cons.mp h with rfl | hrest
      · exact .inl List.mem_cons_self
      · exact hlater hrest
    | some isFinal =>
      rw [hsel] at h
      dsimp only at h
      cases hround : w.round (retained w) now scratch isFinal with
      | mk after message =>
        rw [hround] at h
        have hfirst : tw = (token, after) → tw ∈ (token, w) :: rest ∨
            ∃ v isFinal, (tw.1, v) ∈ (token, w) :: rest ∧ v.selected now = some isFinal ∧
              tw.2 = (v.round (retained v) now scratch isFinal).1 := by
          rintro rfl
          exact .inr ⟨w, isFinal, List.mem_cons_self, hsel, by rw [hround]⟩
        cases message with
        | none =>
          rcases List.mem_cons.mp h with hhead | hrest
          · exact hfirst hhead
          · exact hlater hrest
        | some msg =>
          rcases List.mem_cons.mp h with hhead | hrest
          · exact hfirst hhead
          · exact .inl (List.mem_cons_of_mem _ hrest)

theorem mem_updateFirst {α : Type} (p : α → Bool) (f : α → α) (l l' : List α)
    (h : updateFirst p f l = some l') (x : α) (hx : x ∈ l') :
    x ∈ l ∨ ∃ y ∈ l, p y = true ∧ x = f y := by
  induction l generalizing l' with
  | nil => cases h
  | cons y ys ih =>
    rw [updateFirst] at h
    split at h
    · rename_i hp
      cases h
      rcases List.mem_cons.mp hx with rfl | hx
      · exact .inr ⟨y, List.mem_cons_self, hp, rfl⟩
      · exact .inl (List.mem_cons_of_mem _ hx)
    · obtain ⟨rest, hrest, rfl⟩ := Option.map_eq_some_iff.mp h
      rcases List.mem_cons.mp hx with rfl | hx
      · exact .inl List.mem_cons_self
      · rcases ih rest hrest hx with hold | ⟨z, hz, hpz, heq⟩
        · exact .inl (List.mem_cons_of_mem _ hold)
        · exact .inr ⟨z, List.mem_cons_of_mem _ hz, hpz, heq⟩

theorem drainToken_items (now : I) (st : Endpoint I G R SR EV × List ServiceHandle)
    (token : WithdrawalToken) (tw : WithdrawalToken × WithdrawalItem I)
    (h : tw ∈ (drainToken now st token).1.withdrawals) : tw ∈ st.1.withdrawals := by
  rw [drainToken_withdrawals] at h
  exact List.mem_of_mem_eraseP h

theorem drain_fold_items (now : I) (tokens : List WithdrawalToken)
    (st : Endpoint I G R SR EV × List ServiceHandle) (tw : WithdrawalToken × WithdrawalItem I)
    (h : tw ∈ (tokens.foldl (drainToken now) st).1.withdrawals) : tw ∈ st.1.withdrawals := by
  induction tokens generalizing st with
  | nil => exact h
  | cons token rest ih =>
    rw [List.foldl_cons] at h
    exact drainToken_items now st token tw (ih _ h)

theorem retain_fold_withdrawals (now : I) (dropped : List (WithdrawalToken × WithdrawalItem I))
    (e : Endpoint I G R SR EV) :
    (dropped.foldl (fun e tw => e.retainRelinquished tw.2.records tw.2.multicast now)
      e).withdrawals = e.withdrawals := by
  induction dropped generalizing e with
  | nil => rfl
  | cons tw rest ih =>
    rw [List.foldl_cons, ih]
    rfl

theorem forceRemoveService_items (handle : ServiceHandle) (now : I)
    (tw : WithdrawalToken × WithdrawalItem I)
    (h : tw ∈ (e.forceRemoveService handle now).1.withdrawals) : tw ∈ e.withdrawals := by
  unfold forceRemoveService at h
  split at h
  · exact h
  · rename_i key _
    dsimp only at h
    rw [retain_fold_withdrawals] at h
    have hmem := List.mem_of_mem_filter h
    split at hmem <;> split at hmem <;> exact hmem

variable [LawfulPool SR]

theorem handedOff_new (c : HostCall I)
    (mid : Endpoint I G R SR EV) (key : Nat) (tw : WithdrawalToken × WithdrawalItem I)
    (hold : ∀ tw ∈ mid.withdrawals, tw ∈ e.withdrawals ∨
      ∃ w, (tw.1, w) ∈ e.withdrawals ∧ ItemMove e c tw.1 w tw.2)
    (hroute : ∀ r, mid.route key = some r →
      (∃ r', (e.next c).route key = some r' ∧ r'.name = r.name ∧ r'.handle = r.handle) ∧
        ∃ old, e.route key = some old ∧ HandsOver e c old.proto r.proto)
    (h : tw ∈ (mid.drainRenameGoodbye key c.now).withdrawals) :
    (∃ w, (tw.1, w) ∈ e.withdrawals ∧ ItemMove e c tw.1 w tw.2) ∨ ItemNew e c tw.2 := by
  rcases mid.drainRenameGoodbye_items key c.now tw h with hmid | ⟨r, handoff, hr, hoff, hitem⟩
  · rcases hold tw hmid with hkept | hmoved
    · exact .inl ⟨tw.2, hkept, .kept⟩
    · exact .inl hmoved
  · obtain ⟨⟨r', hr', hname, hhandle⟩, old, hbefore, hserved⟩ := hroute r hr
    rw [hitem, ← hname, ← hhandle]
    exact .inr (.handedOff key r' old hr' hbefore r.proto hserved handoff hoff)

theorem next_items (c : HostCall I)
    (tw : WithdrawalToken × WithdrawalItem I) (h : tw ∈ (e.next c).withdrawals) :
    (∃ w, (tw.1, w) ∈ e.withdrawals ∧ ItemMove e c tw.1 w tw.2) ∨ ItemNew e c tw.2 := by
  obtain ⟨now, call⟩ := c
  have hkept : tw ∈ e.withdrawals →
      (∃ w, (tw.1, w) ∈ e.withdrawals ∧ ItemMove e ⟨now, call⟩ tw.1 w tw.2) ∨
        ItemNew e ⟨now, call⟩ tw.2 := fun hmem => .inl ⟨tw.2, hmem, .kept⟩
  cases call with
  | register records =>
    refine hkept ?_
    change tw ∈ (e.tryRegisterService records now).1.withdrawals at h
    unfold tryRegisterService at h
    split at h
    · exact h
    · dsimp only at h
      split at h <;> exact h
  | event key event =>
    refine hkept ?_
    change tw ∈ (e.dispatch key event now).withdrawals at h
    unfold dispatch at h
    split at h <;> exact h
  | serviceTimeout handle =>
    have hafter : e.next ⟨now, .serviceTimeout handle⟩ =
        (e.handleServiceTimeout handle now).1 := rfl
    change tw ∈ (e.handleServiceTimeout handle now).1.withdrawals at h
    rcases e.handleServiceTimeout_cases handle now with heq |
      ⟨key, route, mid, -, hr, -, hm, heq⟩
    · rw [heq] at h
      exact hkept h
    · rw [heq] at hafter h
      refine handedOff_new e ⟨now, .serviceTimeout handle⟩ mid key tw ?_ ?_ h
      · intro old hold
        rw [hm] at hold
        exact .inl hold
      · intro r hmid
        have hproto : r.proto =
            (route.proto.handleTimeout now e.flood (e.renameScratch key route)).1 := by
          rw [hm, route_updateRoute, if_pos rfl, hr] at hmid
          cases hmid
          exact mirrorName_proto _
        refine ⟨⟨r.handedOver, ?_, rfl, rfl⟩, route, hr, ?_⟩
        · rw [hafter, drainRenameGoodbye_route, if_pos rfl, hmid]
          rfl
        · rw [hproto]
          exact .timeout _
  | serviceTransmit handle buf =>
    refine hkept ?_
    change tw ∈ (e.pollServiceTransmit handle now buf).1.withdrawals at h
    rcases e.pollServiceTransmit_cases handle now buf with heq | ⟨key, r, -, -, -, -, heq⟩
    · rw [heq] at h
      exact h
    · rw [heq] at h
      exact h
  | serviceOutcome handle v4 v6 =>
    have hafter : e.next ⟨now, .serviceOutcome handle v4 v6⟩ =
        (e.noteServiceTransmitOutcome handle now v4 v6).1 := rfl
    change tw ∈ (e.noteServiceTransmitOutcome handle now v4 v6).1.withdrawals at h
    rcases e.noteServiceTransmitOutcome_cases handle now v4 v6 with heq |
      ⟨key, route, mid, -, hr, -, hm, heq⟩
    · rw [heq] at h
      exact hkept h
    · rw [heq] at hafter h
      have hsame : mid.withdrawals = e.withdrawals := by
        rw [hm]
        rfl
      -- the goodbyes narrowed by a full announcement come before the one handed over
      have hreclaimed : ∀ old ∈ (mid.reclaimDetachedGoodbyes handle route.name).withdrawals,
          old ∈ e.withdrawals ∨ ∃ w, (old.1, w) ∈ e.withdrawals ∧
            ItemMove e ⟨now, .serviceOutcome handle v4 v6⟩ old.1 w old.2 := by
        intro old hold
        rcases mid.reclaimDetachedGoodbyes_items handle route.name old hold with hin |
          ⟨w, serviceType, subtypes, hw, hleft⟩
        · rw [hsame] at hin
          exact .inl hin
        · rw [hsame] at hw
          exact .inr ⟨w, hw, .reclaimed handle v4 v6 rfl _ _ _ _ hleft⟩
      refine handedOff_new e ⟨now, .serviceOutcome handle v4 v6⟩ _ key tw ?_ ?_ h
      · intro old hold
        split at hold
        · exact hreclaimed old hold
        · rw [hsame] at hold
          exact .inl hold
      · intro r hmid
        have hproto : r.proto = (route.proto.noteTransmitOutcome now v4 v6).1 := by
          have hsettled : mid.route key = some r := by
            split at hmid
            · exact (mid.reclaimDetachedGoodbyes_route handle route.name key).symm.trans hmid
            · exact hmid
          rw [hm, route_updateRoute, if_pos rfl, hr] at hsettled
          cases hsettled
          rfl
        refine ⟨⟨r.handedOver, ?_, rfl, rfl⟩, route, hr, ?_⟩
        · rw [hafter, drainRenameGoodbye_route, if_pos rfl, hmid]
          rfl
        · rw [hproto]
          exact .confirmed v4 v6
  | serviceUpdate handle =>
    refine hkept ?_
    change tw ∈ (e.pollService handle).1.withdrawals at h
    rcases e.pollService_cases handle with heq | ⟨key, r, -, -, heq⟩
    · rw [heq] at h
      exact h
    · rw [heq] at h
      exact h
  | unregister handle =>
    have hafter : e.next ⟨now, .unregister handle⟩ = e.unregisterService handle now := rfl
    change tw ∈ (e.unregisterService handle now).withdrawals at h
    unfold unregisterService at hafter h
    cases hkey : e.serviceKey handle with
    | none =>
      rw [hkey] at h
      exact hkept h
    | some key =>
      rw [hkey] at hafter h
      dsimp only at hafter h
      cases hr : (e.drainRenameGoodbye key now).route key with
      | none =>
        rw [hr] at hafter h
        refine handedOff_new e ⟨now, .unregister handle⟩ e key tw (fun _ h => .inl h) ?_ h
        intro r hbefore
        rw [drainRenameGoodbye_route, if_pos rfl, hbefore] at hr
        cases hr
      | some route =>
        rw [hr] at hafter h
        dsimp only at hafter h
        rcases (e.drainRenameGoodbye key now).beginWithdrawal_items handle _ now tw h with hmid |
          hdeparted
        · refine handedOff_new e ⟨now, .unregister handle⟩ e key tw (fun _ h => .inl h) ?_ hmid
          intro r hbefore
          refine ⟨?_, r, hbefore, .untouched⟩
          have hmoved : (e.drainRenameGoodbye key now).route key = some r.handedOver := by
            rw [drainRenameGoodbye_route, if_pos rfl, hbefore]
            rfl
          rcases (e.drainRenameGoodbye key now).beginWithdrawal_route handle
            route.proto.withdrawalSnapshot now key with hsame | ⟨r', hr', -, hgone⟩
          · exact ⟨r.handedOver, by rw [hafter, hsame, hmoved], rfl, rfl⟩
          · rw [hmoved] at hr'
            cases hr'
            exact ⟨r.handedOver.withdrawn, by rw [hafter, hgone], rfl, rfl⟩
        · obtain ⟨old, hbefore, -⟩ := e.serviceKey_some handle key hkey
          rw [drainRenameGoodbye_route, if_pos rfl, hbefore] at hr
          cases hr
          rw [hdeparted]
          exact .inr (.departed handle rfl key old hbefore _ rfl)
  | forceRemove handle => exact hkept (e.forceRemoveService_items handle now tw h)
  | withdrawalTransmit scratch =>
    change tw ∈ (e.pollWithdrawalTransmit now scratch).1.withdrawals at h
    rw [pollWithdrawalTransmit_eq] at h
    rcases mem_scanWithdrawals e.retainedFor now scratch e.withdrawals tw h with hold |
      ⟨w, isFinal, hw, hsel, hround⟩
    · exact hkept hold
    · refine .inl ⟨w, hw, ?_⟩
      rw [hround]
      exact .offered scratch rfl isFinal hsel
  | withdrawalResult token v4 v6 =>
    change tw ∈ (e.noteWithdrawalResult token now v4 v6).withdrawals at h
    unfold noteWithdrawalResult at h
    split at h
    · rename_i ws hws
      rcases mem_updateFirst _ _ _ ws hws tw h with hold | ⟨old, hmem, htoken, heq⟩
      · exact hkept hold
      · refine .inl ⟨old.2, ?_, ?_⟩
        · rw [heq]
          exact hmem
        · rw [heq]
          have hsame : old.1 = token := beq_iff_eq.mp htoken
          exact .noted v4 v6 (by rw [hsame])
    · exact hkept h
  | drain => exact hkept (drain_fold_items now _ (e, []) tw h)
  | timeout => exact hkept h

end Endpoint
end Hick
