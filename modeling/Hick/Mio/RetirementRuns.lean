import Hick.Endpoint.SpentHandles
import Hick.Mio.Retirement

/-!
# Runs of the driver and its services (hick-mio/src/driver.rs:1019-1560,
hick-mio/src/driver/withdrawal.rs:135-271, hick-mio/src/endpoint.rs:600-705, 896-913)

The caller registers and unregisters services, ticks the driver and shuts it down, in any order.
-/

set_option linter.unusedSectionVars false

namespace Hick
open Octets Wire Respond Since Runs

namespace Mio
namespace Services
variable {I G R : Type} {SR EV : Type → Type} [Instant I] [SeedSource G] [SeedableRng R]
  [Pool SR] [Pool EV] {s : Services I G R SR EV}

theorem Kept.each {α : Type} (k : Kept s) (turn : Services I G R SR EV → α → Services I G R SR EV)
    (hturn : ∀ s a, Kept s → Kept (turn s a)) (l : List α) : Kept (l.foldl turn s) := by
  induction l generalizing s with
  | nil => exact k
  | cons a rest ih => exact ih (hturn s a k)

section
variable [LawfulPool SR]

theorem Kept.receive (k : Kept s) (datagram : I × List (Nat × ServiceEvent)) :
    Kept (s.receive datagram) := by
  obtain ⟨at_, deliveries⟩ := datagram
  unfold Services.receive
  dsimp only
  induction deliveries generalizing s with
  | nil => exact k
  | cons d rest ih => exact ih (k.idle ⟨at_, .event d.1 d.2⟩ trivial)

theorem Kept.fireTimeout (k : Kept s) (now : I) (handle : ServiceHandle) :
    Kept (Services.fireTimeout now s handle) := by
  unfold Services.fireTimeout
  cases hctx : s.context handle with
  | none => exact k
  | some ctx =>
    dsimp only
    split
    · exact k
    · rename_i hw
      have hlive := k.live handle ctx hctx (Bool.not_eq_true _ ▸ hw)
      exact (k.idle ⟨now, .serviceTimeout handle⟩ trivial).drive handle hlive _ .timed

theorem Kept.fireTimeouts (k : Kept s) (t : ServiceTick I) : Kept (s.fireTimeouts t) :=
  (k.idle ⟨t.now, .timeout⟩ trivial).each _ (fun _ h k => k.fireTimeout t.now h) _

theorem Live.touch {handle : ServiceHandle} (hlive : s.Live handle) (j : ServiceHandle)
    (f : ServiceCtx I → ServiceCtx I) (hf : ∀ ctx, (f ctx).flags = ctx.flags) :
    (s.updateCtx j f).Live handle := by
  unfold Live
  rw [s.flags_touch j f hf]
  exact hlive

theorem Kept.failed (k : Kept s) (handle : ServiceHandle) (hlive : s.Live handle) :
    Kept (s.failed handle).1 := by
  have hf : ∀ ctx : ServiceCtx I,
      ({ ctx with encodeFailures := ctx.encodeFailures + 1 } : ServiceCtx I).flags = ctx.flags :=
    fun _ => rfl
  have hcounted := k.touch handle _ hf
  unfold Services.failed
  dsimp only
  split
  · exact hcounted.retire handle (hlive.touch handle _ hf) .conflict rfl
  · exact hcounted

theorem Kept.offerDatagram (k : Kept s) (handle : ServiceHandle) (hlive : s.Live handle)
    (sent : Sent) (fates : PerFamily (SocketFate I)) (notedAt : I) :
    Kept (s.offerDatagram handle sent fates notedAt).1 ∧
      (s.offerDatagram handle sent fates notedAt).1.Live handle := by
  unfold Services.offerDatagram Services.sendDatagram
  dsimp only
  generalize ((s.context handle).map ServiceCtx.wireGate).getD FamilyWireGate.new = gate
  generalize gate.sendTo sent.transmit fates = report
  have hf : ∀ ctx : ServiceCtx I, ({ ctx with
      wireGate := gate.note report sent.transmit.minFamilyGap } : ServiceCtx I).flags = ctx.flags :=
    fun _ => rfl
  have hgated := k.touch handle _ hf
  have hopen := hlive.touch handle _ hf
  have hsent := hgated.drive handle hopen _ .transmitted
  exact ⟨hsent.idle ⟨notedAt, .serviceOutcome handle report.v4.attempt report.v6.attempt⟩ trivial,
    hopen⟩

theorem Kept.serviceTurn (t : ServiceTick I) (handle : ServiceHandle) (left spent : Nat)
    (k : Kept s) (hlive : s.Live handle) :
    Kept (Services.serviceTurn t handle left spent s).1 := by
  have hf : ∀ ctx : ServiceCtx I, ({ ctx with encodeFailures := 0 } : ServiceCtx I).flags =
      ctx.flags := fun _ => rfl
  induction left generalizing spent s with
  | zero => exact k
  | succ left ih =>
    have hpolled := (k.idle ⟨t.now, .serviceTransmit handle t.sendBuf⟩ trivial).drive handle hlive _
      .polled
    change Kept ((s.withEndpoint
      (s.hosted.endpoint.pollServiceTransmit handle t.now t.sendBuf).1).mark (.polled handle))
        at hpolled
    rw [Services.serviceTurn]
    cases hpoll : s.hosted.endpoint.pollServiceTransmit handle t.now t.sendBuf with
    | mk endpoint outcome =>
      rw [hpoll] at hpolled
      have hstays : ((s.withEndpoint endpoint).mark (.polled handle)).Live handle := hlive
      cases outcome with
      | error err => exact hpolled.failed handle hstays
      | ok sent =>
        cases sent with
        | none => exact hpolled.touch handle _ hf
        | some sent =>
          have hanswered := hpolled.touch handle _ hf
          obtain ⟨hoffered, hgoesOn⟩ := hanswered.offerDatagram handle (hstays.touch handle _ hf)
            sent (t.sockets handle spent) (t.notedAt handle spent)
          dsimp only
          split
          · exact hoffered.retire handle hgoesOn .conflict rfl
          · exact ih (spent + 1) hoffered hgoesOn

theorem Kept.drainVisit (k : Kept s) (t : ServiceTick I) (slot : TxSlot) (quantum : Nat)
    (nextSeq : UInt64) : Kept (Services.drainVisit t s slot quantum nextSeq).1 := by
  cases slot with
  | query handle => exact k
  | service handle =>
    dsimp only [Services.drainVisit]
    cases hctx : s.context handle with
    | none => exact k
    | some ctx =>
      have hf : ∀ ctx : ServiceCtx I, ({ ctx with txSeq := nextSeq } : ServiceCtx I).flags =
          ctx.flags := fun _ => rfl
      have hseated := k.touch handle _ hf
      dsimp only
      split
      · exact hseated
      · rename_i hw
        have hlive := k.live handle ctx hctx (Bool.not_eq_true _ ▸ hw)
        exact Kept.serviceTurn t handle quantum 0 hseated (hlive.touch handle _ hf)

theorem Kept.drainTransmits (k : Kept s) (t : ServiceTick I) : Kept (s.drainTransmits t) := by
  unfold Services.drainTransmits
  dsimp only
  split
  · exact k
  · have hserved := TxQueue.serveFrom_keeps Kept (Services.drainVisit t)
      (fun s slot quantum seq k => k.drainVisit t slot quantum seq)
      (TxQueue.sorted (txScratch t s))
      (TxSchedule.new (txScratch t s).length maxSendCreditsPerDrain) s.txQueue s k
    exact ⟨hserved.rostered, hserved.paired, hserved.lived, hserved.closing⟩

theorem Kept.updateFrom (now : I) (handle : ServiceHandle) (fuel : Nat) (k : Kept s)
    (hlive : s.Live handle) : Kept (Services.updateFrom handle fuel s) := by
  induction fuel generalizing s with
  | zero => exact k
  | succ fuel ih =>
    have hpolled := (k.idle ⟨now, .serviceUpdate handle⟩ trivial).drive handle hlive _ .polled
    change Kept ((s.withEndpoint (s.hosted.endpoint.pollService handle).1).mark (.polled handle))
      at hpolled
    rw [Services.updateFrom]
    cases hpoll : s.hosted.endpoint.pollService handle with
    | mk endpoint told =>
      rw [hpoll] at hpolled
      have hstays : ((s.withEndpoint endpoint).mark (.polled handle)).Live handle := hlive
      cases told with
      | none => exact hpolled
      | some update =>
        dsimp only
        cases hu : update.isTerminal with
        | true => exact hpolled.retire handle hstays update hu
        | false =>
          have hqueued := hpolled.drive handle hstays _ (.updated update hu)
          exact ih ⟨hqueued.rostered, hqueued.paired, hqueued.lived, hqueued.closing⟩ hstays

theorem Kept.updateService (now : I) (k : Kept s) (handle : ServiceHandle) :
    Kept (s.updateService handle) := by
  unfold Services.updateService
  cases hctx : s.context handle with
  | none => exact k
  | some ctx =>
    dsimp only
    split
    · exact k
    · rename_i hw
      exact Kept.updateFrom now handle _ k (k.live handle ctx hctx (Bool.not_eq_true _ ▸ hw))

theorem Kept.pushUpdates (k : Kept s) (t : ServiceTick I) : Kept (s.pushUpdates t) :=
  k.each _ (fun _ h k => k.updateService t.now h) _

end

/-- Where the goodbyes of the services with a context that meets `q` are begun, those that are left
do not meet it. -/
theorem Kept.beginWhere [LawfulPool SR] (k : Kept s) (order : ServiceOrder)
    (q : ServiceCtx I → Bool) (now : ServiceHandle → I) (s' : Services I G R SR EV)
    (hs' : ((order.handles s.handles).filter fun h => (s.context h).any q).foldl
      (fun s h => s.beginServiceWithdrawal h (now h)) s = s') :
    Kept s' ∧ ∀ h withdrawing, s'.flags h = some (withdrawing, false) →
      ∃ ctx, ctx.flags = (withdrawing, false) ∧ q ctx = false := by
  obtain ⟨hkept, hflags⟩ := k.beginEach
    ((order.handles s.handles).filter fun h => (s.context h).any q) now
  rw [hs'] at hkept hflags
  refine ⟨hkept, fun h withdrawing hh => ?_⟩
  rw [hflags] at hh
  split at hh
  · cases hf : s.flags h with
    | none =>
      rw [hf] at hh
      cases hh
    | some f =>
      obtain ⟨w, begun⟩ := f
      rw [hf] at hh
      cases begun with
      | true => cases hh
      | false => cases hh
  · rename_i hnot
    obtain ⟨ctx, hctx, hpair⟩ := Option.map_eq_some_iff.mp hh
    refine ⟨ctx, hpair, Bool.eq_false_iff.mpr fun hq => hnot ?_⟩
    have hkey : h ∈ s.handles := AList.mem_keys.mp ((Assoc.mem_iff h _).mpr ⟨ctx, hctx⟩)
    rw [List.mem_filter, hctx]
    exact ⟨(order.perm s.handles).mem_iff.mpr hkey, hq⟩

theorem Kept.drainWithdrawals [ReleasingPool SR] (k : Kept s) (t : ServiceTick I)
    (s' : Services I G R SR EV) (h : s.drainWithdrawals t = some s') : Kept s' ∧ s'.Settled := by
  unfold Services.drainWithdrawals at h
  obtain ⟨pumped, hpump, hs'⟩ := Option.map_eq_some_iff.mp h
  generalize hs1 : List.foldl _ s _ = s1 at hpump hs'
  obtain ⟨hbegun, hleft⟩ := k.beginWhere t.beginOrder _ t.begunAt s1 hs1
  have hsettled : s1.Settled := by
    intro j hj
    obtain ⟨ctx, hpair, hq⟩ := hleft j true hj
    obtain ⟨hw, hb⟩ := Prod.mk.inj hpair
    rw [hw, hb] at hq
    cases hq
  have hpumped := hbegun.withEndpoint pumped.endpoint
    (GoodbyeInput.pumpFrom_unmoved _ unlimited _ 0 () s1.hosted.endpoint hbegun.rostered.unique
      pumped hpump)
  obtain ⟨hkept, hnarrow⟩ := hpumped.drainCompleted t.withdrawnAt
  rw [← hs']
  refine ⟨hkept, fun j => ?_⟩
  rcases hnarrow j with hnone | hsame
  · rw [hnone]
    nofun
  · rw [hsame]
    exact hsettled j

theorem Kept.tick [ReleasingPool SR] (k : Kept s) (t : ServiceTick I) (s' : Services I G R SR EV)
    (h : s.tick t = some s') : Kept s' ∧ s'.Settled := by
  have hreceived := k.each Services.receive (fun _ d k => k.receive d) t.datagrams
  exact (((hreceived.fireTimeouts t).drainTransmits t).pushUpdates t).drainWithdrawals t s' h

section
variable [LawfulPool SR]

theorem begin_closing (s : Services I G R SR EV) (handles : List ServiceHandle)
    (now : ServiceHandle → I) :
    handles.foldl (fun s h => s.beginServiceWithdrawal h (now h)) { s with shuttingDown := true } =
      { handles.foldl (fun s h => s.beginServiceWithdrawal h (now h)) s with
        shuttingDown := true } := by
  induction handles generalizing s with
  | nil => rfl
  | cons handle rest ih =>
    have hone : ({ s with shuttingDown := true } : Services I G R SR EV).beginServiceWithdrawal
        handle (now handle) =
          { s.beginServiceWithdrawal handle (now handle) with shuttingDown := true } := by
      unfold Services.beginServiceWithdrawal Services.context
      cases s.hosted.services.lookup handle with
      | none => rfl
      | some ctx =>
        dsimp only
        split
        · rfl
        · rfl
    rw [List.foldl_cons, List.foldl_cons, hone]
    exact ih _

theorem Kept.shutdown (k : Kept s) (order : ServiceOrder) (now : ServiceHandle → I) :
    Kept (s.shutdown order now) ∧ (s.shutdown order now).Settled := by
  obtain ⟨hkept, hleft⟩ := k.beginWhere order (fun ctx => !ctx.goodbyeBegun) now _ rfl
  have hshut : s.shutdown order now = { ((order.handles s.handles).filter fun handle =>
      (s.context handle).any fun ctx => !ctx.goodbyeBegun).foldl
        (fun s h => s.beginServiceWithdrawal h (now h)) s with shuttingDown := true } :=
    s.begin_closing _ now
  rw [hshut]
  generalize List.foldl _ s _ = s1 at hkept hleft
  have hall : ∀ h withdrawing, s1.flags h ≠ some (withdrawing, false) := by
    intro h withdrawing hh
    obtain ⟨ctx, hpair, hq⟩ := hleft h withdrawing hh
    rw [(Prod.mk.inj hpair).2] at hq
    cases hq
  exact ⟨⟨hkept.rostered, hkept.paired, hkept.lived, fun _ => hall⟩, fun h => hall h true⟩

end

theorem Settled.registerService (hsettled : s.Settled) (records : ServiceRecords) (now : I) :
    (s.registerService records now).1.Settled := by
  unfold Services.registerService
  split
  · exact hsettled
  · unfold Hosted.registerService
    cases hreg : s.hosted.endpoint.tryRegisterService records now with
    | mk endpoint outcome =>
      cases outcome with
      | error err => exact hsettled
      | ok handle =>
        intro j hj
        change Option.map ServiceCtx.flags
          ((s.hosted.services.insert handle (ServiceCtx.fresh s.txQueue.join.1)).lookup j) = _ at hj
        rw [Assoc.lookup_insert] at hj
        split at hj
        · cases hj
        · exact hsettled j hj

theorem Settled.unregisterService [LawfulPool SR] (hsettled : s.Settled) (handle : ServiceHandle)
    (now : I) : (s.unregisterService handle now).Settled := by
  unfold Services.unregisterService
  split
  · intro j hj
    change (s.beginServiceWithdrawal handle now).flags j = _ at hj
    rw [flags_begin] at hj
    split at hj
    · obtain ⟨f, hf, hleft⟩ := Option.map_eq_some_iff.mp hj
      split at hleft
      · rw [hleft] at hf
        exact hsettled j hf
      · cases hleft
    · exact hsettled j hj
  · exact hsettled

inductive ServiceCall (I : Type) where
  | registerService (records : ServiceRecords) (now : I)
  | unregisterService (handle : ServiceHandle) (now : I)
  | shutdown (order : ServiceOrder) (now : ServiceHandle → I)
  | tick (t : ServiceTick I)
  | nextEvent
  /-- A query is started and takes its place in the transmit queue. -/
  | startQuery

def next (s : Services I G R SR EV) : ServiceCall I → Services I G R SR EV
  | .registerService records now => (s.registerService records now).1
  | .unregisterService handle now => s.unregisterService handle now
  | .shutdown order now => s.shutdown order now
  | .tick t => (s.tick t).getD s
  | .nextEvent => s.nextEvent.2
  | .startQuery => { s with txQueue := s.txQueue.join.2 }

def Admits (s : Services I G R SR EV) : ServiceCall I → Prop
  | .tick t => (s.tick t).isSome = true
  | _ => True

def machine : Machine (Services I G R SR EV) (ServiceCall I) where
  start s := ∃ (config : EndpointConfig) (rng : G), s = new config rng
  admits := Admits
  next := next

def Mints (t : Transition (Services I G R SR EV) (ServiceCall I)) : Prop :=
  match t.call with
  | .registerService _ _ => t.pre.hosted.endpoint.Mintable
  | _ => True

theorem new_kept [LawfulPool SR] (config : EndpointConfig) (rng : G) :
    Kept (new config rng : Services I G R SR EV) ∧
      (new config rng : Services I G R SR EV).Settled := by
  have hnone : ∀ h, (new config rng : Services I G R SR EV).flags h = none := fun _ => rfl
  refine ⟨⟨Endpoint.tryNew_rostered config rng, fun h => ?_, fun h => ?_, nofun⟩, fun h => ?_⟩
  · exact Kept.of_mirrors (Hosted.new_mirrors ServiceCtx.retiring config rng) h
  · exact ⟨.unborn, .nothing, nofun, hnone h⟩
  · rw [hnone]
    nofun

theorem runs_kept [ReleasingPool SR] (ts : List (Transition (Services I G R SR EV) (ServiceCall I)))
    (s : Services I G R SR EV) (run : Run machine ts s) (hmints : ∀ t ∈ ts, Mints t) :
    Kept s ∧ s.Settled := by
  apply run.invariant machine (fun (g : Unit) _ => g) () (fun _ s => Kept s ∧ s.Settled) Mints _ _
    ts s hmints
  · intro s hstart
    obtain ⟨config, rng, rfl⟩ := hstart
    exact new_kept config rng
  · intro _ s c h hadmits hmint
    obtain ⟨k, hsettled⟩ := h
    cases c with
    | registerService records now =>
      exact ⟨k.registerService hmint records now, hsettled.registerService records now⟩
    | unregisterService handle now =>
      exact ⟨k.unregisterService handle now, hsettled.unregisterService handle now⟩
    | shutdown order now => exact k.shutdown order now
    | tick t =>
      obtain ⟨s', htick⟩ := Option.isSome_iff_exists.mp hadmits
      change Kept ((s.tick t).getD s) ∧ ((s.tick t).getD s).Settled
      rw [htick]
      exact k.tick t s' htick
    | nextEvent => exact ⟨⟨k.rostered, k.paired, k.lived, k.closing⟩, hsettled⟩
    | startQuery => exact ⟨⟨k.rostered, k.paired, k.lived, k.closing⟩, hsettled⟩

theorem Kept.between (k : Kept s) (hsettled : s.Settled) (h : ServiceHandle) :
    ∃ p, Lived h s.marks p ∧ s.flags h = p.flags ∧
      (p = .unborn ∨ p = .live ∨ (∃ own, p = .leaving own) ∨ ∃ own, p = .gone own) := by
  obtain ⟨p, hlived, hnot, hflags⟩ := k.lived h
  refine ⟨p, hlived, hflags, ?_⟩
  cases p with
  | unborn => exact .inl rfl
  | live => exact .inr (.inl rfl)
  | told => exact absurd rfl hnot
  | retired => exact absurd hflags (hsettled h)
  | leaving own => exact .inr (.inr (.inl ⟨own, rfl⟩))
  | gone own => exact .inr (.inr (.inr ⟨own, rfl⟩))

/-- In every run in which no registration is given a handle that a service still has: a service that
is given up, or whose goodbye is begun, is not driven again; a goodbye is begun once, by the end of
the call that gave the service up, and before the context is dropped; contexts and routes go
together; the caller is told of the end of a service exactly once when the driver gives it up by
itself, and never after it unregistered it; and a driver that is shutting down and idle has neither
services nor goodbyes. -/
theorem retirement_is_complete {I G R : Type} [Instant I] [SeedSource G] [SeedableRng R]
    (ts : List (Transition (Services I G R Slab Slab) (ServiceCall I)))
    (s : Services I G R Slab Slab) (run : Run machine ts s) (hmints : ∀ t ∈ ts, Mints t) :
    (∀ h, Between (ServiceMark.Ends h) (· = .registered h) (ServiceMark.Drives h) s.marks) ∧
      (∀ h, Between (· = .begun h) (· = .registered h) (· = .begun h) s.marks ∧
        Between (· = .registered h) (· = .begun h) (· = .dropped h) s.marks ∧
        (Open (ServiceMark.Ends h) (· = .registered h) s.marks →
          Open (· = .begun h) (· = .registered h) s.marks)) ∧
      (∀ h ctx, s.hosted.services.lookup h = some ctx →
        (ctx.withdrawing = true ↔ Open (ServiceMark.Ends h) (· = .registered h) s.marks) ∧
        ctx.goodbyeBegun = ctx.withdrawing ∧
        (s.hosted.endpoint.withdrawals.map fun tw => tw.2.route).count (some h) =
          if ctx.withdrawing then 1 else 0) ∧
      (∀ h, (∃ ctx, s.hosted.services.lookup h = some ctx) ↔
        ∃ key route, s.hosted.endpoint.route key = some route ∧ route.handle = h) ∧
      (∀ i j r r', s.hosted.endpoint.route i = some r → s.hosted.endpoint.route j = some r' →
        r.handle = r'.handle → i = j) ∧
      (∀ h, (Open (ServiceMark.Terminal h) (· = .registered h) s.marks ↔
          Open (· = .retired h) (· = .registered h) s.marks) ∧
        Between (ServiceMark.Terminal h) (· = .registered h) (ServiceMark.Terminal h) s.marks) ∧
      (s.shuttingDown = true → s.isIdle = true →
        s.hosted.services = ∅ ∧ s.hosted.endpoint.withdrawals = []) := by
  obtain ⟨k, hsettled⟩ := runs_kept ts s run hmints
  have htells : ∀ h, ∃ p, Tells h s.marks p := fun h =>
    (k.lived h).imp fun p hp => hp.1.tells
  have hroute : ∀ h, s.flags h ≠ none ↔ s.hosted.endpoint.Has h := by
    intro h
    have hnone := s.hosted.endpoint.standing_none_iff h
    rw [← k.paired h, Option.map_eq_none_iff] at hnone
    rw [Ne, hnone, not_not]
  refine ⟨fun h => ?_, fun h => ⟨?_, ?_, ?_⟩, fun h ctx hctx => ?_, fun h => ?_, ?_,
    fun h => ⟨?_, ?_⟩, fun hshut hidle => ?_⟩
  · obtain ⟨p, t⟩ := htells h
    exact t.silent
  · obtain ⟨p, t⟩ := htells h
    exact t.once
  · obtain ⟨p, t⟩ := htells h
    exact t.dropped
  · obtain ⟨p, hlived, -, hphase⟩ := k.between hsettled h
    rw [hlived.tells.ended, hlived.tells.begun]
    rcases hphase with rfl | rfl | ⟨own, rfl⟩ | ⟨own, rfl⟩
    · nofun
    · nofun
    · exact fun _ => rfl
    · exact fun _ => rfl
  · obtain ⟨p, hlived, hflags, hphase⟩ := k.between hsettled h
    have hfarewells := k.rostered.farewells h
    rw [← k.paired h, hflags] at hfarewells
    have hsome : some (ctx.withdrawing, ctx.goodbyeBegun) = p.flags := by
      rw [← hflags, flags, show s.context h = some ctx from hctx]
      rfl
    rw [hlived.tells.ended]
    rcases hphase with rfl | rfl | ⟨own, rfl⟩ | ⟨own, rfl⟩
    · cases hsome
    · obtain ⟨hw, hb⟩ := Prod.mk.inj (Option.some.inj hsome)
      rw [hw, hb]
      exact ⟨Iff.rfl, rfl, hfarewells⟩
    · obtain ⟨hw, hb⟩ := Prod.mk.inj (Option.some.inj hsome)
      rw [hw, hb]
      exact ⟨Iff.rfl, rfl, hfarewells⟩
    · cases hsome
  · rw [← Option.isSome_iff_exists, ← Option.ne_none_iff_isSome]
    have hctx : s.hosted.services.lookup h ≠ none ↔ s.flags h ≠ none := by
      unfold flags Services.context
      rw [Ne, Ne, Option.map_eq_none_iff]
    rw [hctx, hroute]
    simp only [Endpoint.Has, Endpoint.handleAt, Option.map_eq_some_iff]
  · intro i j r r' hi hj hsame
    apply k.rostered.unique i j r.handle
    · rw [Endpoint.handleAt, hi, Option.map_some]
    · rw [Endpoint.handleAt, hj, Option.map_some, hsame]
  · obtain ⟨p, hlived, -, hphase⟩ := k.between hsettled h
    rw [hlived.tells.heard, hlived.tells.own]
    rcases hphase with rfl | rfl | ⟨own, rfl⟩ | ⟨own, rfl⟩
    · exact Iff.rfl
    · exact Iff.rfl
    · exact Iff.rfl
    · exact Iff.rfl
  · obtain ⟨p, t⟩ := htells h
    exact t.toldOnce
  · have hempty : s.hosted.endpoint.withdrawals = [] := List.isEmpty_iff.mp hidle
    refine ⟨?_, hempty⟩
    apply AList.ext
    apply List.eq_nil_iff_forall_not_mem.mpr
    intro entry hentry
    have hkey : entry.1 ∈ s.handles := List.mem_map.mpr ⟨entry, hentry, rfl⟩
    obtain ⟨ctx, hctx⟩ := (Assoc.mem_iff entry.1 _).mp (AList.mem_keys.mpr hkey)
    have hflags : s.flags entry.1 = some ctx.flags := by
      unfold flags Services.context
      rw [hctx, Option.map_some]
    have hstands := k.paired entry.1
    have hfarewells := k.rostered.farewells entry.1
    rw [Endpoint.farewells, Endpoint.leavers, hempty, ← hstands, hflags] at hfarewells
    cases hb : ctx.goodbyeBegun with
    | false =>
      rw [ServiceCtx.flags, hb] at hflags
      exact k.closing hshut entry.1 _ hflags
    | true =>
      rw [ServiceCtx.flags, hb] at hfarewells
      cases hfarewells

abbrev Small := Services Uptime ZeroRng ZeroRng Slab Slab

def emptyDriver : Small := new ⟨true, true, 0⟩ ⟨⟩

theorem printer_retirement_is_complete :
    ∃ key route, (emptyDriver.next (.registerService .printer 0)).hosted.endpoint.route key =
      some route ∧ route.handle = ⟨0⟩ := by
  have run : Run machine [machine.transition emptyDriver (.registerService .printer 0)]
      (emptyDriver.next (.registerService .printer 0)) :=
    .step [] emptyDriver (ServiceCall.registerService .printer 0)
      (.start _ ⟨⟨true, true, 0⟩, ⟨⟩, rfl⟩) trivial
  have hmints : ∀ t ∈ [machine.transition emptyDriver (.registerService .printer 0)], Mints t := by
    intro t ht
    rw [List.mem_singleton.mp ht]
    intro hlast
    cases hlast
  exact ((retirement_is_complete _ _ run hmints).2.2.2.1 ⟨0⟩).mp ⟨.fresh 0, rfl⟩

def listed : ServiceOrder := ⟨id, List.Perm.refl⟩

def emptyTick : ServiceTick Uptime where
  datagrams := []
  now := 0
  sendBuf := []
  queries := []
  queryTurn _ _ := (0, false)
  sockets _ _ := .both .unbound
  notedAt _ _ := 0
  begunAt _ := 0
  withdrawnAt := 0
  goodbyes := ⟨fun _ => 0, fun _ => 0, [], fun _ => .noSocket, fun _ => .noSocket, fun _ => 0, 1⟩
  timerOrder := listed
  txOrder := listed
  updateOrder := listed
  beginOrder := listed

def driverOver (endpoint : Endpoint Uptime ZeroRng ZeroRng Slab Slab)
    (services : Assoc ServiceHandle (ServiceCtx Uptime)) (txQueue : TxQueue)
    (marks : List ServiceMark) : Small := ⟨⟨endpoint, services⟩, .new, txQueue, false, marks⟩

def leavingCtx (txSeq : UInt64) : ServiceCtx Uptime := ⟨0, true, true, txSeq, .new⟩

theorem register_step (slots) (hslots : slots = [] ∨ slots = [none]) (n : UInt32) (token : UInt64)
    (q : TxQueue) (marks : List ServiceMark) :
    (driverOver (bareEndpoint slots [] n token) ∅ q marks).next (.registerService .printer 0) =
      driverOver (bareEndpoint [some (printerRoute ⟨n⟩)] [] (saturatingSucc32 n) token)
        (AList.singleton ⟨n⟩ (.fresh q.join.1)) q.join.2 (marks ++ [.registered ⟨n⟩]) := by
  change (registerService (driverOver (bareEndpoint slots [] n token) ∅ q marks) .printer 0).1 = _
  unfold registerService Hosted.registerService
  rw [show (driverOver (bareEndpoint slots [] n token) ∅ q marks).hosted.endpoint =
    bareEndpoint slots [] n token from rfl, bareEndpoint_register slots hslots n token]
  rfl

theorem unregister_step (rest) (n : UInt32) (token : UInt64) (h : ServiceHandle) (seq : UInt64)
    (q : TxQueue) (marks : List ServiceMark) :
    ∃ token', (driverOver (bareEndpoint (some (printerRoute h) :: rest) [] n token)
      (AList.singleton h (.fresh seq)) q marks).next (.unregisterService h 0) =
        driverOver (bareEndpoint (some (leavingRoute h) :: rest) [(⟨token⟩, printerGoodbye h)] n
          token') (AList.singleton h (leavingCtx seq)) q
            (marks ++ [.begun h] ++ [.unregistered h]) := by
  obtain ⟨token', hun⟩ := bareEndpoint_unregister rest n token h
  refine ⟨token', ?_⟩
  generalize hep : bareEndpoint (some (printerRoute h) :: rest) [] n token = ep at hun ⊢
  have hctx : (driverOver ep (AList.singleton h (.fresh seq)) q marks).context h =
      some (.fresh seq) := lookup_single h _
  change unregisterService (driverOver ep (AList.singleton h (.fresh seq)) q marks) h 0 = _
  unfold unregisterService beginServiceWithdrawal
  rw [hctx]
  have hhost : (driverOver ep (AList.singleton h (.fresh seq)) q
      marks).hosted.beginServiceWithdrawal ServiceCtx.retiring h 0 =
        ⟨ep.unregisterService h 0, AList.singleton h (leavingCtx seq)⟩ := by
    unfold Hosted.beginServiceWithdrawal
    rw [show (driverOver ep (AList.singleton h (.fresh seq)) q marks).hosted.services.lookup h =
      some (.fresh seq) from lookup_single h _]
    dsimp only
    rw [show (driverOver ep (AList.singleton h (.fresh seq)) q marks).hosted.services =
      AList.singleton h (.fresh seq) from rfl, single_modify]
    rfl
  dsimp only
  rw [hhost, hun]
  rfl

theorem bareEndpoint_tick (rest) (n : UInt32) (token token' : UInt64) (h : ServiceHandle)
    (seq : UInt64) (q : TxQueue) (marks : List ServiceMark) :
    (driverOver (bareEndpoint (some (leavingRoute h) :: rest) [(⟨token⟩, printerGoodbye h)] n
      token') (AList.singleton h (leavingCtx seq)) q marks).tick emptyTick =
      some (driverOver (bareEndpoint (none :: rest) [] n token') ∅ q.join.2
        (marks ++ [.dropped h])) := by
  generalize hep : bareEndpoint (some (leavingRoute h) :: rest) [(⟨token⟩, printerGoodbye h)] n
    token' = ep
  have hctx : ∀ (seq : UInt64) (q : TxQueue), (driverOver ep (AList.singleton h (leavingCtx seq)) q
      marks).context h = some (leavingCtx seq) := fun seq q => lookup_single h _
  have hfire : (driverOver ep (AList.singleton h (leavingCtx seq)) q marks).fireTimeouts emptyTick =
      driverOver ep (AList.singleton h (leavingCtx seq)) q marks := by
    have hep' : ep.handleTimeout 0 = ep := by
      rw [← hep]
      rfl
    change fireTimeout 0 (driverOver (ep.handleTimeout 0) (AList.singleton h (leavingCtx seq)) q
      marks) h = _
    rw [hep']
    unfold fireTimeout
    rw [hctx]
    rfl
  have htx : (driverOver ep (AList.singleton h (leavingCtx seq)) q marks).drainTransmits emptyTick =
      driverOver ep (AList.singleton h (leavingCtx q.join.1)) q.join.2 marks := by
    have hscratch : txScratch emptyTick (driverOver ep (AList.singleton h (leavingCtx seq)) q
        marks) = [(seq, .service h)] := by
      change [(((Services.context _ h).map ServiceCtx.txSeq).getD 0, TxSlot.service h)] ++ [] = _
      rw [hctx]
      rfl
    have hvisit : drainVisit emptyTick (driverOver ep (AList.singleton h (leavingCtx seq)) q marks)
        (.service h) 64 q.join.1 =
          (driverOver ep (AList.singleton h (leavingCtx q.join.1)) q marks, 0, false) := by
      dsimp only [drainVisit]
      rw [hctx]
      unfold updateCtx
      rw [show (driverOver ep (AList.singleton h (leavingCtx seq)) q marks).hosted.services =
        AList.singleton h (leavingCtx seq) from rfl, single_modify]
      rfl
    have hserve : TxQueue.serveFrom (drainVisit emptyTick) [(seq, .service h)]
        (TxSchedule.new 1 maxSendCreditsPerDrain) q
          (driverOver ep (AList.singleton h (leavingCtx seq)) q marks) =
        (driverOver ep (AList.singleton h (leavingCtx q.join.1)) q marks, q.join.2,
          (TxSchedule.new 1 maxSendCreditsPerDrain).charge 0 false) := by
      rw [TxQueue.serveFrom, show (TxSchedule.new 1 maxSendCreditsPerDrain).nextSlot = some (0, 64)
        from rfl]
      dsimp only
      rw [hvisit]
      rfl
    unfold drainTransmits TxQueue.serve TxQueue.sorted
    rw [hscratch]
    simp only [List.isEmpty_cons, Bool.false_eq_true, if_false, List.mergeSort_singleton]
    rw [show (driverOver ep (AList.singleton h (leavingCtx seq)) q marks).txQueue = q from rfl,
      List.length_singleton, hserve]
    rfl
  have hupdates : (driverOver ep (AList.singleton h (leavingCtx q.join.1)) q.join.2
      marks).pushUpdates emptyTick =
        driverOver ep (AList.singleton h (leavingCtx q.join.1)) q.join.2 marks := by
    change updateService (driverOver ep (AList.singleton h (leavingCtx q.join.1)) q.join.2
      marks) h = _
    unfold updateService
    rw [hctx]
    rfl
  have hend : (driverOver ep (AList.singleton h (leavingCtx q.join.1)) q.join.2
      marks).drainWithdrawals emptyTick =
        some (driverOver (bareEndpoint (none :: rest) [] n token') ∅ q.join.2
          (marks ++ [.dropped h])) := by
    have hpump : GoodbyeInput.pump { emptyTick.goodbyes with now := fun _ => emptyTick.withdrawnAt }
        unlimited () ep = some ⟨ep, (), [], false⟩ := by
      rw [← hep]
      rfl
    have hdrained : (driverOver ep (AList.singleton h (leavingCtx q.join.1)) q.join.2
        marks).drainCompleted 0 =
          driverOver (bareEndpoint (none :: rest) [] n token') ∅ q.join.2
            (marks ++ [.dropped h]) := by
      unfold drainCompleted
      rw [show (driverOver ep (AList.singleton h (leavingCtx q.join.1)) q.join.2
        marks).hosted.endpoint = ep from rfl, ← hep, bareEndpoint_drain]
      change dropContext (driverOver (bareEndpoint (none :: rest) [] n token')
        (AList.singleton h (leavingCtx q.join.1)) q.join.2 marks) h = _
      unfold dropContext
      rw [show (driverOver (bareEndpoint (none :: rest) [] n token')
        (AList.singleton h (leavingCtx q.join.1)) q.join.2 marks).context h =
          some (leavingCtx q.join.1) from lookup_single h _]
      change driverOver _ ((AList.singleton h (leavingCtx q.join.1) : Assoc _ _).erase h) _ _ = _
      rw [single_erase]
      rfl
    have hnone : ((emptyTick.beginOrder.handles (driverOver ep
        (AList.singleton h (leavingCtx q.join.1)) q.join.2 marks).handles).filter fun handle =>
          ((driverOver ep (AList.singleton h (leavingCtx q.join.1)) q.join.2 marks).context
            handle).any fun ctx => ctx.withdrawing && !ctx.goodbyeBegun) = [] := by
      change List.filter _ [h] = []
      rw [List.filter_cons_of_neg, List.filter_nil]
      rw [hctx]
      exact Bool.false_ne_true
    unfold drainWithdrawals
    dsimp only
    rw [hnone, List.foldl_nil]
    change (GoodbyeInput.pump { emptyTick.goodbyes with now := fun _ => emptyTick.withdrawnAt }
      unlimited () ep).map _ = _
    rw [hpump, Option.map_some]
    exact congrArg some hdrained
  unfold tick
  simp only [show emptyTick.datagrams = [] from rfl, List.foldl_nil, hfire, htx, hupdates, hend]

theorem Reached.goes {s s' : Small} (h : Reachable machine s) (c : ServiceCall Uptime)
    (hc : Admits s c) (hnext : next s c = s') : Reachable machine s' := by
  obtain ⟨ts, run⟩ := h
  rw [← hnext]
  exact ⟨_, run.step ts s c hc⟩

theorem Reached.ticks {s s' : Small} (h : Reachable machine s) (t : ServiceTick Uptime)
    (ht : s.tick t = some s') : Reachable machine s' := by
  apply Reached.goes h (.tick t)
  · show (s.tick t).isSome = true
    rw [ht]
    rfl
  · show (s.tick t).getD s = s'
    rw [ht]
    rfl

theorem come_and_go (slots) (hslots : slots = [] ∨ slots = [none]) (n : UInt32) (token : UInt64)
    (q : TxQueue) (marks : List ServiceMark)
    (h : Reachable machine (driverOver (bareEndpoint slots [] n token) ∅ q marks)) :
    ∃ token' q' marks', Reachable machine
      (driverOver (bareEndpoint [none] [] (saturatingSucc32 n) token') ∅ q' marks') := by
  obtain ⟨token', hleave⟩ := unregister_step [] (saturatingSucc32 n) token ⟨n⟩ q.join.1 q.join.2
    (marks ++ [.registered ⟨n⟩])
  have htick := bareEndpoint_tick [] (saturatingSucc32 n) token token' ⟨n⟩ q.join.1 q.join.2
    (marks ++ [.registered ⟨n⟩] ++ [.begun ⟨n⟩] ++ [.unregistered ⟨n⟩])
  have hfirst := Reached.goes h (.registerService .printer 0) trivial
    (register_step slots hslots n token q marks)
  have hsecond := Reached.goes hfirst (.unregisterService ⟨n⟩ 0) trivial hleave
  exact ⟨token', _, _, Reached.ticks hsecond emptyTick htick⟩

theorem last_handle_reached : ∃ slots token q marks, (slots = [] ∨ slots = [none]) ∧
    Reachable (machine : Machine Small (ServiceCall Uptime))
      (driverOver (bareEndpoint slots [] lastServiceHandle.raw token) ∅ q marks) := by
  obtain ⟨slots, token, hslots, q, marks, hreach⟩ := counter_reaches
    (fun slots n token => ∃ q marks, Reachable (machine : Machine Small (ServiceCall Uptime))
      (driverOver (bareEndpoint slots [] n token) ∅ q marks))
    ⟨.new, [], [], .start _ ⟨⟨true, true, 0⟩, ⟨⟩, rfl⟩⟩
    (fun slots n token hslots ⟨q, marks, h⟩ => come_and_go slots hslots n token q marks h)
    4294967295 (le_refl _)
  exact ⟨slots, token, q, marks, hslots, hreach⟩

theorem register_other_step (token : UInt64) (seq : UInt64) (q : TxQueue)
    (marks : List ServiceMark) :
    (driverOver (bareEndpoint [some (printerRoute lastServiceHandle)] [] lastServiceHandle.raw
      token) (AList.singleton lastServiceHandle (.fresh seq)) q marks).next
        (.registerService otherPrinter 0) =
      driverOver (bareEndpoint [some (printerRoute lastServiceHandle),
        some (otherRoute lastServiceHandle)] [] lastServiceHandle.raw token)
          (AList.singleton lastServiceHandle (.fresh q.join.1)) q.join.2
            (marks ++ [.registered lastServiceHandle]) := by
  change (registerService (driverOver _ _ q marks) otherPrinter 0).1 = _
  unfold registerService Hosted.registerService
  rw [show (driverOver (bareEndpoint [some (printerRoute lastServiceHandle)] []
    lastServiceHandle.raw token) (AList.singleton lastServiceHandle (.fresh seq)) q
      marks).hosted.endpoint = bareEndpoint [some (printerRoute lastServiceHandle)] []
        lastServiceHandle.raw token from rfl, bareEndpoint_register_other token]
  change driverOver _ (AList.insert lastServiceHandle _ (AList.singleton _ _)) _ _ = _
  rw [AList.insert_singleton_eq]
  rfl

/-- A handle that is given twice leaves a route without a context. -/
theorem second_printer_has_no_context : ∃ ts s,
    Run (machine : Machine Small (ServiceCall Uptime)) ts s ∧
      ¬ ∀ h, (∃ ctx, s.hosted.services.lookup h = some ctx) ↔
        ∃ key route, s.hosted.endpoint.route key = some route ∧ route.handle = h := by
  obtain ⟨slots, token, q, marks, hslots, hreach⟩ := last_handle_reached
  have hfirst := Reached.goes hreach (.registerService .printer 0) trivial
    (register_step slots hslots lastServiceHandle.raw token q marks)
  have hsecond := Reached.goes hfirst (.registerService otherPrinter 0) trivial
    (register_other_step token q.join.1 q.join.2 _)
  obtain ⟨token', hleave⟩ := unregister_step [some (otherRoute lastServiceHandle)]
    lastServiceHandle.raw token lastServiceHandle q.join.2.join.1 q.join.2.join.2
      (marks ++ [.registered lastServiceHandle] ++ [.registered lastServiceHandle])
  have hthird := Reached.goes hsecond (.unregisterService lastServiceHandle 0) trivial hleave
  obtain ⟨ts, run⟩ := Reached.ticks hthird emptyTick
    (bareEndpoint_tick [some (otherRoute lastServiceHandle)] lastServiceHandle.raw token token'
      lastServiceHandle q.join.2.join.1 q.join.2.join.2 _)
  refine ⟨ts, _, run, fun hall => ?_⟩
  obtain ⟨ctx, hctx⟩ := (hall lastServiceHandle).mpr ⟨1, otherRoute lastServiceHandle, rfl, rfl⟩
  cases hctx

end Services
end Mio
end Hick
