import Mathlib
import Hick.Endpoint.Goodbye
import Hick.Service.Session

/-!
# An endpoint driven by its host

The host makes the calls in any order and at any instants. Of the datagrams it receives only
what they deliver is left here: an event for the service at a key, and routing gives none to a
service that is being withdrawn.
-/

namespace Hick
open Octets Wire Respond Runs

inductive EndpointCall (I : Type) where
  | register (records : ServiceRecords)
  | event (key : Nat) (event : ServiceEvent)
  | serviceTimeout (handle : ServiceHandle)
  | serviceTransmit (handle : ServiceHandle) (buf : Bytes)
  | serviceOutcome (handle : ServiceHandle) (v4 v6 : FamilyAttempt I)
  | serviceUpdate (handle : ServiceHandle)
  | unregister (handle : ServiceHandle)
  | forceRemove (handle : ServiceHandle)
  | withdrawalTransmit (scratch : Bytes)
  | withdrawalResult (token : WithdrawalToken) (v4 v6 : FamilyAttempt I)
  | drain
  | timeout

structure HostCall (I : Type) where
  now : I
  call : EndpointCall I

namespace Endpoint
variable {I G R : Type} {SR EV : Type → Type} [Instant I] [SeedSource G] [SeedableRng R]
  [Pool SR] [Pool EV]

def next (e : Endpoint I G R SR EV) (c : HostCall I) : Endpoint I G R SR EV :=
  match c.call with
  | .register records => (e.tryRegisterService records c.now).1
  | .event key event => e.dispatch key event c.now
  | .serviceTimeout handle => (e.handleServiceTimeout handle c.now).1
  | .serviceTransmit handle buf => (e.pollServiceTransmit handle c.now buf).1
  | .serviceOutcome handle v4 v6 => (e.noteServiceTransmitOutcome handle c.now v4 v6).1
  | .serviceUpdate handle => (e.pollService handle).1
  | .unregister handle => e.unregisterService handle c.now
  | .forceRemove handle => (e.forceRemoveService handle c.now).1
  | .withdrawalTransmit scratch => (e.pollWithdrawalTransmit c.now scratch).1
  | .withdrawalResult token v4 v6 => e.noteWithdrawalResult token c.now v4 v6
  | .drain => (e.drainCompletedWithdrawals c.now).1
  | .timeout => e.handleTimeout c.now

def Routable (e : Endpoint I G R SR EV) (c : HostCall I) : Prop :=
  match c.call with
  | .event key _ => ∀ route, e.route key = some route → route.withdrawing = false
  | _ => True

instance (e : Endpoint I G R SR EV) (c : HostCall I) : Decidable (e.Routable c) := by
  unfold Routable
  cases c.call with
  | event key _ =>
    exact decidable_of_iff (∀ route ∈ e.route key, route.withdrawing = false) Iff.rfl
  | _ => exact isTrue trivial

def Fresh (e : Endpoint I G R SR EV) : Prop :=
  ∃ (config : EndpointConfig) (rng : G), e = tryNew config rng

def machine : Machine (Endpoint I G R SR EV) (HostCall I) where
  start := Fresh
  admits := Routable
  next := next

instance (e : Endpoint I G R SR EV) (c : HostCall I) : Decidable (machine.admits e c) :=
  inferInstanceAs (Decidable (e.Routable c))

variable [LawfulPool SR]

variable (e : Endpoint I G R SR EV) (handle : ServiceHandle)

omit [Instant I] [SeedSource G] [SeedableRng R] [Pool EV] in
theorem mem_routes (key : Nat) (r : Route I R EV) :
    (key, r) ∈ e.routes ↔ e.route key = some r := LawfulPool.mem_iter e.services key r

omit [Instant I] [SeedableRng R] [Pool EV] in
theorem tryNew_route (config : EndpointConfig) (rng : G) (key : Nat) :
    (tryNew config rng : Endpoint I G R SR EV).route key = none := by
  rw [Option.eq_none_iff_forall_ne_some]
  intro r h
  have hmem := (mem_routes (tryNew config rng : Endpoint I G R SR EV) key r).mpr h
  rw [show (tryNew config rng : Endpoint I G R SR EV).routes = [] from LawfulPool.iter_new] at hmem
  cases hmem

omit [Instant I] [SeedSource G] [SeedableRng R] [Pool EV] in
theorem route_updateRoute (key j : Nat)
    (f : Route I R EV → Route I R EV) :
    (e.updateRoute key f).route j = if j = key then (e.route j).map f else e.route j :=
  LawfulPool.get_update e.services key j f

omit [Instant I] [SeedSource G] [SeedableRng R] [Pool EV] in
theorem serviceKey_some (key : Nat)
    (h : e.serviceKey handle = some key) : ∃ r, e.route key = some r ∧ r.handle = handle := by
  unfold serviceKey at h
  obtain ⟨⟨k, r⟩, hfind, rfl⟩ := Option.map_eq_some_iff.mp h
  have hmem := List.mem_of_find?_eq_some hfind
  have hp := List.find?_some hfind
  exact ⟨r, (e.mem_routes k r).mp hmem, beq_iff_eq.mp hp⟩

omit [Instant I] [SeedSource G] [SeedableRng R] [Pool EV] in
theorem serviceKey_none (h : e.serviceKey handle = none) (key : Nat) (r : Route I R EV)
    (hr : e.route key = some r) :
    r.handle ≠ handle := by
  unfold serviceKey at h
  rw [Option.map_eq_none_iff, List.find?_eq_none] at h
  have := h (key, r) ((e.mem_routes key r).mpr hr)
  simpa using this

omit [Instant I] [SeedSource G] [SeedableRng R] [Pool EV] in
theorem serviceKey_cases :
    e.serviceKey handle = none ∨
      ∃ key r, e.serviceKey handle = some key ∧ e.route key = some r ∧ r.handle = handle := by
  cases h : e.serviceKey handle with
  | none => exact .inl rfl
  | some key =>
    obtain ⟨r, hr, hh⟩ := e.serviceKey_some handle key h
    exact .inr ⟨key, r, rfl, hr, hh⟩

omit [SeedSource G] in
theorem handleServiceTimeout_cases (now : I) :
    (e.handleServiceTimeout handle now).1 = e ∨
      ∃ key r mid, e.serviceKey handle = some key ∧ e.route key = some r ∧
        r.withdrawing = false ∧
        mid = e.updateRoute key (fun route => Route.mirrorName { route with
          proto := (r.proto.handleTimeout now e.flood (e.renameScratch key r)).1 }) ∧
        (e.handleServiceTimeout handle now).1 = mid.drainRenameGoodbye key now := by
  unfold handleServiceTimeout
  rcases e.serviceKey_cases handle with hkey | ⟨key, r, hkey, hr, -⟩
  · rw [hkey]
    exact .inl rfl
  · simp only [hkey, hr]
    cases hw : r.withdrawing with
    | true => exact .inl rfl
    | false => exact .inr ⟨key, r, _, rfl, hr, hw, rfl, rfl⟩

omit [SeedSource G] [SeedableRng R] [Pool EV] in
theorem pollServiceTransmit_cases (now : I) (buf : Bytes) :
    e.pollServiceTransmit handle now buf = (e, .ok none) ∨
      ∃ key r, e.serviceKey handle = some key ∧ e.route key = some r ∧ r.handle = handle ∧
        r.withdrawing = false ∧
        e.pollServiceTransmit handle now buf =
          let polled := (r.proto.deferFirstProbeUnderFlood now e.flood).pollTransmit now buf
          (e.updateRoute key fun route => { route with proto := polled.1 }, polled.2) := by
  unfold pollServiceTransmit
  rcases e.serviceKey_cases handle with hkey | ⟨key, r, hkey, hr, hh⟩
  · rw [hkey]
    exact .inl rfl
  · simp only [hkey, hr]
    cases hw : r.withdrawing with
    | true => exact .inl rfl
    | false => exact .inr ⟨key, r, rfl, hr, hh, hw, rfl⟩

omit [Instant I] [SeedSource G] [SeedableRng R] in
theorem pollService_cases :
    (e.pollService handle).1 = e ∨
      ∃ key r, e.serviceKey handle = some key ∧ e.route key = some r ∧
        (e.pollService handle).1 =
          e.updateRoute key fun route => { route with proto := r.proto.poll.1 } := by
  unfold pollService
  rcases e.serviceKey_cases handle with hkey | ⟨key, r, hkey, hr, -⟩
  · rw [hkey]
    exact .inl rfl
  · simp only [hkey, hr]
    exact .inr ⟨key, r, rfl, hr, rfl⟩

omit [SeedSource G] in
theorem noteServiceTransmitOutcome_cases (now : I) (v4 v6 : FamilyAttempt I) :
    (e.noteServiceTransmitOutcome handle now v4 v6).1 = e ∨
      ∃ key r mid, e.serviceKey handle = some key ∧ e.route key = some r ∧ r.handle = handle ∧
        mid = e.updateRoute key (fun route => Route.mirrorAddrs { route with
          proto := (r.proto.noteTransmitOutcome now v4 v6).1 }) ∧
        (e.noteServiceTransmitOutcome handle now v4 v6).1 =
          (if (r.proto.noteTransmitOutcome now v4 v6).1.fullyAnnounced then
            mid.reclaimDetachedGoodbyes handle r.name
          else mid).drainRenameGoodbye key now := by
  unfold noteServiceTransmitOutcome
  rcases e.serviceKey_cases handle with hkey | ⟨key, r, hkey, hr, hh⟩
  · rw [hkey]
    exact .inl rfl
  · simp only [hkey, hr]
    exact .inr ⟨key, r, _, rfl, hr, hh, rfl, rfl⟩

omit [Instant I] [SeedSource G] [SeedableRng R] [Pool EV] in
theorem route_tryRemove (key j : Nat) (r : Route I R EV)
    (services : SR (Route I R EV)) (h : Pool.tryRemove e.services key = some (r, services)) :
    Pool.get services j = if j = key then none else e.route j :=
  LawfulPool.get_tryRemove e.services services r key h j

omit [Instant I] [SeedSource G] [SeedableRng R] [Pool EV] in
theorem freeRoute_route (j : Nat)
    (r : Route I R EV) (h : (e.freeRoute handle).route j = some r) : e.route j = some r := by
  unfold freeRoute at h
  split at h
  · exact h
  · rename_i key hkey
    split at h
    · rename_i removed services hrem
      have hget := e.route_tryRemove key j removed services hrem
      change Pool.get services j = some r at h
      rw [hget] at h
      split at h
      · cases h
      · exact h
    · exact h

end Endpoint
end Hick
