import Hick.Endpoint.SpentHandles
import Hick.Engine.Lockstep

/-!
# Runs of the embedded engine (hick-smoltcp/src/engine/mod.rs:1486-1555, 1640-2452)

The host registers and leaves services, pumps the engine and reads what is queued, in any order.
-/

namespace Hick
open Octets Wire Respond Since Runs

namespace Engine
variable {I G R : Type} {SR EV : Type → Type} [Instant I] [SeedSource G] [SeedableRng R]
  [Pool SR] [Pool EV]

inductive EngineCall (I : Type) where
  | registerService (records : ServiceRecords) (now : I)
  | unregisterService (handle : ServiceHandle) (now : I)
  | pump (p : PumpCall I)
  | pollServiceUpdate (handle : ServiceHandle)

def next (e : Engine I G R SR EV) (c : EngineCall I) : Engine I G R SR EV :=
  match c with
  | .registerService records now => (e.registerService records now).1
  | .unregisterService handle now => e.unregisterService handle now
  | .pump p => (e.pump p).getD e
  | .pollServiceUpdate handle => (e.pollServiceUpdate handle).1

def Admits (e : Engine I G R SR EV) (c : EngineCall I) : Prop :=
  match c with
  | .pump p => (e.pump p).isSome = true
  | _ => True

def machine : Machine (Engine I G R SR EV) (EngineCall I) where
  start e := ∃ (config : EndpointConfig) (rng : G), e = new config rng
  admits := Admits
  next := next

def Mints (t : Transition (Engine I G R SR EV) (EngineCall I)) : Prop :=
  match t.call with
  | .registerService _ _ => t.pre.Mintable
  | _ => True

omit [Instant I] [SeedableRng R] [Pool EV] in
theorem new_sound [LawfulPool SR] (config : EndpointConfig) (rng : G) :
    Sound (new config rng : Engine I G R SR EV) where
  story h := .nothing
  paired h := by
    constructor
    · intro hex
      obtain ⟨s, hs, -⟩ := hex
      cases hs
    · intro hex
      obtain ⟨key, hkey⟩ := hex
      change Option.map _ ((Endpoint.tryNew config rng : Endpoint I G R SR EV).route key) = _ at hkey
      rw [Endpoint.tryNew_route] at hkey
      cases hkey
  unique i j handle hi := by
    change Option.map _ ((Endpoint.tryNew config rng : Endpoint I G R SR EV).route i) = _ at hi
    rw [Endpoint.tryNew_route] at hi
    cases hi
  minted h s hs := by cases hs

theorem runs_sound [ReleasingPool SR] (ts : List (Transition (Engine I G R SR EV) (EngineCall I)))
    (e : Engine I G R SR EV) (run : Run machine ts e) (hmints : ∀ t ∈ ts, Mints t) : Sound e := by
  apply run.invariant machine (fun (g : Unit) _ => g) () (fun _ e => Sound e) Mints _ _ ts e hmints
  · intro e hstart
    obtain ⟨config, rng, rfl⟩ := hstart
    exact new_sound config rng
  · intro _ e c h hadmits hmint
    cases c with
    | registerService records now => exact h.registerService hmint records now
    | unregisterService handle now => exact h.unregisterService handle now
    | pollServiceUpdate handle => exact h.pollServiceUpdate handle
    | pump p =>
      obtain ⟨e', hpump⟩ := Option.isSome_iff_exists.mp hadmits
      change Sound ((e.pump p).getD e)
      rw [hpump]
      exact h.pump p hpump

/-- In every run without a handle that is given twice, slots and routes go together, a freed route
leaves only a slot that is still to be read, no service that is given up is driven again, what ends
a service is read before its slot goes, and no queue grows past its bound or throws out an update
that ends no service while one waits that does. -/
theorem slots_follow_routes {I G R : Type} [Instant I] [SeedSource G] [SeedableRng R]
    (ts : List (Transition (Engine I G R Slab Slab) (EngineCall I)))
    (e : Engine I G R Slab Slab) (run : Run machine ts e)
    (hmints : ∀ t ∈ ts, Mints t) :
    (∀ h, (∃ s, e.services.lookup h = some s ∧ s.routeFreed = false) ↔
        ∃ key route, e.endpoint.route key = some route ∧ route.handle = h) ∧
      (∀ h s, e.services.lookup h = some s → s.routeFreed = true →
        s.updates ≠ [] ∧ s.callerGone = false) ∧
      (∀ h s, e.services.lookup h = some s →
        (s.errored = true ↔ Open (· = .errored h) (· = .registered h) e.marks)) ∧
      (∀ h, Between (· = .errored h) (· = .registered h) (SlotMark.Drives h) e.marks) ∧
      (∀ h u, u.isTerminal = true →
        (Open (· = .queued h u) (SlotMark.Answers h u) e.marks ↔
            ∃ s, e.services.lookup h = some s ∧ u ∈ s.updates ∧ s.callerGone = false) ∧
          Between (· = .queued h u) (SlotMark.Answers h u) (· = .removed h) e.marks) ∧
      ∀ h s, e.services.lookup h = some s →
        s.updates.length ≤ maxServiceUpdates ∧ s.updates.count .conflict ≤ 1 ∧
          s.updates.count .hostConflict ≤ 1 ∧
          ∀ u v, v.isTerminal = false →
            (s.pushUpdate u).updates.count v < s.updates.count v →
              ∀ w ∈ s.updates, w.isTerminal = false := by
  have h := runs_sound ts e run hmints
  refine ⟨fun j => ?_, fun j => (h.story j).freed, fun j => (h.story j).shut,
    fun j => (h.story j).silent,
    fun j u hu => ⟨(h.story j).waiting u hu, (h.story j).heard u hu⟩, fun j s hs => ?_⟩
  · have hpaired := h.paired j
    simp only [Unfreed, Endpoint.Has, Endpoint.handleAt, Option.map_eq_some_iff] at hpaired
    exact hpaired
  · have hb := (h.story j).bounded s hs
    exact ⟨hb.length, hb.conflict, hb.hostConflict, fun u v hv => s.pushUpdate_evicts u v hv⟩


abbrev Small := Engine Uptime ZeroRng ZeroRng Slab Slab

def emptyEngine : Small := new ⟨true, true, 0⟩ ⟨⟩

theorem printer_slot_follows :
    ∃ key route, (emptyEngine.next (.registerService .printer 0)).endpoint.route key = some route ∧
      route.handle = ⟨0⟩ := by
  have run : Run machine [machine.transition emptyEngine (.registerService .printer 0)]
      (emptyEngine.next (.registerService .printer 0)) :=
    .step [] emptyEngine (EngineCall.registerService .printer 0)
      (.start _ ⟨⟨true, true, 0⟩, ⟨⟩, rfl⟩) trivial
  have hmints : ∀ t ∈ [machine.transition emptyEngine (.registerService .printer 0)], Mints t := by
    intro t ht
    rw [List.mem_singleton.mp ht]
    intro hlast
    cases hlast
  exact ((slots_follow_routes _ _ run hmints).1 ⟨0⟩).mp ⟨.fresh, rfl, rfl⟩

def emptyPump : PumpCall Uptime := ⟨0, [], [], [], []⟩

def engineOver (endpoint : Endpoint Uptime ZeroRng ZeroRng Slab Slab)
    (services : Assoc ServiceHandle (ServiceSlot Uptime)) (tx : Caster Uptime)
    (marks : List SlotMark) : Small := ⟨endpoint, services, tx, marks⟩

def goneSlot : ServiceSlot Uptime := { ServiceSlot.fresh with errored := true, callerGone := true }

theorem bareEndpoint_pump (rest) (n : UInt32) (token token' : UInt64) (h : ServiceHandle)
    (tx : Caster Uptime)
    (marks : List SlotMark) :
    (engineOver (bareEndpoint (some (leavingRoute h) :: rest) [(⟨token⟩, printerGoodbye h)] n token')
      (AList.singleton h goneSlot) tx marks).pump emptyPump =
      some (engineOver (bareEndpoint (none :: rest) [] n token') ∅ tx (marks ++ [.removed h])) := by
  generalize hep : bareEndpoint (some (leavingRoute h) :: rest) [(⟨token⟩, printerGoodbye h)] n token' = ep
  have hep' : ep.handleTimeout 0 = ep := by
    rw [← hep]
    rfl
  have hlive : (engineOver ep (AList.singleton h goneSlot) tx marks).live h = false := by
    unfold live
    rw [show (engineOver ep (AList.singleton h goneSlot) tx marks).services.lookup h = some goneSlot from
      lookup_single h goneSlot]
    rfl
  have hfire : (engineOver ep (AList.singleton h goneSlot) tx marks).fireTimeouts 0 =
      engineOver ep (AList.singleton h goneSlot) tx marks := by
    change fireTimeout 0 (engineOver (ep.handleTimeout 0) (AList.singleton h goneSlot) tx marks) h = _
    rw [hep']
    unfold fireTimeout
    rw [hlive]
    rfl
  have hdrain : (engineOver ep (AList.singleton h goneSlot) tx marks).drainServiceUpdates 0 =
      engineOver ep (AList.singleton h goneSlot) tx marks := by
    change drainUpdates 0 h (_ + 1) _ = _
    unfold drainUpdates
    rw [hlive]
    rfl
  have htx : txLoop 0 [] [] (engineOver ep (AList.singleton h goneSlot) tx marks) =
      some (engineOver ep (AList.singleton h goneSlot) tx marks) := by
    have hpoll : (engineOver ep (AList.singleton h goneSlot) tx marks).pollOneTransmit 0 [] =
        (engineOver ep (AList.singleton h goneSlot) tx marks, none) := by
      change pollTransmits 0 [] [h] _ = _
      unfold pollTransmits
      rw [hlive]
      rfl
    unfold txLoop
    rw [hpoll]
  have hgoodbye : goodbyeLoop 0 [] [] (engineOver ep (AList.singleton h goneSlot) tx marks) =
      some (engineOver ep (AList.singleton h goneSlot) tx marks) := by
    rw [← hep]
    rfl
  have hend : (engineOver ep (AList.singleton h goneSlot) tx marks).drainWithdrawals 0 =
      engineOver (bareEndpoint (none :: rest) [] n token') ∅ tx (marks ++ [.removed h]) := by
    unfold drainWithdrawals
    rw [show (engineOver ep (AList.singleton h goneSlot) tx marks).endpoint = ep from rfl, ← hep,
      bareEndpoint_drain]
    change collectSlot (engineOver (bareEndpoint (none :: rest) [] n token') (AList.singleton h goneSlot) tx marks) h = _
    unfold collectSlot
    rw [show (engineOver (bareEndpoint (none :: rest) [] n token') (AList.singleton h goneSlot) tx marks).services.lookup h =
      some goneSlot from lookup_single h goneSlot]
    change engineOver _ ((AList.singleton h goneSlot : Assoc _ _).erase h) _ _ = _
    rw [single_erase]
    rfl
  unfold pump
  simp only [emptyPump, List.take_nil, List.foldl_nil, hfire, hdrain, htx, hgoodbye, hend,
    Option.bind_eq_bind, Option.bind_some, Option.pure_def]

theorem register_step (slots) (hslots : slots = [] ∨ slots = [none]) (n : UInt32) (token : UInt64)
    (tx : Caster Uptime) (marks : List SlotMark) :
    (engineOver (bareEndpoint slots [] n token) ∅ tx marks).next (.registerService .printer 0) =
      engineOver (bareEndpoint [some (printerRoute ⟨n⟩)] [] (saturatingSucc32 n) token)
        (AList.singleton ⟨n⟩ .fresh) tx (marks ++ [.registered ⟨n⟩]) := by
  change (registerService (engineOver (bareEndpoint slots [] n token) ∅ tx marks) .printer 0).1 = _
  unfold registerService
  rw [show (engineOver (bareEndpoint slots [] n token) ∅ tx marks).endpoint = bareEndpoint slots [] n token from rfl,
    bareEndpoint_register slots hslots n token]
  rfl

theorem unregister_step (rest) (n : UInt32) (token : UInt64) (h : ServiceHandle)
    (tx : Caster Uptime) (marks : List SlotMark) :
    ∃ token', (engineOver (bareEndpoint (some (printerRoute h) :: rest) [] n token)
      (AList.singleton h .fresh) tx marks).next (.unregisterService h 0) =
        engineOver (bareEndpoint (some (leavingRoute h) :: rest) [(⟨token⟩, printerGoodbye h)] n token')
          (AList.singleton h goneSlot) tx.supersede (marks ++ [.left h] ++ [.errored h]) := by
  obtain ⟨token', hun⟩ := bareEndpoint_unregister rest n token h
  refine ⟨token', ?_⟩
  change unregisterService (engineOver (bareEndpoint (some (printerRoute h) :: rest) [] n token)
    (AList.singleton h .fresh) tx marks) h 0 = _
  unfold unregisterService
  rw [show (engineOver (bareEndpoint (some (printerRoute h) :: rest) [] n token) (AList.singleton h .fresh) tx
    marks).services.lookup h = some .fresh from lookup_single h _]
  change engineOver (Endpoint.unregisterService (bareEndpoint (some (printerRoute h) :: rest) [] n token) h 0)
    (Assoc.modify _ h (Assoc.modify _ h (AList.singleton h .fresh))) tx.supersede _ = _
  rw [hun, single_modify, single_modify]
  rfl

theorem Reached.goes {e e' : Small} (h : Reachable machine e) (c : EngineCall Uptime)
    (hc : Admits e c) (hnext : next e c = e') : Reachable machine e' := by
  obtain ⟨ts, run⟩ := h
  rw [← hnext]
  exact ⟨_, run.step ts e c hc⟩

theorem Reached.pumps {e e' : Small} (h : Reachable machine e) (p : PumpCall Uptime)
    (hp : e.pump p = some e') : Reachable machine e' := by
  apply Reached.goes h (.pump p)
  · show (e.pump p).isSome = true
    rw [hp]
    rfl
  · show (e.pump p).getD e = e'
    rw [hp]
    rfl

theorem come_and_go (slots) (hslots : slots = [] ∨ slots = [none]) (n : UInt32) (token : UInt64)
    (tx : Caster Uptime) (marks : List SlotMark)
    (h : Reachable machine (engineOver (bareEndpoint slots [] n token) ∅ tx marks)) :
    ∃ token' tx' marks',
      Reachable machine (engineOver (bareEndpoint [none] [] (saturatingSucc32 n) token') ∅ tx' marks') := by
  obtain ⟨token', hleave⟩ := unregister_step [] (saturatingSucc32 n) token ⟨n⟩ tx
    (marks ++ [.registered ⟨n⟩])
  have hpump := bareEndpoint_pump [] (saturatingSucc32 n) token token' ⟨n⟩ tx.supersede
    (marks ++ [.registered ⟨n⟩] ++ [.left ⟨n⟩] ++ [.errored ⟨n⟩])
  have hfirst := Reached.goes h (.registerService .printer 0) trivial
    (register_step slots hslots n token tx marks)
  have hsecond := Reached.goes hfirst (.unregisterService ⟨n⟩ 0) trivial hleave
  exact ⟨token', _, _, Reached.pumps hsecond emptyPump hpump⟩

theorem last_handle_reached :
    ∃ slots token tx marks, (slots = [] ∨ slots = [none]) ∧
      Reachable (machine : Machine Small (EngineCall Uptime))
        (engineOver (bareEndpoint slots [] lastServiceHandle.raw token) ∅ tx marks) := by
  obtain ⟨slots, token, hslots, tx, marks, hreach⟩ := counter_reaches
    (fun slots n token => ∃ tx marks, Reachable (machine : Machine Small (EngineCall Uptime))
      (engineOver (bareEndpoint slots [] n token) ∅ tx marks))
    ⟨.new, [], [], .start _ ⟨⟨true, true, 0⟩, ⟨⟩, rfl⟩⟩
    (fun slots n token hslots ⟨tx, marks, h⟩ => come_and_go slots hslots n token tx marks h)
    4294967295 (le_refl _)
  exact ⟨slots, token, tx, marks, hslots, hreach⟩

theorem register_other_step (token : UInt64) (tx : Caster Uptime) (marks : List SlotMark) :
    (engineOver (bareEndpoint [some (printerRoute lastServiceHandle)] [] lastServiceHandle.raw token)
      (AList.singleton lastServiceHandle .fresh) tx marks).next (.registerService otherPrinter 0) =
      engineOver (bareEndpoint [some (printerRoute lastServiceHandle), some (otherRoute lastServiceHandle)] []
        lastServiceHandle.raw token) (AList.singleton lastServiceHandle .fresh) tx
          (marks ++ [.registered lastServiceHandle]) := by
  change (registerService (engineOver _ _ tx marks) otherPrinter 0).1 = _
  unfold registerService
  rw [show (engineOver (bareEndpoint [some (printerRoute lastServiceHandle)] [] lastServiceHandle.raw token)
    (AList.singleton lastServiceHandle .fresh) tx marks).endpoint =
      bareEndpoint [some (printerRoute lastServiceHandle)] [] lastServiceHandle.raw token from rfl,
    bareEndpoint_register_other token]
  change engineOver _ (AList.insert lastServiceHandle .fresh (AList.singleton _ _)) _ _ = _
  rw [AList.insert_singleton_eq]
  rfl

/-- A handle that is given twice leaves a route without a slot. -/
theorem handles_are_given_twice : ∃ ts e,
    Run (machine : Machine Small (EngineCall Uptime)) ts e ∧
      ¬ ∀ h, (∃ s, e.services.lookup h = some s ∧ s.routeFreed = false) ↔
        ∃ key route, e.endpoint.route key = some route ∧ route.handle = h := by
  obtain ⟨slots, token, tx, marks, hslots, hreach⟩ := last_handle_reached
  have hfirst := Reached.goes hreach (.registerService .printer 0) trivial
    (register_step slots hslots lastServiceHandle.raw token tx marks)
  have hsecond := Reached.goes hfirst (.registerService otherPrinter 0) trivial
    (register_other_step token tx _)
  obtain ⟨token', hleave⟩ := unregister_step [some (otherRoute lastServiceHandle)]
    lastServiceHandle.raw token lastServiceHandle tx
      (marks ++ [.registered lastServiceHandle] ++ [.registered lastServiceHandle])
  have hthird := Reached.goes hsecond (.unregisterService lastServiceHandle 0) trivial hleave
  obtain ⟨ts, run⟩ := Reached.pumps hthird emptyPump
    (bareEndpoint_pump [some (otherRoute lastServiceHandle)] lastServiceHandle.raw token token'
      lastServiceHandle tx.supersede _)
  refine ⟨ts, _, run, fun hall => ?_⟩
  obtain ⟨s, hs, -⟩ := (hall lastServiceHandle).mpr ⟨1, otherRoute lastServiceHandle, rfl, rfl⟩
  cases hs

end Engine
end Hick
