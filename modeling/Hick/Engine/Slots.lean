import Hick.Driver.Updates
import Hick.Engine.Fanout
import Hick.Lib.Assoc
import Hick.Onlink.Ingress

/-!
# The slots of the embedded engine (hick-smoltcp/src/engine/mod.rs:395-475, 1486-1555, 1640-2452)

The engine keeps one slot for each service that it registered with its endpoint: what the host has
not read yet, and whether the service is still driven.
-/

namespace Hick
open Octets Wire Respond

def maxServiceUpdates : Nat := 16
def maxRxPerPump : Nat := 64
def maxMdnsMessage : Nat := 9000

structure ServiceSlot (I : Type) where
  updates : List ServiceUpdate
  errored : Bool
  wireGate : FamilyWireGate I
  routeFreed : Bool
  callerGone : Bool

namespace ServiceSlot
variable {I : Type}

def fresh : ServiceSlot I := ⟨[], false, .new, false, false⟩

/-- `push_update`: a kind that ends the service is queued once; a full queue gives up the first
update of such a kind, or else its oldest. -/
def pushUpdate (s : ServiceSlot I) (update : ServiceUpdate) : ServiceSlot I :=
  if update.isTerminal && s.updates.contains update then s
  else
    let kept :=
      if maxServiceUpdates ≤ s.updates.length then
        match s.updates.findIdx? ServiceUpdate.isTerminal with
        | some pos => s.updates.eraseIdx pos
        | none => s.updates.tail
      else s.updates
    { s with updates := kept ++ [update] }

end ServiceSlot

/-- What was done for the service of a handle: the route was made, the slot was given up, the
endpoint was called for it, a datagram of it was sent, an update was queued or read by the host, the
host left it, the slot was removed. -/
inductive SlotMark where
  | registered (handle : ServiceHandle)
  | errored (handle : ServiceHandle)
  | polled (handle : ServiceHandle)
  | transmitted (handle : ServiceHandle)
  | queued (handle : ServiceHandle) (update : ServiceUpdate)
  | delivered (handle : ServiceHandle) (update : ServiceUpdate)
  | left (handle : ServiceHandle)
  | removed (handle : ServiceHandle)

/-- `marks` is ghost state: what was done for each service, in order. -/
structure Engine (I G R : Type) (SR EV : Type → Type) where
  endpoint : Endpoint I G R SR EV
  services : Assoc ServiceHandle (ServiceSlot I)
  tx : Caster I
  marks : List SlotMark

/-- A datagram that the ingress gate let in; of its routing only what it delivers is left. -/
structure Arrival where
  src : SocketAddr
  data : Bytes
  deliveries : List (Nat × ServiceEvent)

structure QueryDatagram (I : Type) where
  data : Bytes
  gate : FamilyWireGate I
  minGap : Duration

/-- One pass of the transmit loop: the readings and the answers it meets, the reading after it, and
the datagram of a query that goes out where no service has one. -/
structure TxPass (I : Type) where
  env : Surroundings I
  fannedOutAt : I
  query : QueryDatagram I

structure GoodbyePass (I : Type) where
  answer : Nat → Family → Except SendError Unit
  fannedOutAt : I

structure PumpCall (I : Type) where
  now : I
  scratch : Bytes
  arrivals : List Arrival
  passes : List (TxPass I)
  goodbyes : List (GoodbyePass I)

namespace Caster
variable {I : Type} [Instant I]

def supersede (m : Caster I) : Caster I := { m with log := m.log.supersede }

def burstOne (now : I) (data : Bytes) (debt : PerFamily Bool)
    (answer : Nat → Family → Except SendError Unit)
    (st : PerFamily (Option I) × Nat × PerFamily (FamilySend I)) (f : Family) :
    PerFamily (Option I) × Nat × PerFamily (FamilySend I) :=
  let (failingSince, sends, results) := st
  if !f.pick debt then st
  else
    match answer sends f with
    | .ok () =>
      (failingSince.put f none, sends + 1, results.put f (.sent data.length now))
    | .error .unsupported => (failingSince, sends + 1, results.put f .unsupported)
    | .error .tooLarge => (failingSince, sends + 1, results.put f .failed)
    | .error .busy =>
      (failingSince.put f (some ((f.pick failingSince).getD now)), sends + 1, results.put f .busy)

def burst (m : Caster I) (now : I) (data : Bytes) (debt : PerFamily Bool)
    (answer : Nat → Family → Except SendError Unit) : Caster I × PerFamily (FamilySend I) :=
  let order := familyOrder m.failingSince
  let (failingSince, _, results) := burstOne now data debt answer
    (burstOne now data debt answer (m.failingSince, 0, .both .notOwed) order.1) order.2
  ({ m with failingSince := failingSince }, results)

end Caster

namespace Engine
variable {I G R : Type} {SR EV : Type → Type} [Instant I] [SeedSource G] [SeedableRng R]
  [Pool SR] [Pool EV]

def new (config : EndpointConfig) (rng : G) : Engine I G R SR EV :=
  ⟨.tryNew config rng, ∅, .new, []⟩

def mark (e : Engine I G R SR EV) (m : SlotMark) : Engine I G R SR EV :=
  { e with marks := e.marks ++ [m] }

def updateSlot (e : Engine I G R SR EV) (handle : ServiceHandle)
    (f : ServiceSlot I → ServiceSlot I) : Engine I G R SR EV :=
  { e with services := Assoc.modify f handle e.services }

def removeSlot (e : Engine I G R SR EV) (handle : ServiceHandle) : Engine I G R SR EV :=
  { e with services := e.services.erase handle }.mark (.removed handle)

def handles (e : Engine I G R SR EV) : List ServiceHandle :=
  e.services.keys.insertionSort fun a b => a.raw ≤ b.raw

def live (e : Engine I G R SR EV) (handle : ServiceHandle) : Bool :=
  (e.services.lookup handle).any fun slot => !slot.errored

def queue (e : Engine I G R SR EV) (handle : ServiceHandle) (update : ServiceUpdate) :
    Engine I G R SR EV :=
  (e.updateSlot handle (·.pushUpdate update)).mark (.queued handle update)

def giveUp (e : Engine I G R SR EV) (handle : ServiceHandle) : Engine I G R SR EV :=
  (e.updateSlot handle fun slot => { slot with errored := true }).mark (.errored handle)

def registerService (e : Engine I G R SR EV) (records : ServiceRecords) (now : I) :
    Engine I G R SR EV × Except Endpoint.RegisterServiceError ServiceHandle :=
  match e.endpoint.tryRegisterService records now with
  | (endpoint, .error err) => ({ e with endpoint := endpoint }, .error err)
  | (endpoint, .ok handle) =>
    ({ e with
      endpoint := endpoint
      services := e.services.insert handle .fresh }.mark (.registered handle), .ok handle)

def beginServiceWithdrawal (e : Engine I G R SR EV) (handle : ServiceHandle) (now : I) :
    Engine I G R SR EV :=
  { e with
    tx := e.tx.supersede
    endpoint := e.endpoint.unregisterService handle now }

def unregisterService (e : Engine I G R SR EV) (handle : ServiceHandle) (now : I) :
    Engine I G R SR EV :=
  match e.services.lookup handle with
  | none => e
  | some slot =>
    let e := e.mark (.left handle)
    if slot.routeFreed then e.removeSlot handle
    else
      ((e.giveUp handle).updateSlot handle fun slot => { slot with callerGone := true })
        |>.beginServiceWithdrawal handle now

def pollServiceUpdate (e : Engine I G R SR EV) (handle : ServiceHandle) :
    Engine I G R SR EV × Option ServiceUpdate :=
  match e.services.lookup handle with
  | none => (e, none)
  | some slot =>
    match slot.updates with
    | [] => (e, none)
    | update :: rest =>
      let e := (e.updateSlot handle fun slot => { slot with updates := rest }).mark
        (.delivered handle update)
      (if slot.routeFreed && rest.isEmpty then e.removeSlot handle else e, some update)

def fireTimeout (now : I) (e : Engine I G R SR EV) (handle : ServiceHandle) :
    Engine I G R SR EV :=
  if e.live handle then
    { e with endpoint := (e.endpoint.handleServiceTimeout handle now).1 }.mark (.polled handle)
  else e

def fireTimeouts (e : Engine I G R SR EV) (now : I) : Engine I G R SR EV :=
  e.handles.foldl (fireTimeout now) { e with endpoint := e.endpoint.handleTimeout now }

def handleOne (now : I) (e : Engine I G R SR EV) (a : Arrival) : Engine I G R SR EV :=
  let e :=
    if a.src.port = mdnsPort then
      { e with tx := { e.tx with log := (e.tx.log.claim (Family.of a.src) a.data now).1 } }
    else e
  let deliver (endpoint : Endpoint I G R SR EV) (d : Nat × ServiceEvent) :=
    endpoint.dispatch d.1 d.2 now
  { e with endpoint := a.deliveries.foldl deliver e.endpoint }

def pendingUpdates (e : Engine I G R SR EV) (handle : ServiceHandle) : Nat :=
  match (e.endpoint.serviceKey handle).bind e.endpoint.route with
  | some route => ((Pool.iter route.proto.pendingUpdates).map Prod.fst).dedup.length
  | none => 0

def noteRename (e : Engine I G R SR EV) (update : ServiceUpdate) : Engine I G R SR EV :=
  match update with
  | .renamed _ => { e with tx := e.tx.supersede }
  | _ => e

/-- The `while` of `drain_service_updates` over one service, for at most `fuel` updates. -/
def drainUpdates (now : I) (handle : ServiceHandle) :
    Nat → Engine I G R SR EV → Engine I G R SR EV
  | 0, e => e
  | fuel + 1, e =>
    if e.live handle then
      match e.endpoint.pollService handle with
      | (endpoint, none) => { e with endpoint := endpoint }.mark (.polled handle)
      | (endpoint, some update) =>
        let e := ({ e with endpoint := endpoint }.mark (.polled handle)).noteRename update
        let e := e.queue handle update
        if update.isTerminal then (e.giveUp handle).beginServiceWithdrawal handle now
        else drainUpdates now handle fuel e
    else e

def drainService (now : I) (e : Engine I G R SR EV) (handle : ServiceHandle) :
    Engine I G R SR EV := drainUpdates now handle (e.pendingUpdates handle + 1) e

def drainServiceUpdates (e : Engine I G R SR EV) (now : I) : Engine I G R SR EV :=
  e.handles.foldl (drainService now) e

/-- A service that nothing more can be sent of is given up: `Conflict` for the host, and the
goodbye. -/
def retireService (e : Engine I G R SR EV) (handle : ServiceHandle) (now : I) :
    Engine I G R SR EV :=
  ((e.queue handle .conflict).giveUp handle).beginServiceWithdrawal handle now

def pollTransmits (now : I) (scratch : Bytes) :
    List ServiceHandle → Engine I G R SR EV → Engine I G R SR EV × Option (ServiceHandle × Sent)
  | [], e => (e, none)
  | handle :: rest, e =>
    if e.live handle then
      match e.endpoint.pollServiceTransmit handle now scratch with
      | (endpoint, .ok (some sent)) =>
        ({ e with endpoint := endpoint }.mark (.polled handle), some (handle, sent))
      | (endpoint, .ok none) =>
        pollTransmits now scratch rest ({ e with endpoint := endpoint }.mark (.polled handle))
      | (endpoint, .error _) =>
        pollTransmits now scratch rest
          (({ e with endpoint := endpoint }.mark (.polled handle)).retireService handle now)
    else pollTransmits now scratch rest e

def pollOneTransmit (e : Engine I G R SR EV) (now : I) (scratch : Bytes) :
    Engine I G R SR EV × Option (ServiceHandle × Sent) :=
  pollTransmits now (scratch.take maxMdnsMessage) e.handles e

def noteTransmitOutcome (e : Engine I G R SR EV) (handle : ServiceHandle) (fallbackAt : I)
    (v4 v6 : FamilyAttempt I) : Engine I G R SR EV × TransmitConfirm :=
  let (endpoint, confirm) := e.endpoint.noteServiceTransmitOutcome handle fallbackAt v4 v6
  ({ e with endpoint := endpoint }, confirm)

def wireGate (e : Engine I G R SR EV) (handle : ServiceHandle) : FamilyWireGate I :=
  ((e.services.lookup handle).map (·.wireGate)).getD .new

def fanOut (e : Engine I G R SR EV) (handle : ServiceHandle) (sent : Sent) (now : I)
    (pass : TxPass I) : Engine I G R SR EV :=
  let (results, gate, tx) := e.tx.sendMulticast sent.message.octets (e.wireGate handle)
    sent.transmit.minFamilyGap pass.env
  let e := { e with tx := tx }.updateSlot handle fun slot => { slot with wireGate := gate }
  let (e, confirm) := (e.mark (.transmitted handle)).noteTransmitOutcome handle pass.fannedOutAt
    results.v4.attempt results.v6.attempt
  if confirm.retireProducer then e.retireService handle now else e

def unicastAttempt (pass : TxPass I) (f : Family) : FamilyAttempt I :=
  match pass.env.answer 0 f with
  | .ok () => .accepted (pass.env.reading 0)
  | .error .unsupported => .noSocket
  | .error .tooLarge => .refused true
  | .error .busy => .refused false

def reply (e : Engine I G R SR EV) (handle : ServiceHandle) (sent : Sent) (pass : TxPass I) :
    Engine I G R SR EV :=
  let served := unicastAttempt pass (Family.of sent.transmit.dst)
  let (v4, v6) :=
    match sent.transmit.dst with
    | .v4 .. => (served, FamilyAttempt.notAddressed)
    | .v6 .. => (FamilyAttempt.notAddressed, served)
  ((e.mark (.transmitted handle)).noteTransmitOutcome handle pass.fannedOutAt v4 v6).1

def isMulticast (dst : SocketAddr) : Bool :=
  dst = multicastDst || dst = .v6 mdnsIpv6Group mdnsPort 0 0

def transmit (e : Engine I G R SR EV) (handle : ServiceHandle) (sent : Sent) (now : I)
    (pass : TxPass I) : Engine I G R SR EV :=
  if isMulticast sent.transmit.dst then e.fanOut handle sent now pass
  else e.reply handle sent pass

def queryFanOut (e : Engine I G R SR EV) (pass : TxPass I) : Engine I G R SR EV :=
  { e with
    tx := (e.tx.sendMulticast pass.query.data pass.query.gate pass.query.minGap pass.env).2.2 }

/-- The transmit loop, with one pass for each datagram that goes out; `none` where the passes and
the datagrams are not equally many. -/
def txLoop (now : I) (scratch : Bytes) :
    List (TxPass I) → Engine I G R SR EV → Option (Engine I G R SR EV)
  | [], e =>
    match e.pollOneTransmit now scratch with
    | (e, none) => some e
    | (_, some _) => none
  | pass :: rest, e =>
    match e.pollOneTransmit now scratch with
    | (e, some (handle, sent)) => txLoop now scratch rest (e.transmit handle sent now pass)
    | (e, none) => txLoop now scratch rest (e.queryFanOut pass)

def goodbyeLoop (now : I) (scratch : Bytes) :
    List (GoodbyePass I) → Engine I G R SR EV → Option (Engine I G R SR EV)
  | [], e =>
    match e.endpoint.pollWithdrawalTransmit now scratch with
    | (endpoint, none) => some { e with endpoint := endpoint }
    | (_, some _) => none
  | pass :: rest, e =>
    match e.endpoint.pollWithdrawalTransmit now scratch with
    | (_, none) => none
    | (endpoint, some round) =>
      let (tx, results) := e.tx.burst now round.message.octets round.debt pass.answer
      goodbyeLoop now scratch rest
        { e with
          tx := tx
          endpoint := endpoint.noteWithdrawalResult round.token pass.fannedOutAt
            results.v4.attempt results.v6.attempt }

def collectSlot (e : Engine I G R SR EV) (handle : ServiceHandle) : Engine I G R SR EV :=
  match e.services.lookup handle with
  | none => e
  | some slot =>
    if slot.updates.isEmpty || slot.callerGone then e.removeSlot handle
    else e.updateSlot handle fun slot => { slot with routeFreed := true }

def drainWithdrawals (e : Engine I G R SR EV) (now : I) : Engine I G R SR EV :=
  let (endpoint, completed) := e.endpoint.drainCompletedWithdrawals now
  completed.reverse.foldl collectSlot { e with endpoint := endpoint }

def pump (e : Engine I G R SR EV) (p : PumpCall I) : Option (Engine I G R SR EV) := do
  let e := e.fireTimeouts p.now
  let e := (p.arrivals.take maxRxPerPump).foldl (handleOne p.now) e
  let e := e.drainServiceUpdates p.now
  let e ← txLoop p.now p.scratch p.passes e
  let e := e.drainServiceUpdates p.now
  let e ← goodbyeLoop p.now p.scratch p.goodbyes e
  return e.drainWithdrawals p.now

end Engine
end Hick
