import Hick.Mio.Lookups

/-!
# The driver and its queries (hick-mio/src/driver.rs:387-560, 1078-1560, endpoint.rs:723-790)

A tick receives, fires the timers, drains the transmits under a budget, hands the caller what has
come of its queries and gives the lookups their turns.
-/

namespace Hick
open Octets Wire

def eventQueueCompactThreshold : Nat := 4 * EventQueue.answerCapacity

/-- `accepted` is how many answers the core had accepted when the end of the query was handed on. -/
inductive Handed where
  | service (handle : ServiceHandle) (update : ServiceUpdate)
  | answer (handle : QueryHandle) (answer : CollectedAnswer)
  | missed (handle : QueryHandle) (n : UInt64)
  | terminal (handle : QueryHandle) (update : QueryUpdate) (accepted : UInt64)
  deriving DecidableEq

def Handed.enqueue (q : EventQueue) : Handed → EventQueue
  | .service handle update => q.pushTerminal (.service handle update)
  | .answer handle found => q.pushAnswer handle found
  | .missed _ n => q.recordDropped n
  | .terminal handle update _ => q.pushTerminal (.queryTerminal handle update)

inductive TxSlot where
  | service (handle : ServiceHandle)
  | query (handle : QueryHandle)

structure TickInput (I : Type) where
  /-- What each datagram brings to the queries. -/
  datagrams : List (List Ref × List QuestionRef)
  /-- The services with their places in the transmit queue, and what the turn of one hands on,
  spends and leaves. -/
  services : List (UInt64 × ServiceHandle)
  serviceTurn : ServiceHandle → Nat → List ServiceUpdate × Nat × Bool
  /-- What the services have to tell when the updates are pushed. -/
  updates : List (ServiceHandle × ServiceUpdate)
  sendBuf : Bytes
  /-- What the sockets do with the `n`-th datagram of a query. -/
  sockets : QueryHandle → Nat → PerFamily (SocketFate I)
  /-- How the map of the queries is listed, to the transmit queue and to the updates. -/
  txOrder : HashOrder
  updateOrder : HashOrder
  /-- How the maps of the lookup in each slot are listed. -/
  lookupOrder : Nat → HashOrder

namespace Mdns
variable {I : Type} {QS AN EV LK : Type → Type} [Instant I] [Pool QS] [Pool AN] [Pool EV] [Pool LK]

def enqueue (m : Mdns I QS AN EV LK) (handed : List Handed) : Mdns I QS AN EV LK :=
  { m with events := handed.foldl Handed.enqueue m.events }

def drainRecv : List (List Ref × List QuestionRef) → Mdns I QS AN EV LK → Option I →
    Mdns I QS AN EV LK × Option I
  | [], m, foldedAt => (m, foldedAt)
  | (records, questions) :: rest, m, _ =>
    let (processedAt, m) := m.now
    drainRecv rest { m with endpoint := m.endpoint.receive processedAt records questions }
      (some processedAt)

def sweep (m : Mdns I QS AN EV LK) : Mdns I QS AN EV LK :=
  { m with
    queries := m.queries.retain fun handle _ => (m.endpoint.queryAcceptedCount handle).isSome }

def fireTimeouts (m : Mdns I QS AN EV LK) (now : I) : Mdns I QS AN EV LK :=
  { m with
    endpoint := m.queries.keys.foldl (fun e handle => e.handleQueryTimeout handle now) m.endpoint }

/-! ### The drain (driver.rs:1078-1396) -/

structure Draining (I : Type) (QS AN EV LK : Type → Type) where
  mdns : Mdns I QS AN EV LK
  retired : List QueryHandle
  handed : List Handed

def retireInDrain (d : Draining I QS AN EV LK) (handle : QueryHandle) : Draining I QS AN EV LK :=
  let m := d.mdns
  let ownedByLookup := (m.queries.lookup handle).any fun ctx => ctx.owner.isSome
  let accepted := m.acceptedOf handle
  match (m.endpoint.retireQuery handle).pollQuery handle with
  | (endpoint, some update) =>
    { mdns := { m with endpoint := endpoint }
      retired := d.retired ++ [handle]
      handed := if ownedByLookup then d.handed
        else d.handed ++ [.terminal handle update accepted] }
  | (endpoint, none) =>
    { mdns := { m with endpoint := endpoint }
      retired := d.retired ++ [handle]
      handed := d.handed }

def sendQuestion (m : Mdns I QS AN EV LK) (handle : QueryHandle) (sent : Sent)
    (fates : PerFamily (SocketFate I)) :
    Mdns I QS AN EV LK × FamilyAttempt I × FamilyAttempt I :=
  let gate := ((m.queries.lookup handle).map QueryCtx.wireGate).getD FamilyWireGate.new
  let report := gate.sendTo sent.transmit fates
  ({ m with
      queries := m.queries.modify
        (fun ctx => { ctx with wireGate := gate.note report sent.transmit.minFamilyGap }) handle },
    report.v4.attempt, report.v6.attempt)

def offerQuestion (m : Mdns I QS AN EV LK) (handle : QueryHandle) (sent : Sent)
    (fates : PerFamily (SocketFate I)) : Mdns I QS AN EV LK × TransmitConfirm :=
  let (m, v4, v6) := m.sendQuestion handle sent fates
  let (now, m) := m.now
  let (endpoint, confirm) := m.endpoint.noteQueryTransmitOutcome handle now v4 v6
  ({ m with endpoint := endpoint }, confirm)

/-- The loop of a query's turn, with what is left of its quantum and the number of its datagrams so
far; the last two components are what it spent and whether the quantum cut it off. -/
def queryTurn (t : TickInput I) (handle : QueryHandle) :
    Nat → Nat → Draining I QS AN EV LK → Draining I QS AN EV LK × Nat × Bool
  | 0, spent, d => (d, spent, true)
  | left + 1, spent, d =>
    let (now, m) := d.mdns.now
    match m.endpoint.pollQueryTransmit handle now t.sendBuf with
    | (endpoint, .ok none) => ({ d with mdns := { m with endpoint := endpoint } }, spent, false)
    | (endpoint, .error _) =>
      (retireInDrain { d with mdns := { m with endpoint := endpoint } } handle, spent, false)
    | (endpoint, .ok (some sent)) =>
      let (m, confirm) := offerQuestion { m with endpoint := endpoint } handle sent
        (t.sockets handle spent)
      let d := { d with mdns := m }
      if confirm.retireProducer then (retireInDrain d handle, spent + 1, false)
      else queryTurn t handle left (spent + 1) d

def drainVisit (t : TickInput I) (d : Draining I QS AN EV LK) (slot : TxSlot) (quantum : Nat)
    (nextSeq : UInt64) : Draining I QS AN EV LK × Nat × Bool :=
  match slot with
  | .service handle =>
    let (updates, spent, capped) := t.serviceTurn handle quantum
    ({ d with handed := d.handed ++ updates.map (.service handle) }, spent, capped)
  | .query handle =>
    match d.mdns.queries.lookup handle with
    | none => (d, 0, false)
    | some _ =>
      queryTurn t handle quantum 0 { d with mdns := { d.mdns with
        queries := d.mdns.queries.modify (fun ctx => { ctx with txSeq := nextSeq }) handle } }

def dropQuery (m : Mdns I QS AN EV LK) (handle : QueryHandle) : Mdns I QS AN EV LK :=
  { m with
    endpoint := m.endpoint.cancelQuery handle
    queries := m.queries.erase handle }

def txScratch (t : TickInput I) (m : Mdns I QS AN EV LK) : List (UInt64 × TxSlot) :=
  (t.services.map fun entry => (entry.1, .service entry.2)) ++
    (t.txOrder.handles m.queries.keys).map fun handle =>
      (((m.queries.lookup handle).map QueryCtx.txSeq).getD 0, .query handle)

def drainTransmits (t : TickInput I) (m : Mdns I QS AN EV LK) :
    Mdns I QS AN EV LK × List Handed :=
  let scratch := txScratch t m
  if scratch.isEmpty then ({ m with workPending := false }, [])
  else
    let (d, txQueue, leftWorkBehind) := m.txQueue.serve scratch maxSendCreditsPerDrain
      (drainVisit t) ⟨m, [], []⟩
    let m := d.retired.foldl dropQuery d.mdns
    ({ m with
        txQueue := txQueue
        workPending := leftWorkBehind }, d.handed)

/-! ### The updates (driver.rs:1415-1505) -/

def updateQuery (m : Mdns I QS AN EV LK) (handle : QueryHandle) :
    Mdns I QS AN EV LK × List Handed × Bool :=
  match m.queries.lookup handle with
  | none => (m, [], false)
  | some ctx =>
    if ctx.owner.isSome then (m, [], false)
    else
      let accepted := m.acceptedOf handle
      let (m, handed) :=
        if m.lastSeqOf handle < accepted then
          (m.markRead handle,
            (m.unread handle).map (.answer handle) ++ [.missed handle (m.missed handle)])
        else (m, [])
      match m.endpoint.pollQuery handle with
      | (endpoint, some update) =>
        ({ m with endpoint := endpoint }, handed ++ [.terminal handle update accepted], true)
      | (endpoint, none) => ({ m with endpoint := endpoint }, handed, false)

def updateQueries : List QueryHandle → Mdns I QS AN EV LK →
    Mdns I QS AN EV LK × List QueryHandle × List Handed
  | [], m => (m, [], [])
  | handle :: rest, m =>
    let (m, handed, over_) := m.updateQuery handle
    let (m, retired, more) := updateQueries rest m
    (m, if over_ then handle :: retired else retired, handed ++ more)

def pushUpdates (t : TickInput I) (m : Mdns I QS AN EV LK) : Mdns I QS AN EV LK × List Handed :=
  let (m, retired, handed) := updateQueries (t.updateOrder.handles m.queries.keys) m
  (retired.foldl dropQuery m,
    (t.updates.map fun entry => Handed.service entry.1 entry.2) ++ handed)

def compactEvents (m : Mdns I QS AN EV LK) : Mdns I QS AN EV LK :=
  if eventQueueCompactThreshold < m.events.physicalLen then { m with events := m.events.compact }
  else m

def tick (t : TickInput I) (m : Mdns I QS AN EV LK) : Mdns I QS AN EV LK × List Handed :=
  let (now, m) := m.now
  let (m, foldedAt) := drainRecv t.datagrams m none
  let m := m.sweep
  let now := (foldedAt.map (max now)).getD now
  let m := m.fireTimeouts now
  let (m, drained) := m.drainTransmits t
  let (m, pushed) := (m.enqueue drained).pushUpdates t
  let m := advanceLookups t.lookupOrder (m.enqueue pushed)
  (m.compactEvents, drained ++ pushed)

def startQuery (m : Mdns I QS AN EV LK) (spec : QuerySpec) :
    Mdns I QS AN EV LK × Except StartQueryError QueryHandle :=
  let (now, m) := m.now
  match m.endpoint.tryStartQuery spec now with
  | (endpoint, .error e) => ({ m with endpoint := endpoint }, .error e)
  | (endpoint, .ok handle) =>
    let (txSeq, txQueue) := m.txQueue.join
    ({ m with
        endpoint := endpoint
        queries := m.queries.insert handle ⟨0, none, txSeq, FamilyWireGate.new⟩
        txQueue := txQueue
        workPending := true }, .ok handle)

def cancelQuery (m : Mdns I QS AN EV LK) (handle : QueryHandle) : Mdns I QS AN EV LK :=
  if (m.queries.lookup handle).any fun ctx => ctx.owner.isSome then m else m.dropQuery handle

def nextEvent (m : Mdns I QS AN EV LK) : Option Event × Mdns I QS AN EV LK :=
  let (event, events) := m.events.pop
  (event, { m with events := events })

end Mdns
end Hick
