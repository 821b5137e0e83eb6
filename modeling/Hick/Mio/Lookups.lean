import Hick.Mio.Discovery
import Hick.Mio.TxQueue
import Hick.WireGate.Gate

/-!
# The lookups of a driver (hick-mio/src/discovery.rs:760-1415, hick-mio/src/endpoint.rs:60-185)

A lookup lives in a slot of the driver and owns the sub-queries it has started.
-/

namespace Hick
open Octets Wire

structure QueryCtx (I : Type) where
  lastSeq : UInt64
  owner : Option LookupHandle
  txSeq : UInt64
  wireGate : FamilyWireGate I

structure Lookups (I : Type) (LK : Type → Type) where
  slab : LK (LookupCtx I)
  nextGeneration : UInt64

/-- The side of the driver that its queries and lookups are on. `clock n` is what the clock will
read at the `n`-th reading from here on. -/
structure Mdns (I : Type) (QS AN EV LK : Type → Type) where
  endpoint : Queries I QS AN EV
  queries : Assoc QueryHandle (QueryCtx I)
  lookups : Lookups I LK
  events : EventQueue
  txQueue : TxQueue
  workPending : Bool
  clock : Nat → I

structure HashOrder where
  handles : List QueryHandle → List QueryHandle
  keys : List Bytes → List Bytes
  handles_perm (l : List QueryHandle) : (handles l).Perm l
  keys_perm (l : List Bytes) : (keys l).Perm l

def HashOrder.listed : HashOrder := ⟨id, id, List.Perm.refl, List.Perm.refl⟩

namespace Mdns
variable {I : Type} {QS AN EV LK : Type → Type} [Instant I] [Pool QS] [Pool AN] [Pool EV] [Pool LK]

def now (m : Mdns I QS AN EV LK) : I × Mdns I QS AN EV LK :=
  (m.clock 0, { m with clock := fun n => m.clock (n + 1) })

def budget (ctx : LookupCtx I) (at_ : I) : Option Duration :=
  match ctx.deadline with
  | some deadline =>
    match checkedDurationSince deadline at_ with
    | some remaining => if remaining = 0 then none else some remaining
    | none => none
  | none => some ctx.timeout

def startSubqueryInWindow (m : Mdns I QS AN EV LK) (ctx : LookupCtx I) (spec : QuerySpec) :
    Mdns I QS AN EV LK × Except StartQueryError (Option QueryHandle) :=
  let (at_, m) := m.now
  match budget ctx at_ with
  | none => (m, .ok none)
  | some budget =>
    match m.endpoint.tryStartQuery (spec.withTimeout budget) at_ with
    | (endpoint, .ok sub) => ({ m with endpoint := endpoint }, .ok (some sub))
    | (endpoint, .error e) => ({ m with endpoint := endpoint }, .error e)

/-- A sub-query is entered, with a place in the transmit queue (`register_subquery`). -/
def registerSubquery (m : Mdns I QS AN EV LK) (ctx : LookupCtx I) (owner : LookupHandle)
    (sub : QueryHandle) (step : Step) : Mdns I QS AN EV LK × LookupCtx I :=
  let (txSeq, txQueue) := m.txQueue.join
  ({ m with
      queries := m.queries.insert sub ⟨0, some owner, txSeq, FamilyWireGate.new⟩
      txQueue := txQueue
      workPending := true },
    { ctx with
      subqueries := ctx.subqueries.insert sub step
      launched := ctx.launched + 1 })

def cancelSubqueries (m : Mdns I QS AN EV LK) (ctx : LookupCtx I) : Mdns I QS AN EV LK :=
  ctx.subqueries.keys.foldl (fun m sub =>
    { m with
      endpoint := m.endpoint.cancelQuery sub
      queries := m.queries.erase sub }) m

def lastSeqOf (m : Mdns I QS AN EV LK) (handle : QueryHandle) : UInt64 :=
  ((m.queries.lookup handle).map QueryCtx.lastSeq).getD 0

def acceptedOf (m : Mdns I QS AN EV LK) (handle : QueryHandle) : UInt64 :=
  (m.endpoint.queryAcceptedCount handle).getD (m.lastSeqOf handle)

def unread (m : Mdns I QS AN EV LK) (handle : QueryHandle) : List CollectedAnswer :=
  (m.endpoint.collectedAnswers handle).filter fun a => decide (m.lastSeqOf handle ≤ a.seq)

def missed (m : Mdns I QS AN EV LK) (handle : QueryHandle) : UInt64 :=
  saturatingSub64 (saturatingSub64 (m.acceptedOf handle) (m.lastSeqOf handle))
    (UInt64.ofNat (m.unread handle).length)

def markRead (m : Mdns I QS AN EV LK) (handle : QueryHandle) : Mdns I QS AN EV LK :=
  { m with queries := m.queries.modify (fun q => { q with lastSeq := m.acceptedOf handle }) handle }

/-- The answers of a sub-query since it was last looked at; what the core has dropped of them is
counted. -/
def takeAnswers (m : Mdns I QS AN EV LK) (sub : QueryHandle) :
    Mdns I QS AN EV LK × List CollectedAnswer :=
  if m.lastSeqOf sub < m.acceptedOf sub then
    ({ m.markRead sub with events := m.events.recordDropped (m.missed sub) },
      m.unread sub)
  else (m, [])

def endSubquery (m : Mdns I QS AN EV LK) (sub : QueryHandle) : Mdns I QS AN EV LK × Bool :=
  match m.endpoint.pollQuery sub with
  | (endpoint, some _) =>
    ({ m with
        endpoint := endpoint.cancelQuery sub
        queries := m.queries.erase sub }, true)
  | (endpoint, none) => ({ m with endpoint := endpoint }, false)

def walk : List QueryHandle → Mdns I QS AN EV LK → LookupCtx I →
    Mdns I QS AN EV LK × LookupCtx I
  | [], m, ctx => (m, ctx)
  | sub :: rest, m, ctx =>
    match ctx.subqueries.lookup sub with
    | none => walk rest m ctx
    | some step =>
      let (m, answers) := m.takeAnswers sub
      let ctx := answers.foldl (fun ctx answer => ctx.feed step answer) ctx
      match m.endSubquery sub with
      | (m, true) => walk rest m { ctx with subqueries := ctx.subqueries.erase sub }
      | (m, false) => walk rest m ctx

def launch (owner : LookupHandle) : List Start → Mdns I QS AN EV LK → LookupCtx I →
    Mdns I QS AN EV LK × LookupCtx I × Bool
  | [], m, ctx => (m, ctx, false)
  | ⟨name, step⟩ :: rest, m, ctx =>
    match m.startSubqueryInWindow ctx (QuerySpec.new name step.qtype) with
    | (m, .ok (some sub)) =>
      let (m, ctx) := m.registerSubquery ctx owner sub step
      launch owner rest m ctx
    | (m, .ok none) => (m, ctx, true)
    | (m, .error _) => launch owner rest m ctx

/-- The turn of a lookup up to its answers and its launches; `true` while its window is open. -/
def advanceOpen (order : HashOrder) (handle : LookupHandle) (m : Mdns I QS AN EV LK)
    (ctx : LookupCtx I) : Mdns I QS AN EV LK × LookupCtx I × Bool :=
  let (now, m) := m.now
  if ctx.isExpired now then (m, ctx, false)
  else
    let ctx := { ctx with
      subqueries := ctx.subqueries.retain fun sub _ => decide (sub ∈ m.queries) }
    let (m, ctx) := walk (order.handles ctx.subqueries.keys) m ctx
    match launch handle ctx.pending m { ctx with pending := [] } with
    | (m, ctx, true) => (m, ctx, false)
    | (m, ctx, false) =>
      let (now, m) := m.now
      (m, ctx, !ctx.isExpired now)

def tellReady (order : HashOrder) (handle : LookupHandle) (m : Mdns I QS AN EV LK)
    (ctx : LookupCtx I) : Mdns I QS AN EV LK × LookupCtx I :=
  let ctx := ctx.collectReady (order.keys ctx.partials.keys)
  ({ m with
      events := ctx.ready.foldl (fun events entry =>
        events.pushTerminal (.lookup handle entry)) m.events },
    { ctx with ready := [] })

/-- The body of the loop of `advance_lookups`; `true` where the lookup is finished. -/
def advanceOne (order : HashOrder) (handle : LookupHandle) (m : Mdns I QS AN EV LK)
    (ctx : LookupCtx I) : Mdns I QS AN EV LK × LookupCtx I × Bool :=
  match advanceOpen order handle m ctx with
  | (m, ctx, false) => (m, ctx, true)
  | (m, ctx, true) =>
    let (m, ctx) := tellReady order handle m ctx
    let (now, m) := m.now
    (m, ctx, ctx.isFinished now)

def insertLookup (m : Mdns I QS AN EV LK) (ctx : LookupCtx I) :
    Option (LookupHandle × Mdns I QS AN EV LK) :=
  let generation := m.lookups.nextGeneration
  (Pool.insert m.lookups.slab { ctx with generation := generation }).map fun (key, slab) =>
    (⟨key, generation⟩, { m with lookups := ⟨slab, generation + 1⟩ })

def getChecked (m : Mdns I QS AN EV LK) (handle : LookupHandle) : Option (LookupCtx I) :=
  (Pool.get m.lookups.slab handle.key).filter fun ctx =>
    decide (ctx.generation = handle.generation)

def removeChecked (m : Mdns I QS AN EV LK) (handle : LookupHandle) :
    Option (LookupCtx I × Mdns I QS AN EV LK) :=
  match m.getChecked handle with
  | none => none
  | some _ => (Pool.tryRemove m.lookups.slab handle.key).map fun (ctx, slab) =>
    (ctx, { m with lookups := { m.lookups with slab := slab } })

def setLookup (m : Mdns I QS AN EV LK) (key : Nat) (ctx : LookupCtx I) : Mdns I QS AN EV LK :=
  { m with lookups := { m.lookups with slab := Pool.update m.lookups.slab key fun _ => ctx } }

def cancelLookup (m : Mdns I QS AN EV LK) (handle : LookupHandle) : Mdns I QS AN EV LK :=
  match m.removeChecked handle with
  | none => m
  | some (ctx, m) => m.cancelSubqueries ctx

def startSubquery (m : Mdns I QS AN EV LK) (owner : LookupHandle) (spec : QuerySpec)
    (step : Step) : Mdns I QS AN EV LK × Except StartQueryError Unit :=
  match m.getChecked owner with
  | none => (m, .error .storageFull)
  | some ctx =>
    match m.startSubqueryInWindow ctx spec with
    | (m, .error e) => (m, .error e)
    | (m, .ok none) => (m, .ok ())
    | (m, .ok (some sub)) =>
      let (m, ctx) := m.registerSubquery ctx owner sub step
      (m.setLookup owner.key ctx, .ok ())

def launchAll (owner : LookupHandle) : List Start → Option StartQueryError →
    Mdns I QS AN EV LK → Mdns I QS AN EV LK × Option StartQueryError
  | [], firstErr, m => (m, firstErr)
  | ⟨name, step⟩ :: rest, firstErr, m =>
    match m.startSubquery owner (QuerySpec.new name step.qtype) step with
    | (m, .ok ()) => launchAll owner rest firstErr m
    | (m, .error e) => launchAll owner rest (firstErr.or (some e)) m

def launchPending (m : Mdns I QS AN EV LK) (owner : LookupHandle) :
    Mdns I QS AN EV LK × Except StartQueryError Unit :=
  match m.getChecked owner with
  | none => (m, .ok ())
  | some ctx =>
    match launchAll owner ctx.pending none (m.setLookup owner.key { ctx with pending := [] }) with
    | (m, none) => (m, .ok ())
    | (m, some e) => (m, .error e)

/-- The handle, where the first sub-queries could be started; else nothing is left of the lookup. -/
def orCancelled (owner : LookupHandle) :
    Mdns I QS AN EV LK × Except StartQueryError Unit →
      Mdns I QS AN EV LK × Except StartQueryError LookupHandle
  | (m, .ok ()) => (m, .ok owner)
  | (m, .error e) => (m.cancelLookup owner, .error e)

def browse (m : Mdns I QS AN EV LK) (param : QueryParam) :
    Mdns I QS AN EV LK × Except StartQueryError LookupHandle :=
  let spec := (QuerySpec.new param.service .ptr).withMaxAnswers param.maxEntries
  let (now, m) := m.now
  match m.insertLookup (LookupCtx.new param now) with
  | none => (m, .error .storageFull)
  | some (handle, m) => orCancelled handle (m.startSubquery handle spec .ptr)

def startSeeded (m : Mdns I QS AN EV LK) (ctx : LookupCtx I) :
    Mdns I QS AN EV LK × Except StartQueryError LookupHandle :=
  match m.insertLookup ctx with
  | none => (m, .error .storageFull)
  | some (handle, m) => orCancelled handle (m.launchPending handle)

def resolveHost (m : Mdns I QS AN EV LK) (host : Name) (timeout : Duration) :
    Mdns I QS AN EV LK × Except StartQueryError LookupHandle :=
  let param := ((QueryParam.new host).withTimeout timeout).withMaxEntries 1
  let (now, m) := m.now
  m.startSeeded ((LookupCtx.new param now).seedHost host)

def resolveInstance (m : Mdns I QS AN EV LK) (name : Name) (timeout : Duration) :
    Mdns I QS AN EV LK × Except StartQueryError LookupHandle :=
  let param := ((QueryParam.new name).withTimeout timeout).withMaxEntries 1
  let (now, m) := m.now
  m.startSeeded ((LookupCtx.new param now).onPtr name)

/-- The walk over the slots; the handles of the lookups that have finished come with it. -/
def advanceSlots (order : Nat → HashOrder) : List Nat → Mdns I QS AN EV LK → List LookupHandle →
    Mdns I QS AN EV LK × List LookupHandle
  | [], m, finished => (m, finished)
  | key :: rest, m, finished =>
    match Pool.get m.lookups.slab key with
    | none => advanceSlots order rest m finished
    | some ctx =>
      let handle : LookupHandle := ⟨key, ctx.generation⟩
      match advanceOne (order key) handle m ctx with
      | (m, ctx, true) => advanceSlots order rest (m.setLookup key ctx) (finished ++ [handle])
      | (m, ctx, false) => advanceSlots order rest (m.setLookup key ctx) finished

def retireLookup (m : Mdns I QS AN EV LK) (handle : LookupHandle) : Mdns I QS AN EV LK :=
  let m := m.cancelLookup handle
  { m with events := m.events.pushTerminal (.lookupDone handle) }

def advanceLookups (order : Nat → HashOrder) (m : Mdns I QS AN EV LK) : Mdns I QS AN EV LK :=
  let (m, finished) := advanceSlots order ((Pool.iter m.lookups.slab).map Prod.fst) m []
  finished.foldl retireLookup m

end Mdns
end Hick
