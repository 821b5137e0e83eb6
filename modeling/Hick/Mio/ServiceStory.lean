import Hick.Lib.Since
import Hick.Driver.Contexts
import Hick.Driver.Goodbyes
import Hick.Driver.Producer
import Hick.Driver.Updates
import Hick.Mio.Driver

/-!
# The life of one service (hick-mio/src/driver.rs:1019-1560,
hick-mio/src/driver/withdrawal.rs:135-271, hick-mio/src/endpoint.rs:600-705, 896-913)

What may be done for a service, and in which order: it is driven while it is live; the caller is
told of its end once, when the driver gives it up; its goodbye is begun once; and its context is
dropped after that.
-/

/-!
## The driver and its services (hick-mio/src/driver.rs:480-560, 1019-1560,
hick-mio/src/driver/withdrawal.rs:135-271, hick-mio/src/endpoint.rs:600-705, 896-913)

The other side of the driver: a tick delivers what it has received to the services, fires their
timers, offers each its turn in the transmit queue, hands the caller what they have to tell, and
last sends the goodbyes that are due.
-/

namespace Hick
open Octets Wire Respond

namespace Mio

structure ServiceCtx (I : Type) where
  encodeFailures : Nat
  withdrawing : Bool
  goodbyeBegun : Bool
  txSeq : UInt64
  wireGate : FamilyWireGate I

namespace ServiceCtx
variable {I : Type}

def fresh (txSeq : UInt64) : ServiceCtx I := ⟨0, false, false, txSeq, .new⟩

def giveUp (ctx : ServiceCtx I) : ServiceCtx I := { ctx with withdrawing := true }

def retiring : Retiring (ServiceCtx I) where
  retired ctx := ctx.goodbyeBegun
  retire ctx := { ctx with
    withdrawing := true
    goodbyeBegun := true }
  retired_retire _ := rfl

end ServiceCtx

/-- What was done for the service of a handle: it was registered, its timer was run, it was polled,
a datagram of it was sent, the caller was told of it, the driver gave it up, its goodbye was begun,
the caller unregistered it, its context was dropped. -/
inductive ServiceMark where
  | registered (handle : ServiceHandle)
  | timed (handle : ServiceHandle)
  | polled (handle : ServiceHandle)
  | transmitted (handle : ServiceHandle)
  | queued (handle : ServiceHandle) (update : ServiceUpdate)
  | retired (handle : ServiceHandle)
  | begun (handle : ServiceHandle)
  | unregistered (handle : ServiceHandle)
  | dropped (handle : ServiceHandle)

/-- The side of the driver that its services are on. `marks` is ghost state: what was done for each
service, in order. -/
structure Services (I G R : Type) (SR EV : Type → Type) where
  hosted : Hosted (ServiceCtx I) I G R SR EV
  events : EventQueue
  txQueue : TxQueue
  shuttingDown : Bool
  marks : List ServiceMark

structure ServiceOrder where
  handles : List ServiceHandle → List ServiceHandle
  perm (l : List ServiceHandle) : (handles l).Perm l

structure ServiceTick (I : Type) where
  /-- When each datagram was processed, and what it delivers. -/
  datagrams : List (I × List (Nat × ServiceEvent))
  now : I
  sendBuf : Bytes
  /-- The queries with their places in the transmit queue, and what the turn of one spends. -/
  queries : List (UInt64 × QueryHandle)
  queryTurn : QueryHandle → Nat → Nat × Bool
  /-- What the sockets do with the `n`-th datagram of a service, and when the core is told. -/
  sockets : ServiceHandle → Nat → PerFamily (SocketFate I)
  notedAt : ServiceHandle → Nat → I
  begunAt : ServiceHandle → I
  /-- The one reading that the goodbyes are asked for and collected with. -/
  withdrawnAt : I
  goodbyes : GoodbyeInput I
  timerOrder : ServiceOrder
  txOrder : ServiceOrder
  updateOrder : ServiceOrder
  beginOrder : ServiceOrder

namespace Services
variable {I G R : Type} {SR EV : Type → Type} [Instant I] [SeedSource G] [SeedableRng R]
  [Pool SR] [Pool EV]

def new (config : EndpointConfig) (rng : G) : Services I G R SR EV :=
  ⟨⟨.tryNew config rng, ∅⟩, .new, .new, false, []⟩

def mark (s : Services I G R SR EV) (m : ServiceMark) : Services I G R SR EV :=
  { s with marks := s.marks ++ [m] }

def context (s : Services I G R SR EV) (handle : ServiceHandle) : Option (ServiceCtx I) :=
  s.hosted.services.lookup handle

def handles (s : Services I G R SR EV) : List ServiceHandle := s.hosted.services.keys

def withEndpoint (s : Services I G R SR EV) (endpoint : Endpoint I G R SR EV) :
    Services I G R SR EV := { s with hosted := { s.hosted with endpoint := endpoint } }

def updateCtx (s : Services I G R SR EV) (handle : ServiceHandle)
    (f : ServiceCtx I → ServiceCtx I) : Services I G R SR EV :=
  { s with hosted := { s.hosted with services := Assoc.modify f handle s.hosted.services } }

def queue (s : Services I G R SR EV) (handle : ServiceHandle) (update : ServiceUpdate) :
    Services I G R SR EV :=
  { s with events := s.events.pushTerminal (.service handle update) }.mark (.queued handle update)

def giveUp (s : Services I G R SR EV) (handle : ServiceHandle) : Services I G R SR EV :=
  (s.updateCtx handle .giveUp).mark (.retired handle)

def beginServiceWithdrawal (s : Services I G R SR EV) (handle : ServiceHandle) (now : I) :
    Services I G R SR EV :=
  match s.context handle with
  | some ctx =>
    if ctx.goodbyeBegun then s
    else
      { s with
        hosted := s.hosted.beginServiceWithdrawal ServiceCtx.retiring handle now }.mark
          (.begun handle)
  | none => s

inductive RegisterError where
  | shuttingDown
  | endpoint (err : Endpoint.RegisterServiceError)

def registerService (s : Services I G R SR EV) (records : ServiceRecords) (now : I) :
    Services I G R SR EV × Except RegisterError ServiceHandle :=
  if s.shuttingDown then (s, .error .shuttingDown)
  else
    let (txSeq, txQueue) := s.txQueue.join
    match s.hosted.registerService (.fresh txSeq) records now with
    | (hosted, .error err) => ({ s with hosted := hosted }, .error (.endpoint err))
    | (hosted, .ok handle) =>
      ({ s with
        hosted := hosted
        txQueue := txQueue }.mark (.registered handle), .ok handle)

def unregisterService (s : Services I G R SR EV) (handle : ServiceHandle) (now : I) :
    Services I G R SR EV :=
  match s.context handle with
  | some _ => (s.beginServiceWithdrawal handle now).mark (.unregistered handle)
  | none => s

def shutdown (s : Services I G R SR EV) (order : ServiceOrder) (now : ServiceHandle → I) :
    Services I G R SR EV :=
  let s := { s with shuttingDown := true }
  let scratch := (order.handles s.handles).filter fun handle =>
    (s.context handle).any fun ctx => !ctx.goodbyeBegun
  scratch.foldl (fun s handle => s.beginServiceWithdrawal handle (now handle)) s

def isIdle (s : Services I G R SR EV) : Bool := s.hosted.endpoint.withdrawals.isEmpty

def nextEvent (s : Services I G R SR EV) : Option Event × Services I G R SR EV :=
  let (event, events) := s.events.pop
  (event, { s with events := events })

def receive (s : Services I G R SR EV) (datagram : I × List (Nat × ServiceEvent)) :
    Services I G R SR EV :=
  let deliver (endpoint : Endpoint I G R SR EV) (d : Nat × ServiceEvent) :=
    endpoint.dispatch d.1 d.2 datagram.1
  s.withEndpoint (datagram.2.foldl deliver s.hosted.endpoint)

def fireTimeout (now : I) (s : Services I G R SR EV) (handle : ServiceHandle) :
    Services I G R SR EV :=
  match s.context handle with
  | some ctx =>
    if ctx.withdrawing then s
    else
      (s.withEndpoint (s.hosted.endpoint.handleServiceTimeout handle now).1).mark (.timed handle)
  | none => s

def fireTimeouts (t : ServiceTick I) (s : Services I G R SR EV) : Services I G R SR EV :=
  (t.timerOrder.handles s.handles).foldl (fireTimeout t.now)
    (s.withEndpoint (s.hosted.endpoint.handleTimeout t.now))

def retireService (s : Services I G R SR EV) (handle : ServiceHandle) : Services I G R SR EV :=
  (s.queue handle .conflict).giveUp handle

/-- The fan-out of one datagram, under the gate of the service (`send_and_credit`). -/
def sendDatagram (s : Services I G R SR EV) (handle : ServiceHandle) (sent : Sent)
    (fates : PerFamily (SocketFate I)) :
    Services I G R SR EV × FamilyAttempt I × FamilyAttempt I :=
  let gate := ((s.context handle).map ServiceCtx.wireGate).getD FamilyWireGate.new
  let report := gate.sendTo sent.transmit fates
  ((s.updateCtx handle fun ctx =>
      { ctx with wireGate := gate.note report sent.transmit.minFamilyGap }).mark
        (.transmitted handle),
    report.v4.attempt, report.v6.attempt)

def offerDatagram (s : Services I G R SR EV) (handle : ServiceHandle) (sent : Sent)
    (fates : PerFamily (SocketFate I)) (notedAt : I) : Services I G R SR EV × TransmitConfirm :=
  let (s, v4, v6) := s.sendDatagram handle sent fates
  let (endpoint, confirm) := s.hosted.endpoint.noteServiceTransmitOutcome handle notedAt v4 v6
  (s.withEndpoint endpoint, confirm)

def answered (s : Services I G R SR EV) (handle : ServiceHandle) : Services I G R SR EV :=
  s.updateCtx handle fun ctx => { ctx with encodeFailures := 0 }

/-- An encode error; so many in a row give the service up, and `true` says that they have not. -/
def failed (s : Services I G R SR EV) (handle : ServiceHandle) : Services I G R SR EV × Bool :=
  let s := s.updateCtx handle fun ctx => { ctx with encodeFailures := ctx.encodeFailures + 1 }
  if (s.context handle).any fun ctx => decide (maxConsecutiveEncodeErrors ≤ ctx.encodeFailures) then
    (s.retireService handle, false)
  else (s, true)

/-- The loop of a service's turn, with what is left of its quantum and the number of its datagrams
so far; the last two components are what it spent and whether it was cut off. -/
def serviceTurn (t : ServiceTick I) (handle : ServiceHandle) :
    Nat → Nat → Services I G R SR EV → Services I G R SR EV × Nat × Bool
  | 0, spent, s => (s, spent, true)
  | left + 1, spent, s =>
    match s.hosted.endpoint.pollServiceTransmit handle t.now t.sendBuf with
    | (endpoint, .ok none) =>
      (((s.withEndpoint endpoint).mark (.polled handle)).answered handle, spent, false)
    | (endpoint, .error _) =>
      let (s, capped) := ((s.withEndpoint endpoint).mark (.polled handle)).failed handle
      (s, spent, capped)
    | (endpoint, .ok (some sent)) =>
      let s := ((s.withEndpoint endpoint).mark (.polled handle)).answered handle
      let (s, confirm) := s.offerDatagram handle sent (t.sockets handle spent)
        (t.notedAt handle spent)
      if confirm.retireProducer then (s.retireService handle, spent + 1, false)
      else serviceTurn t handle left (spent + 1) s

def drainVisit (t : ServiceTick I) (s : Services I G R SR EV) (slot : TxSlot) (quantum : Nat)
    (nextSeq : UInt64) : Services I G R SR EV × Nat × Bool :=
  match slot with
  | .service handle =>
    match s.context handle with
    | none => (s, 0, false)
    | some ctx =>
      let s := s.updateCtx handle fun ctx => { ctx with txSeq := nextSeq }
      if ctx.withdrawing then (s, 0, false) else serviceTurn t handle quantum 0 s
  | .query handle =>
    let (spent, capped) := t.queryTurn handle quantum
    (s, spent, capped)

def txScratch (t : ServiceTick I) (s : Services I G R SR EV) : List (UInt64 × TxSlot) :=
  ((t.txOrder.handles s.handles).map fun handle =>
    (((s.context handle).map ServiceCtx.txSeq).getD 0, .service handle)) ++
    t.queries.map fun entry => (entry.1, .query entry.2)

def drainTransmits (t : ServiceTick I) (s : Services I G R SR EV) : Services I G R SR EV :=
  let scratch := txScratch t s
  if scratch.isEmpty then s
  else
    let (s, txQueue, _) := s.txQueue.serve scratch maxSendCreditsPerDrain (drainVisit t) s
    { s with txQueue := txQueue }

def updateFrom (handle : ServiceHandle) :
    Nat → Services I G R SR EV → Services I G R SR EV
  | 0, s => s
  | fuel + 1, s =>
    match s.hosted.endpoint.pollService handle with
    | (endpoint, none) => (s.withEndpoint endpoint).mark (.polled handle)
    | (endpoint, some update) =>
      let s := ((s.withEndpoint endpoint).mark (.polled handle)).queue handle update
      if update.isTerminal then s.giveUp handle else updateFrom handle fuel s

def updateService (s : Services I G R SR EV) (handle : ServiceHandle) : Services I G R SR EV :=
  match s.context handle with
  | some ctx =>
    if ctx.withdrawing then s
    else updateFrom handle (s.hosted.endpoint.pendingUpdates handle + 1) s
  | none => s

def pushUpdates (t : ServiceTick I) (s : Services I G R SR EV) : Services I G R SR EV :=
  (t.updateOrder.handles s.handles).foldl updateService s

def dropContext (s : Services I G R SR EV) (handle : ServiceHandle) : Services I G R SR EV :=
  match s.context handle with
  | some _ =>
    { s with hosted := { s.hosted with services := s.hosted.services.erase handle } }.mark
      (.dropped handle)
  | none => s

def drainCompleted (s : Services I G R SR EV) (now : I) : Services I G R SR EV :=
  let (endpoint, completed) := s.hosted.endpoint.drainCompletedWithdrawals now
  completed.reverse.foldl dropContext (s.withEndpoint endpoint)

def unlimited : PumpBudget I Unit := ⟨fun _ _ => true, fun _ _ _ => ()⟩

def drainWithdrawals (t : ServiceTick I) (s : Services I G R SR EV) :
    Option (Services I G R SR EV) :=
  let scratch := (t.beginOrder.handles s.handles).filter fun handle =>
    (s.context handle).any fun ctx => ctx.withdrawing && !ctx.goodbyeBegun
  let s := scratch.foldl (fun s handle => s.beginServiceWithdrawal handle (t.begunAt handle)) s
  let goodbyes := { t.goodbyes with now := fun _ => t.withdrawnAt }
  (goodbyes.pump unlimited () s.hosted.endpoint).map fun pumped =>
    (s.withEndpoint pumped.endpoint).drainCompleted t.withdrawnAt

def tick (t : ServiceTick I) (s : Services I G R SR EV) : Option (Services I G R SR EV) :=
  let s := t.datagrams.foldl receive s
  let s := s.fireTimeouts t
  let s := s.drainTransmits t
  let s := s.pushUpdates t
  s.drainWithdrawals t

end Services
end Mio
end Hick

/-! ## The life of one service -/

namespace Hick
open Since

namespace Mio

namespace ServiceMark

def handle : ServiceMark → ServiceHandle
  | registered h | timed h | polled h | transmitted h | queued h _ | retired h | begun h
  | unregistered h | dropped h => h

/-- The timer of the service is run, it is polled, a datagram of it is sent, or the caller is told
of it. -/
def Drives (h : ServiceHandle) (m : ServiceMark) : Prop :=
  m = .timed h ∨ m = .polled h ∨ m = .transmitted h ∨ ∃ update, m = .queued h update

def Ends (h : ServiceHandle) (m : ServiceMark) : Prop :=
  m = .retired h ∨ m = .begun h ∨ m = .unregistered h

def Terminal (h : ServiceHandle) (m : ServiceMark) : Prop :=
  ∃ update, update.isTerminal = true ∧ m = .queued h update

end ServiceMark

/-- How far the life of a service has come; `own` tells that the driver gave it up by itself. -/
inductive Phase where
  | unborn
  | live
  | told
  | retired
  | leaving (own : Bool)
  | gone (own : Bool)
  deriving DecidableEq

namespace Phase

def own : Phase → Bool
  | unborn | live | told => false
  | retired => true
  | leaving own | gone own => own

def heard : Phase → Bool
  | unborn | live => false
  | told | retired => true
  | leaving own | gone own => own

def begun : Phase → Bool
  | leaving _ | gone _ => true
  | _ => false

def ended : Phase → Bool
  | retired | leaving _ | gone _ => true
  | _ => false

/-- What may be done next for the service of a handle, and how far its life has then come. -/
inductive Moves (h : ServiceHandle) : Phase → ServiceMark → Phase → Prop
  | born : Moves h .unborn (.registered h) .live
  | reborn (own : Bool) : Moves h (.gone own) (.registered h) .live
  | timed : Moves h .live (.timed h) .live
  | polled : Moves h .live (.polled h) .live
  | transmitted : Moves h .live (.transmitted h) .live
  | updated (update : ServiceUpdate) (hu : update.isTerminal = false) :
    Moves h .live (.queued h update) .live
  | told (update : ServiceUpdate) (hu : update.isTerminal = true) :
    Moves h .live (.queued h update) .told
  | retired : Moves h .told (.retired h) .retired
  | quit : Moves h .live (.begun h) (.leaving false)
  | begun : Moves h .retired (.begun h) (.leaving true)
  | unregistered (own : Bool) : Moves h (.leaving own) (.unregistered h) (.leaving own)
  | dropped (own : Bool) : Moves h (.leaving own) (.dropped h) (.gone own)

end Phase

/-- The marks keep to the order for the service of a handle, and have brought it to a phase. -/
inductive Lived (h : ServiceHandle) : List ServiceMark → Phase → Prop
  | nothing : Lived h [] .unborn
  | other (marks : List ServiceMark) (p : Phase) (m : ServiceMark) (lived : Lived h marks p)
    (hm : m.handle ≠ h) : Lived h (marks ++ [m]) p
  | moved (marks : List ServiceMark) (p p' : Phase) (m : ServiceMark) (lived : Lived h marks p)
    (hm : p.Moves h m p') : Lived h (marks ++ [m]) p'

structure Tells (h : ServiceHandle) (marks : List ServiceMark) (p : Phase) : Prop where
  own : Open (· = .retired h) (· = .registered h) marks ↔ p.own = true
  heard : Open (ServiceMark.Terminal h) (· = .registered h) marks ↔ p.heard = true
  begun : Open (· = .begun h) (· = .registered h) marks ↔ p.begun = true
  ended : Open (ServiceMark.Ends h) (· = .registered h) marks ↔ p.ended = true
  alive : Open (· = .registered h) (· = .begun h) marks ↔
    p = .live ∨ p = .told ∨ p = .retired
  silent : Between (ServiceMark.Ends h) (· = .registered h) (ServiceMark.Drives h) marks
  once : Between (· = .begun h) (· = .registered h) (· = .begun h) marks
  toldOnce : Between (ServiceMark.Terminal h) (· = .registered h) (ServiceMark.Terminal h) marks
  dropped : Between (· = .registered h) (· = .begun h) (· = .dropped h) marks

namespace Tells
variable {h : ServiceHandle} {marks : List ServiceMark} {p : Phase}

theorem nothing (h : ServiceHandle) : Tells h [] .unborn where
  own := by simp [not_open_nil, Phase.own]
  heard := by simp [not_open_nil, Phase.heard]
  begun := by simp [not_open_nil, Phase.begun]
  ended := by simp [not_open_nil, Phase.ended]
  alive := by simp [not_open_nil]
  silent := between_nil _ _ _
  once := between_nil _ _ _
  toldOnce := between_nil _ _ _
  dropped := between_nil _ _ _

theorem other (t : Tells h marks p) (m : ServiceMark) (hm : m.handle ≠ h) :
    Tells h (marks ++ [m]) p := by
  have hne : ∀ m' : ServiceMark, m'.handle = h → m ≠ m' := by
    intro m' hm' heq
    exact hm (heq ▸ hm')
  have hterminal : ¬ ServiceMark.Terminal h m := fun ⟨update, _, heq⟩ => hne _ rfl heq
  have hends : ¬ ServiceMark.Ends h m := by
    simp only [ServiceMark.Ends, hne (.retired h) rfl, hne (.begun h) rfl,
      hne (.unregistered h) rfl, or_self, not_false_eq_true]
  have hdrives : ¬ ServiceMark.Drives h m := by
    simp only [ServiceMark.Drives, hne (.timed h) rfl, hne (.polled h) rfl,
      hne (.transmitted h) rfl, false_or]
    exact fun ⟨update, heq⟩ => hne _ rfl heq
  have hregistered := hne (.registered h) rfl
  have hbegun := hne (.begun h) rfl
  constructor
  · rw [open_snoc, ← t.own]
    simp only [hne (.retired h) rfl, hregistered, false_or, not_false_eq_true, and_true]
  · rw [open_snoc, ← t.heard]
    simp only [hterminal, hregistered, false_or, not_false_eq_true, and_true]
  · rw [open_snoc, ← t.begun]
    simp only [hbegun, hregistered, false_or, not_false_eq_true, and_true]
  · rw [open_snoc, ← t.ended]
    simp only [hends, hregistered, false_or, not_false_eq_true, and_true]
  · rw [open_snoc, ← t.alive]
    simp only [hbegun, hregistered, false_or, not_false_eq_true, and_true]
  · exact (between_snoc _ _ _ _ _).mpr ⟨t.silent, fun hd => absurd hd hdrives⟩
  · exact (between_snoc _ _ _ _ _).mpr ⟨t.once, fun hd => absurd hd hbegun⟩
  · exact (between_snoc _ _ _ _ _).mpr ⟨t.toldOnce, fun hd => absurd hd hterminal⟩
  · exact (between_snoc _ _ _ _ _).mpr ⟨t.dropped, fun hd => absurd hd (hne (.dropped h) rfl)⟩

theorem moved (t : Tells h marks p) (m : ServiceMark) (p' : Phase) (hm : p.Moves h m p') :
    Tells h (marks ++ [m]) p' := by
  constructor
  · rw [open_snoc, t.own]
    cases hm <;> simp [Phase.own]
  · rw [open_snoc, t.heard]
    cases hm <;> simp_all [Phase.heard, ServiceMark.Terminal]
  · rw [open_snoc, t.begun]
    cases hm <;> simp [Phase.begun]
  · rw [open_snoc, t.ended]
    cases hm <;> simp [Phase.ended, ServiceMark.Ends]
  · rw [open_snoc, t.alive]
    cases hm <;> simp
  · refine (between_snoc _ _ _ _ _).mpr ⟨t.silent, fun hd => ?_⟩
    rw [t.ended]
    cases hm <;> simp_all [Phase.ended, ServiceMark.Drives]
  · refine (between_snoc _ _ _ _ _).mpr ⟨t.once, fun hd => ?_⟩
    rw [t.begun]
    cases hm <;> simp_all [Phase.begun]
  · refine (between_snoc _ _ _ _ _).mpr ⟨t.toldOnce, fun hd => ?_⟩
    rw [t.heard]
    cases hm <;> simp_all [Phase.heard, ServiceMark.Terminal]
  · refine (between_snoc _ _ _ _ _).mpr ⟨t.dropped, fun hd => ?_⟩
    rw [t.alive]
    cases hm <;> simp_all

end Tells

theorem Lived.tells {h : ServiceHandle} {marks : List ServiceMark} {p : Phase}
    (lived : Lived h marks p) : Tells h marks p := by
  induction lived with
  | nothing => exact .nothing h
  | other marks p m _ hm ih => exact ih.other m hm
  | moved marks p p' m _ hm ih => exact ih.moved m p' hm

end Mio
end Hick
