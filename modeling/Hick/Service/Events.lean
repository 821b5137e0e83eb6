import Mathlib
import Hick.Service.Proposal
import Hick.Service.State

/-!
# Events delivered to a service (service/mod.rs:2864-2958, 3629-3752, 3804-4510)

A record that contradicts ours is classified first: only rdata that differs from ours can be a
conflict.
-/

namespace Hick
open Octets Wire Respond

inductive PeerRdata where
  | invalid
  | unownedRrtype
  | identical
  | different
  deriving DecidableEq, Repr

def PeerRdata.fromIdentical (identical : Bool) : PeerRdata :=
  if identical then .identical else .different

def conflictReprobeMinInterval : Duration := Duration.fromSecs 1

def classifyHostRdata (records : ServiceRecords) (record : Ref) : PeerRdata :=
  match record.rdataView with
  | .ok (.a addr) =>
    if records.aAddrs.isEmpty then .unownedRrtype
    else PeerRdata.fromIdentical (records.aAddrs.contains addr)
  | .ok (.aaaa addr) =>
    if records.aaaaAddrs.isEmpty then .unownedRrtype
    else PeerRdata.fromIdentical (records.aaaaAddrs.contains addr)
  | .error _ => .invalid
  | .ok _ => .different

def classifyInstanceRdata (records : ServiceRecords) (record : Ref) : PeerRdata :=
  match record.canonicalRdataFolded with
  | .error _ => .invalid
  | .ok peerCanonical =>
    PeerRdata.fromIdentical
      ((canonicalRdataForms records record.rtype).any fun form => form == peerCanonical)

/-- The classification at the head of `handle_event` (mod.rs:3870-3892). -/
def classifyEvent (records : ServiceRecords) : ServiceEvent → PeerRdata
  | .probeConflict pc =>
    match pc.role with
    | .instanceAndHost => classifyHostRdata records pc.record
    | .instance_ => classifyInstanceRdata records pc.record
  | .hostConflict hc => classifyHostRdata records hc.record
  | _ => .different

def halfTtl (querierTtl ourTtl : UInt32) : Bool :=
  decide (ourTtl.toNat ≤ min (querierTtl.toNat * 2) 4294967295)

theorem halfTtl_iff (querierTtl ourTtl : UInt32) :
    halfTtl querierTtl ourTtl = true ↔ ourTtl.toNat ≤ querierTtl.toNat * 2 := by
  have hlt := ourTtl.toNat_lt
  rw [halfTtl, decide_eq_true_eq]
  omega

namespace Service
variable {I R : Type} {EV : Type → Type} [Instant I] [SeedableRng R] [Pool EV]

def handlePreauthoritativeConflict (s : Service I R EV) (pc : ProbeConflict) : Service I R EV :=
  if !s.probeOnWire then s
  else
    match pc.history with
    | .relinquished => { s with tiebreakLost := true }
    | .unmatched => { s with probeDefeated := true }

def handleProbeProposal (s : Service I R EV) (pp : ProbeProposal) : Service I R EV × Bool :=
  match adjudicate pp s.records with
  | .peerWins => ({ s with tiebreakLost := true }, true)
  | .weHold | .abandoned _ => (s, false)

/-- A conflict before the name is ours (mod.rs:3929-3941). -/
def contestProbed (s : Service I R EV) (pc : ProbeConflict) (now : I)
    (flood : ConflictFlood I) : Service I R EV × ConflictFlood I :=
  let (s, eligible) := s.floodEligible pc.datagram
  let flood := if eligible then (flood.accept now pc.datagram s.records.instanceName).1
    else flood
  (s.handlePreauthoritativeConflict pc, flood)

/-- A proposal before the name is ours (mod.rs:3946-3953). -/
def contestProposed (s : Service I R EV) (pp : ProbeProposal) (now : I)
    (flood : ConflictFlood I) : Service I R EV × ConflictFlood I :=
  let (s, lost) := s.handleProbeProposal pp
  (s, if lost then (flood.accept now pp.datagram s.records.instanceName).1 else flood)

def reprobedRecently (s : Service I R EV) (now : I) : Bool :=
  match s.lastConflictReprobe.bind (checkedDurationSince now) with
  | some elapsed => elapsed < conflictReprobeMinInterval
  | none => false

/-- A conflict with a name we publish: back to probing, at most once a second
(mod.rs:3954-4132). -/
def contestPublished (s : Service I R EV) (pc : ProbeConflict) (now : I)
    (flood : ConflictFlood I) : Service I R EV × ConflictFlood I :=
  if pc.role = .instance_ ∧ canonicalRdataForms s.records pc.record.rtype = [] then (s, flood)
  else
    match pc.record.canonicalRdataFolded with
    | .error _ => (s, flood)
    | .ok _ =>
      let flood := (flood.accept now pc.datagram s.records.instanceName).1
      if s.reprobedRecently now then (s, flood)
      else
        let (deadline, rng) := probeDeadline now 0 s.rng
        let s := { s with
          lastConflictReprobe := some now
          rng := rng }
        ((s.restartProbeCycle now deadline none flood).1, flood)

/-! ### Questions (mod.rs:4133-4285) -/

def responseJitter (s : Service I R EV) (truncated : Bool) : Duration × Service I R EV :=
  let (draw, rng) := Rng.nextU32 s.rng
  let ms := (if truncated then 400 else 20) + draw.toNat % 101
  (Duration.fromMillis ms, { s with rng := rng })

def sooner (existing : Option I) (due : I) : I :=
  match existing with
  | some e => if e ≤ due then e else due
  | none => due

/-- `if !srcs.contains(&src) && srcs.len() < MAX_QUESTIONER_SRCS { srcs.push(src) }`. -/
def noteSource (srcs : List SocketAddr) (src : SocketAddr) : List SocketAddr :=
  if !srcs.contains src && srcs.length < maxQuestionerSrcs then srcs ++ [src] else srcs

def handleMetaQuestion (s : Service I R EV) (sq : ServiceQuestion) (now : I) :
    Service I R EV :=
  if sq.src.port ≠ mdnsPort then
    if s.pendingLegacy.length < maxLegacyResponses then
      match Name.tryFromStr dnsSdMetaQueryName with
      | .error _ => s
      | .ok meta_ =>
        let dup := s.pendingLegacy.any fun l =>
          l.dst == sq.src && l.queryId == sq.queryId && l.isMeta
        if dup then s
        else { s with
          pendingLegacy := s.pendingLegacy ++
            [⟨sq.src, sq.queryId, meta_, sq.question.qtype, sq.question.qclass, true⟩] }
    else s
  else
    let s := { s with metaQuestionerSrcs := noteSource s.metaQuestionerSrcs sq.src }
    let (wait, s) := s.responseJitter sq.truncated
    match checkedAddDuration now wait with
    | some due => { s with metaResponseDeadline := some (sooner s.metaResponseDeadline due) }
    | none => s

def legacyEcho (records : ServiceRecords) (qname : NameRef) : Option Name :=
  if namesMatch records.serviceType qname then some records.serviceType
  else if namesMatch records.instanceName qname then some records.instanceName
  else if namesMatch records.host qname then some records.host
  else records.subtypes.find? fun s => namesMatch s qname

def handleLegacyQuestion (s : Service I R EV) (sq : ServiceQuestion) : Service I R EV :=
  if s.pendingLegacy.length < maxLegacyResponses then
    match legacyEcho s.records sq.question.qname with
    | none => s
    | some name =>
      let dup := s.pendingLegacy.any fun l =>
        l.dst == sq.src && l.queryId == sq.queryId && l.qtype == sq.question.qtype &&
          l.qclass == sq.question.qclass && l.name == name
      if dup then s
      else { s with
        pendingLegacy := s.pendingLegacy ++
          [⟨sq.src, sq.queryId, name, sq.question.qtype, sq.question.qclass, false⟩] }
  else s

def handleMulticastQuestion (s : Service I R EV) (sq : ServiceQuestion) (now : I) :
    Service I R EV :=
  let (wait, s) := s.responseJitter sq.truncated
  match checkedAddDuration now wait with
  | none => s
  | some due =>
    { s with
      responseDeadline := some (sooner s.responseDeadline due)
      questionerSrcs := noteSource s.questionerSrcs sq.src }

def handleQuestion (s : Service I R EV) (sq : ServiceQuestion) (now : I) : Service I R EV :=
  if isMetaQueryName sq.question.qname then s.handleMetaQuestion sq now
  else if sq.src.port ≠ mdnsPort then s.handleLegacyQuestion sq
  else s.handleMulticastQuestion sq now

/-! ### Known answers (mod.rs:4286-4415) -/

def answersMeta (s : Service I R EV) (ka : KnownAnswer) : Bool :=
  s.metaResponseDeadline.isSome && s.metaQuestionerSrcs.contains ka.src &&
    ka.record.rclass == .in_ && ka.record.rtype == .ptr &&
    halfTtl ka.record.ttl s.records.ttlSecs &&
    match ka.record.rdataView with
    | .ok (.ptr target) => namesMatch s.records.serviceType target
    | _ => false

def handleMetaKnownAnswer (s : Service I R EV) (ka : KnownAnswer) (now : I) :
    Service I R EV :=
  if s.answersMeta ka then
    match checkedAddDuration now (Duration.fromSecs ka.record.ttl.toNat) with
    | some expiresAt => { s with metaKnownAnswered := some expiresAt }
    | none => s
  else s

def kasHintOf (s : Service I R EV) (ka : KnownAnswer) (now : I) : Option (KasHint I) :=
  if s.responseDeadline.isNone || !s.questionerSrcs.contains ka.src ||
      ka.record.rclass != .in_ || !halfTtl ka.record.ttl s.records.ttlSecs then none
  else
    match checkedAddDuration now (Duration.fromSecs ka.record.ttl.toNat) with
    | none => none
    | some expiresAt =>
      match ka.record.canonicalRdataFolded with
      | .error _ => none
      | .ok canonical =>
        match emittedOwnerName s.records ka.record.rtype with
        | none => none
        | some owner =>
          if !namesMatchRecord owner ka.record then none
          else some ⟨ka.record.rtype, hashRdata canonical, expiresAt⟩

def handleKnownAnswer (s : Service I R EV) (ka : KnownAnswer) (now : I) : Service I R EV :=
  if isMetaQueryName ka.record.name then s.handleMetaKnownAnswer ka now
  else
    match s.kasHintOf ka now with
    | some hint => { s with kas := s.kas.store hint }
    | none => s

/-! ### Host conflicts (mod.rs:4416-4507) -/

def handleHostConflict (s : Service I R EV) (hc : HostConflict) (now : I)
    (flood : ConflictFlood I) : Service I R EV × ConflictFlood I :=
  if hc.origin ≠ .authoritativeResponse then (s, flood)
  else
    let (s, eligible) := s.floodEligible hc.datagram
    let flood := if eligible then (flood.accept now hc.datagram s.records.host).1 else flood
    (s.notify .hostConflict, flood)

/-- What every event does first: `last_now` and the datagram's flood eligibility
(mod.rs:3817-3834). -/
def receive (s : Service I R EV) (event : ServiceEvent) (now : I) : Service I R EV :=
  let s := { s with lastNow := some now }
  match event.datagram with
  | some datagram => (s.floodEligible datagram).1
  | none => s

/-- The match of `handle_event` on the state and the event (mod.rs:3923-4509). -/
def dispatchEvent (s : Service I R EV) (event : ServiceEvent) (now : I)
    (flood : ConflictFlood I) : Service I R EV × ConflictFlood I :=
  match event with
  | .probeConflict pc =>
    if s.isPreauthoritative then s.contestProbed pc now flood
    else if s.state.isPublished then s.contestPublished pc now flood
    else (s, flood)
  | .probeProposal pp =>
    if s.isPreauthoritative then s.contestProposed pp now flood else (s, flood)
  | .question sq => (if s.state.isPublished then s.handleQuestion sq now else s, flood)
  | .knownAnswer ka => (s.handleKnownAnswer ka now, flood)
  | .hostConflict hc => s.handleHostConflict hc now flood

def handleEvent (s : Service I R EV) (event : ServiceEvent) (now : I)
    (flood : ConflictFlood I) : Service I R EV × ConflictFlood I :=
  let s := s.receive event now
  match classifyEvent s.records event with
  | .identical | .invalid | .unownedRrtype => (s, flood)
  | .different => s.dispatchEvent event now flood

end Service
end Hick
