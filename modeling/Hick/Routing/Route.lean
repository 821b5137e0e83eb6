import Hick.Endpoint.State
import Hick.Lib.Drain
import Hick.Query.State

/-!
# Routing a datagram (endpoint/route.rs, endpoint/admits.rs, endpoint/receive.rs:330-620)

The records of a datagram are routed by an iterator over its sections.
-/

namespace Hick
open Octets Wire Drain

/-! ### What a datagram is admitted to (admits.rs) -/

inductive Answering where
  | all
  | defenceOnly
  | none
  deriving DecidableEq, Repr

structure Admits where
  observation : Bool
  quieting : Bool
  adjudication : Bool
  answering : Answering
  deriving DecidableEq, Repr

def Admits.allDenied (a : Admits) : Bool :=
  !a.observation && !a.quieting && !a.adjudication && a.answering == .none

structure RouteView where
  serviceType : Name
  name : Name
  host : Name
  aAddrs : List Ipv4Addr
  aaaaAddrs : List Ipv6Addr
  subtypes : List Name
  withdrawing : Bool

def Route.view {I R : Type} {EV : Type → Type} (route : Route I R EV) : RouteView :=
  ⟨route.serviceType, route.name, route.host, route.aAddrs, route.aaaaAddrs, route.subtypes,
    route.withdrawing⟩

namespace RouteView

/-- `route_publishes_host_rtype` (matching.rs:423-434). -/
def publishesHostRtype (v : RouteView) (rt : ResourceType) : Bool :=
  match rt with
  | .a => !v.aAddrs.isEmpty
  | .aaaa => !v.aaaaAddrs.isEmpty
  | _ => false

def hostRole (v : RouteView) (r : Ref) : Bool :=
  namesMatchRecord v.host r && isHostConflictRtype r.rtype && v.publishesHostRtype r.rtype

def questionedUniqueName (v : RouteView) (q : QuestionRef) : Option Name :=
  if namesMatch v.name q.qname then some v.name
  else if namesMatch v.host q.qname then some v.host
  else none

def sharedNameMatch (v : RouteView) (q : QuestionRef) : Bool :=
  namesMatch v.serviceType q.qname || v.subtypes.any (fun s => namesMatch s q.qname) ||
    isMetaQueryName q.qname

end RouteView

/-! ### Probes (route.rs:339-426) -/

def proposesFor (questions : List (Except ParseError QuestionRef)) (name : Name) :
    List (Except ParseError Ref) → Bool
  | [] => false
  | .error _ :: _ => false
  | .ok r :: rest =>
    match ProposalScope.admits questions name r with
    | .ok .ours => true
    | .ok (.notOurs _) => proposesFor questions name rest
    | .error _ => false

def probesFor (questions : List (Except ParseError QuestionRef)) (name : Name) :
    List (Except ParseError Ref) → Bool
  | [] => false
  | .error _ :: _ => false
  | .ok r :: rest =>
    if !nameFullyDecodes r.name then probesFor questions name rest
    else
      match ProposalScope.admits questions name r with
      | .ok .ours => true
      | .error _ => true
      | .ok (.notOurs _) => probesFor questions name rest

namespace Wire.MessageReader

def authorityProposesFor (reader : MessageReader) (name : Name) : Bool :=
  proposesFor reader.questions name reader.authority

def isProbeFor (reader : MessageReader) (name : Name) : Bool :=
  probesFor reader.questions name reader.authority

end Wire.MessageReader

/-- What a record at the host name is to one service, in the QR=0 authority section. -/
def hostConflictOf (r : Ref) (origin : ConflictOrigin) (datagram : DatagramId) (v : RouteView) :
    Option ServiceEvent :=
  if v.withdrawing then none
  else if v.hostRole r then some (.hostConflict ⟨r, origin, datagram⟩)
  else none

/-- What a record is to one service: the host rule first, the instance rule second. -/
def conflictOf (src : SocketAddr) (r : Ref) (origin : ConflictOrigin) (datagram : DatagramId)
    (history : ConflictHistory) (v : RouteView) : Option ServiceEvent :=
  if v.withdrawing then none
  else if v.hostRole r then
    if history ≠ .relinquished then some (.hostConflict ⟨r, origin, datagram⟩)
    else if namesMatchRecord v.name r then
      some (.probeConflict ⟨src, r, datagram, history, .instanceAndHost⟩)
    else none
  else if namesMatchRecord v.name r then
    some (.probeConflict ⟨src, r, datagram, history, .instance_⟩)
  else none

def knownAnswerOf (src : SocketAddr) (r : Ref) (v : RouteView) : Option ServiceEvent :=
  if v.withdrawing then none
  else if namesMatchRecord v.name r || namesMatchRecord v.host r ||
      namesMatchRecord v.serviceType r || isMetaQueryName r.name then
    some (.knownAnswer ⟨src, r⟩)
  else none

def proposalOf (src : SocketAddr) (reader : MessageReader) (datagram : DatagramId)
    (v : RouteView) : Option ServiceEvent :=
  if v.withdrawing then none
  else if reader.authorityProposesFor v.name then some (.probeProposal ⟨src, reader, datagram⟩)
  else none

def heardBy {I : Type} {AN EvQ : Type → Type} [Instant I] [Pool AN] [Pool EvQ] (now : I) (r : Ref)
    (q : Query I AN EvQ) : Option QueryHandle :=
  if q.done || q.terminalEmitted || q.callerWindowShut now then none
  else if namesMatchRecord q.qname r && q.accepts r then some q.handle
  else none

/-! ### The iterator (route.rs:17-250) -/

inductive RecordSlot where
  | answer (idx : Nat)
  | authority (idx : Nat)
  | additional (idx : Nat)
  deriving DecidableEq

def RecordSlot.sect : RecordSlot → RecordSection
  | answer _ => .answer
  | authority _ => .authority
  | additional _ => .additional

inductive RouteSection where
  | questions
  | answers
  | authorityProposals
  | authority
  | additional
  | done
  deriving DecidableEq

inductive RouteOutput where
  | service (key : Nat) (event : ServiceEvent)
  | toQuery (handle : QueryHandle) (record : Ref)
  | failed (e : ParseError)

structure RouteEvents (I G R : Type) (SR QS EV AN EvQ : Type → Type) where
  src : SocketAddr
  endpoint : Endpoint I G R SR EV
  queries : QS (Query I AN EvQ)
  reader : MessageReader
  now : I
  isResponse : Bool
  datagram : DatagramId
  proposalServiceCursor : Option Nat
  questionIdx : Nat
  serviceCursor : Nat
  answerIdx : Nat
  authorityIdx : Nat
  answerQueryCursor : Option Nat
  answerServiceCursor : Option Nat
  answerServiceDone : Bool
  authorityServiceCursor : Option Nat
  additionalIdx : Nat
  additionalServiceCursor : Option Nat
  additionalServiceDone : Bool
  additionalQueryCursor : Option Nat
  admits : Admits
  sect : RouteSection
  relinquishedScreen : Option (RecordSlot × ConflictHistory)

section
variable {I G R : Type} {SR QS EV AN EvQ : Type → Type} [Instant I] [SeedSource G]
  [SeedableRng R] [Pool SR] [Pool QS] [Pool EV] [Pool AN] [Pool EvQ]

namespace Endpoint

def table (e : Endpoint I G R SR EV) : List (Nat × RouteView) :=
  e.routes.map fun kr => (kr.1, kr.2.view)

def relinquishedAsserts (e : Endpoint I G R SR EV) (r : Ref) (now : I) (family : Family)
    (sect : RecordSection) : Bool :=
  e.screen.relinquishedAsserts (e.withdrawals.map fun tw => (tw.2.records, tw.2.multicast)) r now
    family sect

end Endpoint

namespace RouteEvents

/-- The iterator that `handle` returns (receive.rs:578-620); `queries` have been offered the
records of the datagram. -/
def new (endpoint : Endpoint I G R SR EV) (queries : QS (Query I AN EvQ)) (src : SocketAddr)
    (reader : MessageReader) (now : I) (datagram : DatagramId) (admits : Admits) :
    RouteEvents I G R SR QS EV AN EvQ where
  src := src
  endpoint := endpoint
  queries := queries
  reader := reader
  now := now
  isResponse := reader.header.flags.isResponse
  datagram := datagram
  proposalServiceCursor := none
  questionIdx := 0
  serviceCursor := 0
  answerIdx := 0
  authorityIdx := 0
  answerQueryCursor := none
  answerServiceCursor := none
  answerServiceDone := false
  authorityServiceCursor := none
  additionalIdx := 0
  additionalServiceCursor := none
  additionalServiceDone := false
  additionalQueryCursor := none
  admits := admits
  sect := if admits.allDenied then .done else .questions
  relinquishedScreen := none

def relinquishedScreens (s : RouteEvents I G R SR QS EV AN EvQ) (r : Ref) (slot : RecordSlot) :
    ConflictHistory × RouteEvents I G R SR QS EV AN EvQ :=
  let fresh :=
    if s.endpoint.relinquishedAsserts r s.now (Family.of s.src) slot.sect then
      ConflictHistory.relinquished
    else ConflictHistory.unmatched
  match s.relinquishedScreen with
  | some (cached, answer) =>
    if cached = slot then (answer, s)
    else (fresh, { s with relinquishedScreen := some (slot, fresh) })
  | none => (fresh, { s with relinquishedScreen := some (slot, fresh) })

def dispatch (s : RouteEvents I G R SR QS EV AN EvQ) (key : Nat) (event : ServiceEvent) :
    RouteEvents I G R SR QS EV AN EvQ :=
  { s with endpoint := s.endpoint.dispatch key event s.now }

/-! ### Which service is next (route.rs:499-790, 899-972, 1096-1117, 1204-1224) -/

def questionLoop (reader : MessageReader) (q : QuestionRef) (defenceOnly : Bool) (cursor : Nat) :
    Option Bool → List (Nat × RouteView) → Option Nat
  | _, [] => none
  | isAProbe, (key, v) :: rest =>
    if key < cursor then questionLoop reader q defenceOnly cursor isAProbe rest
    else if v.withdrawing then questionLoop reader q defenceOnly cursor isAProbe rest
    else
      let (uniqueNameMatch, isAProbe) :=
        match v.questionedUniqueName q with
        | none => (false, isAProbe)
        | some name =>
          if !defenceOnly then (true, isAProbe)
          else
            match isAProbe with
            | some known => (known, isAProbe)
            | none => (reader.isProbeFor name, some (reader.isProbeFor name))
      if uniqueNameMatch || (!defenceOnly && v.sharedNameMatch q) then some key
      else questionLoop reader q defenceOnly cursor isAProbe rest

def nextHostConflict (s : RouteEvents I G R SR QS EV AN EvQ) (r : Ref) (start : Nat)
    (origin : ConflictOrigin) (slot : RecordSlot) :
    Option (Nat × ServiceEvent) × RouteEvents I G R SR QS EV AN EvQ :=
  if r.rclass ≠ .in_ then (none, s)
  else
    let (history, s) := s.relinquishedScreens r slot
    if history = .relinquished then (none, s)
    else (scan (hostConflictOf r origin s.datagram) start s.endpoint.table, s)

def nextServiceConflict (s : RouteEvents I G R SR QS EV AN EvQ) (r : Ref) (start : Nat)
    (origin : ConflictOrigin) (slot : RecordSlot) :
    Option (Nat × ServiceEvent) × RouteEvents I G R SR QS EV AN EvQ :=
  if r.rclass ≠ .in_ then (none, s)
  else
    let (history, s) := s.relinquishedScreens r slot
    (scan (conflictOf s.src r origin s.datagram history) start s.endpoint.table, s)

/-! ### One pass of the loop (route.rs:816-1446) -/

abbrev RouteMove (I G R : Type) (SR QS EV AN EvQ : Type → Type) :=
  Move (RouteEvents I G R SR QS EV AN EvQ) RouteOutput

def questionsStep (s : RouteEvents I G R SR QS EV AN EvQ) : RouteMove I G R SR QS EV AN EvQ :=
  let leave := { s with sect := .answers }
  if s.admits.answering = .none then .quiet leave
  else
    let defenceOnly := s.admits.answering == .defenceOnly
    let couldBeAProbe :=
      !s.isResponse && decide (0 < s.reader.header.authorityCount) && s.src.port == mdnsPort
    if defenceOnly && !couldBeAProbe then .quiet leave
    else if s.reader.header.questionCount.toNat ≤ s.questionIdx then .quiet leave
    else
      match s.reader.questions[s.questionIdx]? with
      | none => .quiet leave
      | some (.error e) => .yield_ (.failed e) leave
      | some (.ok q) =>
        match questionLoop s.reader q defenceOnly s.serviceCursor none s.endpoint.table with
        | some key =>
          let event := .question
            { question := q
              src := s.src
              queryId := s.reader.header.id
              truncated := s.reader.header.flags.isTruncated }
          .emit (.service key event) ({ s with serviceCursor := key + 1 }.dispatch key event)
        | none => .quiet { s with
            questionIdx := s.questionIdx + 1
            serviceCursor := 0 }

def nextAnswer (s : RouteEvents I G R SR QS EV AN EvQ) : RouteEvents I G R SR QS EV AN EvQ :=
  { s with
    answerIdx := s.answerIdx + 1
    answerServiceCursor := none
    answerServiceDone := false
    answerQueryCursor := none }

def nextAnswerService (s : RouteEvents I G R SR QS EV AN EvQ) (r : Ref) :
    Option (Nat × ServiceEvent) × RouteEvents I G R SR QS EV AN EvQ :=
  let start := s.answerServiceCursor.getD 0
  if s.isResponse then
    if s.admits.adjudication then
      s.nextServiceConflict r start .authoritativeResponse (.answer s.answerIdx)
    else (none, s)
  else if !s.admits.quieting then (none, s)
  else (scan (knownAnswerOf s.src r) start s.endpoint.table, s)

def answerQueriesStep (s : RouteEvents I G R SR QS EV AN EvQ) (r : Ref) :
    RouteMove I G R SR QS EV AN EvQ :=
  let s := { s with answerServiceDone := true }
  if s.isResponse && s.admits.observation then
    match scan (heardBy s.now r) (s.answerQueryCursor.getD 0) (Pool.iter s.queries) with
    | some (key, handle) =>
      .yield_ (.toQuery handle r) { s with answerQueryCursor := some (key + 1) }
    | none => .quiet s.nextAnswer
  else .quiet s.nextAnswer

def answersStep (s : RouteEvents I G R SR QS EV AN EvQ) : RouteMove I G R SR QS EV AN EvQ :=
  let leave := { s with sect := .authorityProposals }
  if s.reader.header.answerCount.toNat ≤ s.answerIdx then .quiet leave
  else
    match s.reader.answers[s.answerIdx]? with
    | none => .quiet leave
    | some (.error e) => .yield_ (.failed e) leave
    | some (.ok r) =>
      if r.ttl = 0 then .quiet s.nextAnswer
      else
        let (found, s) := if s.answerServiceDone then (none, s) else s.nextAnswerService r
        match found with
        | some (key, event) =>
          .emit (.service key event)
            ({ s with answerServiceCursor := some (key + 1) }.dispatch key event)
        | none => s.answerQueriesStep r

def proposalsStep (s : RouteEvents I G R SR QS EV AN EvQ) : RouteMove I G R SR QS EV AN EvQ :=
  let leave := { s with sect := .authority }
  if s.isResponse || s.src.port != mdnsPort then .quiet leave
  else if !s.admits.adjudication then .quiet leave
  else
    match scan (proposalOf s.src s.reader s.datagram) (s.proposalServiceCursor.getD 0)
        s.endpoint.table with
    | some (key, event) =>
      .emit (.service key event)
        ({ s with proposalServiceCursor := some (key + 1) }.dispatch key event)
    | none => .quiet leave

def nextAuthority (s : RouteEvents I G R SR QS EV AN EvQ) : RouteEvents I G R SR QS EV AN EvQ :=
  { s with
    authorityIdx := s.authorityIdx + 1
    authorityServiceCursor := none }

def authorityStep (s : RouteEvents I G R SR QS EV AN EvQ) : RouteMove I G R SR QS EV AN EvQ :=
  let leave := { s with sect := .additional }
  if s.src.port ≠ mdnsPort then .quiet leave
  else if !s.admits.adjudication then .quiet leave
  else if s.reader.header.authorityCount.toNat ≤ s.authorityIdx then .quiet leave
  else
    match s.reader.authority[s.authorityIdx]? with
    | none => .quiet leave
    | some (.error e) => .yield_ (.failed e) { s with sect := .done }
    | some (.ok r) =>
      if r.ttl = 0 then .quiet s.nextAuthority
      else
        let start := s.authorityServiceCursor.getD 0
        let slot := .authority s.authorityIdx
        let (found, s) :=
          if s.isResponse then s.nextServiceConflict r start .authoritativeResponse slot
          else s.nextHostConflict r start .tentativeProbe slot
        match found with
        | some (key, event) =>
          .emit (.service key event)
            ({ s with authorityServiceCursor := some (key + 1) }.dispatch key event)
        | none => .quiet s.nextAuthority

def nextAdditional (s : RouteEvents I G R SR QS EV AN EvQ) : RouteEvents I G R SR QS EV AN EvQ :=
  { s with
    additionalIdx := s.additionalIdx + 1
    additionalServiceCursor := none
    additionalServiceDone := false
    additionalQueryCursor := none }

def nextAdditionalService (s : RouteEvents I G R SR QS EV AN EvQ) (r : Ref) :
    Option (Nat × ServiceEvent) × RouteEvents I G R SR QS EV AN EvQ :=
  if s.admits.adjudication then
    s.nextServiceConflict r (s.additionalServiceCursor.getD 0) .authoritativeResponse
      (.additional s.additionalIdx)
  else (none, s)

def additionalQueriesStep (s : RouteEvents I G R SR QS EV AN EvQ) (r : Ref) :
    RouteMove I G R SR QS EV AN EvQ :=
  let s := { s with additionalServiceDone := true }
  if s.admits.observation then
    match scan (heardBy s.now r) (s.additionalQueryCursor.getD 0) (Pool.iter s.queries) with
    | some (key, handle) =>
      .yield_ (.toQuery handle r) { s with additionalQueryCursor := some (key + 1) }
    | none => .quiet s.nextAdditional
  else .quiet s.nextAdditional

def additionalStep (s : RouteEvents I G R SR QS EV AN EvQ) : RouteMove I G R SR QS EV AN EvQ :=
  let leave := { s with sect := .done }
  if !s.isResponse then .quiet leave
  else if s.reader.header.additionalCount.toNat ≤ s.additionalIdx then .quiet leave
  else
    match s.reader.additional[s.additionalIdx]? with
    | none => .quiet leave
    | some (.error e) => .yield_ (.failed e) leave
    | some (.ok r) =>
      if r.ttl = 0 then .quiet s.nextAdditional
      else
        let (found, s) := if s.additionalServiceDone then (none, s) else s.nextAdditionalService r
        match found with
        | some (key, event) =>
          .emit (.service key event)
            ({ s with additionalServiceCursor := some (key + 1) }.dispatch key event)
        | none => s.additionalQueriesStep r

def step (s : RouteEvents I G R SR QS EV AN EvQ) : RouteMove I G R SR QS EV AN EvQ :=
  match s.sect with
  | .questions => s.questionsStep
  | .answers => s.answersStep
  | .authorityProposals => s.proposalsStep
  | .authority => s.authorityStep
  | .additional => s.additionalStep
  | .done => .stop

end RouteEvents

/-! ### The eager pass (receive.rs:338-424) -/

def hearAll (now : I) (r : Ref) (queries : QS (Query I AN EvQ)) : QS (Query I AN EvQ) :=
  (Pool.iter queries).foldl (fun p kq => Pool.update p kq.1 fun q => q.hear now r) queries

def hearRecords (now : I) : List (Except ParseError Ref) → QS (Query I AN EvQ) →
    QS (Query I AN EvQ)
  | [], queries => queries
  | .error _ :: _, queries => queries
  | .ok r :: rest, queries => hearRecords now rest (hearAll now r queries)

def eagerPass (now : I) (reader : MessageReader) (admits : Admits)
    (queries : QS (Query I AN EvQ)) : QS (Query I AN EvQ) :=
  if admits.observation && reader.header.flags.isResponse then
    hearRecords now (reader.answers ++ reader.additional) queries
  else queries

def suppressQuestion (now : I) (question : QuestionRef) (queries : QS (Query I AN EvQ)) :
    QS (Query I AN EvQ) :=
  if question.unicastResponse || question.qclass != .in_ then queries
  else
    (Pool.iter queries).foldl
      (fun p kq => Pool.update p kq.1 fun q =>
        if q.done then q
        else if q.sameQuestion question then (q.noteDuplicateQuestion now).1
        else q)
      queries

def suppressQuestions (now : I) : List (Except ParseError QuestionRef) → QS (Query I AN EvQ) →
    QS (Query I AN EvQ)
  | [], queries => queries
  | .error _ :: _, queries => queries
  | .ok q :: rest, queries => suppressQuestions now rest (suppressQuestion now q queries)

/-- The queries as `handle` leaves them (receive.rs:338-576). -/
def handledQueries (now : I) (src : SocketAddr) (reader : MessageReader) (admits : Admits)
    (queries : QS (Query I AN EvQ)) : QS (Query I AN EvQ) :=
  let queries := eagerPass now reader admits queries
  if admits.quieting && !reader.header.flags.isResponse && src.port == mdnsPort &&
      reader.header.answerCount == 0 && !reader.header.flags.isTruncated then
    suppressQuestions now reader.questions queries
  else queries

def RouteEvents.handle (endpoint : Endpoint I G R SR EV) (queries : QS (Query I AN EvQ))
    (src : SocketAddr) (reader : MessageReader) (now : I) (datagram : DatagramId)
    (admits : Admits) : RouteEvents I G R SR QS EV AN EvQ :=
  RouteEvents.new endpoint (handledQueries now src reader admits queries) src reader now datagram
    admits

end
end Hick
