import Hick.Routing.Route

/-!
# What the routing of a datagram is to do

A scene is all that routing reads: the datagram and where it comes from, the services as routing
sees them, the queries, and what the endpoint gave up.
-/

namespace Hick
open Octets Wire Drain

structure Scene (I : Type) (AN EvQ : Type → Type) where
  src : SocketAddr
  reader : MessageReader
  now : I
  datagram : DatagramId
  admits : Admits
  table : List (Nat × RouteView)
  queries : List (Nat × Query I AN EvQ)
  history : Ref → RecordSection → ConflictHistory

section
variable {I : Type} {AN EvQ : Type → Type} [Instant I] [Pool AN] [Pool EvQ]

namespace Scene

def isResponse (sc : Scene I AN EvQ) : Bool := sc.reader.header.flags.isResponse

/-- A question is for a service by one of its names; where names are only defended, by a unique
name the datagram probes for. -/
def asked (sc : Scene I AN EvQ) (q : QuestionRef) (v : RouteView) : Option ServiceEvent :=
  if v.withdrawing then none
  else
    let reaches :=
      if sc.admits.answering = .all then (v.questionedUniqueName q).isSome || v.sharedNameMatch q
      else (v.questionedUniqueName q).any sc.reader.isProbeFor
    if reaches then some (.question
      { question := q
        src := sc.src
        queryId := sc.reader.header.id
        truncated := sc.reader.header.flags.isTruncated })
    else none

def contested (sc : Scene I AN EvQ) (sect : RecordSection) (r : Ref) (v : RouteView) :
    Option ServiceEvent :=
  if r.rclass = .in_ ∧ sc.admits.adjudication = true then
    conflictOf sc.src r .authoritativeResponse sc.datagram (sc.history r sect) v
  else none

def proposed (sc : Scene I AN EvQ) (r : Ref) (v : RouteView) : Option ServiceEvent :=
  if r.rclass = .in_ ∧ sc.history r .authority ≠ .relinquished then
    hostConflictOf r .tentativeProbe sc.datagram v
  else none

def answered (sc : Scene I AN EvQ) (r : Ref) (v : RouteView) : Option ServiceEvent :=
  if sc.isResponse then sc.contested .answer r v
  else if sc.admits.quieting then knownAnswerOf sc.src r v
  else none

def services (sc : Scene I AN EvQ) (event : RouteView → Option ServiceEvent) (start : Nat) :
    List RouteOutput :=
  (hits event start sc.table).map fun ke => .service ke.1 ke.2

def audience (sc : Scene I AN EvQ) (r : Ref) (start : Nat) : List RouteOutput :=
  if sc.isResponse && sc.admits.observation then
    (hits (heardBy sc.now r) start sc.queries).map fun kh => .toQuery kh.2 r
  else []

def positive (r : Ref) (outputs : List RouteOutput) : List RouteOutput :=
  if r.ttl = 0 then [] else outputs

def questionOutputs (sc : Scene I AN EvQ) (q : QuestionRef) : List RouteOutput :=
  sc.services (sc.asked q) 0

def answerOutputs (sc : Scene I AN EvQ) (r : Ref) : List RouteOutput :=
  positive r (sc.services (sc.answered r) 0 ++ sc.audience r 0)

def authorityOutputs (sc : Scene I AN EvQ) (r : Ref) : List RouteOutput :=
  positive r (sc.services (if sc.isResponse then sc.contested .authority r else sc.proposed r) 0)

def additionalOutputs (sc : Scene I AN EvQ) (r : Ref) : List RouteOutput :=
  positive r (sc.services (sc.contested .additional r) 0 ++ sc.audience r 0)

/-- The items of a section, up to the first that cannot be read, which is reported. -/
def walk {α : Type} (outputs : α → List RouteOutput) : List (Except ParseError α) →
    List RouteOutput
  | [] => []
  | .error e :: _ => [.failed e]
  | .ok a :: rest => outputs a ++ walk outputs rest

/-- Questions are read where they may be answered; where names are only defended, in a datagram
that may be a probe. -/
def readsQuestions (sc : Scene I AN EvQ) : Bool :=
  match sc.admits.answering with
  | .all => true
  | .defenceOnly =>
    !sc.isResponse && decide (0 < sc.reader.header.authorityCount) && sc.src.port == mdnsPort
  | .none => false

def readsAuthority (sc : Scene I AN EvQ) : Bool :=
  sc.src.port == mdnsPort && sc.admits.adjudication

def questionsPart (sc : Scene I AN EvQ) : List RouteOutput :=
  if sc.readsQuestions then walk sc.questionOutputs sc.reader.questions else []

def answersPart (sc : Scene I AN EvQ) : List RouteOutput :=
  walk sc.answerOutputs sc.reader.answers

def proposalsPart (sc : Scene I AN EvQ) : List RouteOutput :=
  if !sc.isResponse && sc.readsAuthority then
    sc.services (proposalOf sc.src sc.reader sc.datagram) 0
  else []

def authorityPart (sc : Scene I AN EvQ) : List RouteOutput :=
  if sc.readsAuthority then walk sc.authorityOutputs sc.reader.authority else []

def additionalPart (sc : Scene I AN EvQ) : List RouteOutput :=
  if sc.isResponse then walk sc.additionalOutputs sc.reader.additional else []

def routed (sc : Scene I AN EvQ) : List RouteOutput :=
  if sc.admits.allDenied then []
  else sc.questionsPart ++ sc.answersPart ++ sc.proposalsPart ++ sc.authorityPart ++
    sc.additionalPart

end Scene
end
end Hick
