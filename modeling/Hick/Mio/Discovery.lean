import Hick.Endpoint.Queries
import Hick.Lib.Assoc
import Hick.Mio.EventQueue

/-!
# What one lookup knows (hick-mio/src/discovery.rs)

A lookup asks for the instances of a service, for their SRV and TXT records and for the addresses of
their hosts, and keeps what it has heard of each instance until it is complete.
-/

namespace Hick
open Octets Wire

def QueryParam.defaultMaxEntries : Nat := 64
def maxAddrsPerHost : Nat := 16

/-! ### What a caller asks for (discovery.rs:100-190) -/

structure QueryParam where
  service : Name
  timeout : Duration
  maxEntries : Nat
  positive : 0 < maxEntries

namespace QueryParam

def new (service : Name) : QueryParam where
  service := service
  timeout := Duration.fromSecs 1
  maxEntries := defaultMaxEntries
  positive := by decide

def withTimeout (p : QueryParam) (timeout : Duration) : QueryParam := { p with timeout := timeout }

def withMaxEntries (p : QueryParam) (max : Nat) : QueryParam :=
  { p with
    maxEntries := if max = 0 then 1 else max
    positive := by split <;> omega }

end QueryParam

/-! ### Reading an answer (discovery.rs:1417-1491) -/

def fold (name : Name) : Bytes := name.text

/-- The label loop of `name_from_ref`: the text it builds, which is nothing where a label cannot be
part of a `Name`. -/
def labelText : List (Except ParseError Bytes) → Option Bytes
  | [] => some []
  | .error _ :: _ => none
  | .ok label :: rest =>
    if label.isEmpty then some []
    else if label.any fun b => decide (128 ≤ b.val) || b == dot then none
    else (labelText rest).map fun s => label ++ dot :: s

def nameFromRef (nr : NameRef) : Option Name :=
  match labelText nr.labels with
  | none => none
  | some s => if s.isEmpty then none else (Name.tryFromStr s).toOption

def parseName (rdata : Bytes) : Option Name :=
  (targetTryFromMessage rdata 0 rdata.length).toOption.bind nameFromRef

def parseSrv (rdata : Bytes) : Option (Name × UInt16) :=
  (Srv.tryFromMessage rdata 0 rdata.length).toOption.bind fun srv =>
    (nameFromRef srv.target).map fun host => (host, srv.port)

def parseTxt (rdata : Bytes) : List Bytes :=
  ((txtSegments (rdata.length + 1) rdata).takeWhile Except.isOk).filterMap Except.toOption

/-! ### An instance in the making (discovery.rs:280-406) -/

inductive Step where
  | ptr
  | srv (instKey : Bytes)
  | txt (instKey : Bytes)
  | a (hostKey : Bytes)
  | aaaa (hostKey : Bytes)
  deriving DecidableEq

def Step.qtype : Step → ResourceType
  | .ptr => .ptr
  | .srv _ => .srv
  | .txt _ => .txt
  | .a _ => .a
  | .aaaa _ => .aaaa

structure Start where
  name : Name
  step : Step
  deriving DecidableEq

def pushCapped {T : Type} [DecidableEq T] (v : List T) (item : T) : List T :=
  if maxAddrsPerHost ≤ v.length ∨ item ∈ v then v else v ++ [item]

structure PartialEntry where
  instance_ : Option Name
  host : Option Name
  hostKey : Option Bytes
  hasSrv : Bool
  port : UInt16
  ipv4 : List Ipv4Addr
  ipv6 : List Ipv6Addr
  txt : Option (List Bytes)
  emitted : Bool
  deriving DecidableEq

namespace PartialEntry

def default : PartialEntry := ⟨none, none, none, false, 0, [], [], none, false⟩

def new (name : Name) : PartialEntry := { default with instance_ := some name }

def setSrv (p : PartialEntry) (host : Name) (port : UInt16) : PartialEntry :=
  let key := fold host
  let p := if p.hostKey ≠ some key then { p with ipv4 := [], ipv6 := [] } else p
  { p with
    hasSrv := true
    hostKey := some key
    host := some host
    port := port }

def setTxt (p : PartialEntry) (segments : List Bytes) : PartialEntry :=
  { p with txt := some segments }

def addV4 (p : PartialEntry) (addr : Ipv4Addr) : PartialEntry :=
  { p with ipv4 := pushCapped p.ipv4 addr }

def addV6 (p : PartialEntry) (addr : Ipv6Addr) : PartialEntry :=
  { p with ipv6 := pushCapped p.ipv6 addr }

def takeComplete (p : PartialEntry) : PartialEntry × Option ServiceEntry :=
  if p.emitted || !p.hasSrv || p.txt.isNone then (p, none)
  else if p.ipv4.isEmpty && p.ipv6.isEmpty then (p, none)
  else
    match p.host with
    | none => (p, none)
    | some host =>
      ({ p with emitted := true }, some
        { instance_ := p.instance_.getD host
          host := host
          port := p.port
          ipv4 := p.ipv4
          ipv6 := p.ipv6
          txt := p.txt.getD [] })

end PartialEntry

structure HostAddrs where
  ipv4 : List Ipv4Addr
  ipv6 : List Ipv6Addr
  deriving DecidableEq

def HostAddrs.default : HostAddrs := ⟨[], []⟩

/-! ### A lookup (discovery.rs:408-760) -/

structure LookupCtx (I : Type) where
  generation : UInt64
  deadline : Option I
  timeout : Duration
  maxEntries : Nat
  emitted : Nat
  launched : Nat
  partials : Assoc Bytes PartialEntry
  hostAddrs : Assoc Bytes HostAddrs
  hostsQueried : Finset Bytes
  subqueries : Assoc QueryHandle Step
  pending : List Start
  ready : List ServiceEntry

namespace LookupCtx
variable {I : Type} [Instant I]

def new (param : QueryParam) (now : I) : LookupCtx I where
  generation := 0
  deadline := checkedAddDuration now param.timeout
  timeout := param.timeout
  maxEntries := param.maxEntries
  emitted := 0
  launched := 0
  partials := ∅
  hostAddrs := ∅
  hostsQueried := ∅
  subqueries := ∅
  pending := []
  ready := []

def askAddresses (ctx : LookupCtx I) (host : Name) : LookupCtx I :=
  { ctx with
    hostsQueried := insert (fold host) ctx.hostsQueried
    pending := ctx.pending ++ [⟨host, .a (fold host)⟩, ⟨host, .aaaa (fold host)⟩] }

def seedHost (ctx : LookupCtx I) (host : Name) : LookupCtx I :=
  let partial_ := (PartialEntry.default.setSrv host 0).setTxt []
  askAddresses { ctx with partials := ctx.partials.insert (fold host) partial_ } host

def onPtr (ctx : LookupCtx I) (name : Name) : LookupCtx I :=
  let key := fold name
  if key ∈ ctx.partials then ctx
  else if ctx.maxEntries ≤ ctx.partials.keys.length then ctx
  else { ctx with
    partials := ctx.partials.insert key (PartialEntry.new name)
    pending := ctx.pending ++ [⟨name, .srv key⟩, ⟨name, .txt key⟩] }

def adopt (host : Name) (port : UInt16) (cached : Option HostAddrs) (p : PartialEntry) :
    PartialEntry :=
  let p := p.setSrv host port
  match cached with
  | none => p
  | some cached => cached.ipv6.foldl PartialEntry.addV6 (cached.ipv4.foldl PartialEntry.addV4 p)

def onSrv (ctx : LookupCtx I) (instKey : Bytes) (host : Name) (port : UInt16) : LookupCtx I :=
  let hostKey := fold host
  let ctx := { ctx with
    partials := ctx.partials.modify (adopt host port (ctx.hostAddrs.lookup hostKey)) instKey }
  if hostKey ∈ ctx.hostsQueried then ctx
  else if ctx.maxEntries ≤ ctx.hostsQueried.card then ctx
  else ctx.askAddresses host

def onTxt (ctx : LookupCtx I) (instKey : Bytes) (segments : List Bytes) : LookupCtx I :=
  { ctx with partials := ctx.partials.modify (fun p => p.setTxt segments) instKey }

/-- `on_addr`, for either family: `cache` and `add` are its `push_capped` in the two places. -/
def onAddr (ctx : LookupCtx I) (hostKey : Bytes) (cache : HostAddrs → HostAddrs)
    (add : PartialEntry → PartialEntry) : LookupCtx I :=
  { ctx with
    hostAddrs := ctx.hostAddrs.insert hostKey
      (cache ((ctx.hostAddrs.lookup hostKey).getD HostAddrs.default))
    partials := ctx.partials.mapAll fun _ p => if p.hostKey = some hostKey then add p else p }

def onV4 (ctx : LookupCtx I) (hostKey : Bytes) (addr : Ipv4Addr) : LookupCtx I :=
  ctx.onAddr hostKey (fun h => { h with ipv4 := pushCapped h.ipv4 addr }) fun p => p.addV4 addr

def onV6 (ctx : LookupCtx I) (hostKey : Bytes) (addr : Ipv6Addr) : LookupCtx I :=
  ctx.onAddr hostKey (fun h => { h with ipv6 := pushCapped h.ipv6 addr }) fun p => p.addV6 addr

def feed (ctx : LookupCtx I) (step : Step) (answer : CollectedAnswer) : LookupCtx I :=
  match step with
  | .ptr =>
    if answer.rtype = .ptr then
      match parseName answer.rdata with
      | some name => ctx.onPtr name
      | none => ctx
    else ctx
  | .srv instKey =>
    if answer.rtype = .srv then
      match parseSrv answer.rdata with
      | some (host, port) => ctx.onSrv instKey host port
      | none => ctx
    else ctx
  | .txt instKey =>
    if answer.rtype = .txt then ctx.onTxt instKey (parseTxt answer.rdata) else ctx
  | .a hostKey =>
    if answer.rtype = .a then
      match aTryFromRdata answer.rdata with
      | .ok addr => ctx.onV4 hostKey addr
      | .error _ => ctx
    else ctx
  | .aaaa hostKey =>
    if answer.rtype = .aaaa then
      match aaaaTryFromRdata answer.rdata with
      | .ok addr => ctx.onV6 hostKey addr
      | .error _ => ctx
    else ctx

def collectReady : List Bytes → LookupCtx I → LookupCtx I
  | [], ctx => ctx
  | key :: rest, ctx =>
    match ctx.partials.lookup key with
    | none => collectReady rest ctx
    | some p =>
      match p.takeComplete with
      | (_, none) => collectReady rest ctx
      | (p, some entry) => collectReady rest
          { ctx with
            partials := ctx.partials.insert key p
            emitted := ctx.emitted + 1
            ready := ctx.ready ++ [entry] }

def isExpired (ctx : LookupCtx I) (now : I) : Bool :=
  ctx.deadline.any fun d => decide (d ≤ now)

def isFinished (ctx : LookupCtx I) (now : I) : Bool :=
  if ctx.maxEntries ≤ ctx.emitted then true
  else if ctx.isExpired now then true
  else decide (0 < ctx.launched) && ctx.subqueries.keys.isEmpty && ctx.pending.isEmpty

end LookupCtx
end Hick
