import Mathlib
import Hick.Endpoint.Relinquished
import Hick.Endpoint.Withdrawal
import Hick.Service.Events
import Hick.Service.Poll
import Hick.Service.Timeout

/-!
# The state of an endpoint (endpoint/mod.rs)

An endpoint owns its services, each behind a route that mirrors what the routing of datagrams
asks for, and the goodbyes of the names that were given up. `Routes` is the container the
services are kept in.
-/

namespace Hick
open Octets Wire Respond

structure Route (I R : Type) (EV : Type → Type) where
  proto : Service I R EV
  serviceType : Name
  name : Name
  host : Name
  handle : ServiceHandle
  aAddrs : List Ipv4Addr
  aaaaAddrs : List Ipv6Addr
  subtypes : List Name
  advertisedA : List Ipv4Addr
  advertisedAaaa : List Ipv6Addr
  withdrawing : Bool

structure EndpointConfig where
  probeUniqueNames : Bool
  reAnnounce : Bool
  relinquishedRetention : Duration
  deriving DecidableEq, Repr

structure Endpoint (I G R : Type) (SR EV : Type → Type) where
  config : EndpointConfig
  rng : G
  services : SR (Route I R EV)
  nextServiceHandle : UInt32
  flood : ConflictFlood I
  withdrawals : List (WithdrawalToken × WithdrawalItem I)
  nextWithdrawalToken : UInt64
  screen : Screen I

namespace Endpoint
variable {I G R : Type} {SR EV : Type → Type} [Instant I] [SeedSource G] [SeedableRng R]
  [Pool SR] [Pool EV]

def tryNew (config : EndpointConfig) (rng : G) : Endpoint I G R SR EV where
  config := config
  rng := (Rng.nextU32 rng).2
  services := Pool.new
  nextServiceHandle := 0
  flood := .new
  withdrawals := []
  nextWithdrawalToken := 0
  screen := .new

def routes (e : Endpoint I G R SR EV) : List (Nat × Route I R EV) := Pool.iter e.services

def route (e : Endpoint I G R SR EV) (key : Nat) : Option (Route I R EV) :=
  Pool.get e.services key

def serviceKey (e : Endpoint I G R SR EV) (handle : ServiceHandle) : Option Nat :=
  (e.routes.find? fun kr => kr.2.handle == handle).map (·.1)

def updateRoute (e : Endpoint I G R SR EV) (key : Nat) (f : Route I R EV → Route I R EV) :
    Endpoint I G R SR EV :=
  { e with services := Pool.update e.services key f }

/-! ### Registration (service.rs:89-372) -/

inductive RegisterServiceError where
  | nameAlreadyRegistered (name : Name)
  | hostAddressesDiffer (host : Name)
  | ttlTooSmall (ttl : UInt32)
  | serviceTypeIsRoot (name : Name)
  | serviceTypeNotParent (serviceType instance_ : Name)
  | storageFull

def rrsetDisagrees {α : Type} [BEq α] (theirs ours : List α) : Bool :=
  if theirs.isEmpty || ours.isEmpty then false
  else !(theirs.all (ours.contains ·) && ours.all (theirs.contains ·))

def hostAddressesDisagree (e : Endpoint I G R SR EV) (host : Name) (aAddrs : List Ipv4Addr)
    (aaaaAddrs : List Ipv6Addr) (exclude : Option Nat) : Bool :=
  e.routes.any fun (key, route) =>
    some key != exclude && !route.withdrawing && route.host.sameOwner host &&
      (rrsetDisagrees route.aAddrs aAddrs || rrsetDisagrees route.aaaaAddrs aaaaAddrs)

def nameTaken (e : Endpoint I G R SR EV) (name : Name) : Bool :=
  (e.routes.any fun kr => kr.2.name.sameOwner name) ||
    e.withdrawals.any fun tw => tw.2.holds && tw.2.records.instanceName.sameOwner name

def registerChecks (e : Endpoint I G R SR EV) (records : ServiceRecords) :
    Except RegisterServiceError Unit :=
  if records.ttlSecs < minServiceTtlSecs then .error (.ttlTooSmall records.ttlSecs)
  else if records.serviceType.text = [] then .error (.serviceTypeIsRoot records.instanceName)
  else if !records.serviceType.isParentOf records.instanceName then
    .error (.serviceTypeNotParent records.serviceType records.instanceName)
  else if e.nameTaken records.instanceName then
    .error (.nameAlreadyRegistered records.instanceName)
  else if e.hostAddressesDisagree records.host records.aAddrs records.aaaaAddrs none then
    .error (.hostAddressesDiffer records.host)
  else .ok ()

def newRoute (e : Endpoint I G R SR EV) (records : ServiceRecords) (now : I) (seed : Bytes) :
    Route I R EV where
  proto := Service.tryNew records now seed e.config.probeUniqueNames e.config.reAnnounce e.flood
  serviceType := records.serviceType
  name := records.instanceName
  host := records.host
  handle := ⟨e.nextServiceHandle⟩
  aAddrs := records.aAddrs
  aaaaAddrs := records.aaaaAddrs
  subtypes := records.subtypes
  advertisedA := []
  advertisedAaaa := []
  withdrawing := false

def tryRegisterService (e : Endpoint I G R SR EV) (records : ServiceRecords) (now : I) :
    Endpoint I G R SR EV × Except RegisterServiceError ServiceHandle :=
  match e.registerChecks records with
  | .error err => (e, .error err)
  | .ok () =>
    let (seed, rng) := SeedSource.fillBytes e.rng 32
    let route := e.newRoute records now seed
    let e := { e with
      rng := rng
      nextServiceHandle := saturatingSucc32 e.nextServiceHandle }
    match Pool.insert e.services route with
    | none => (e, .error .storageFull)
    | some (_, services) => ({ e with services := services }, .ok route.handle)

/-! ### Goodbyes (withdrawal.rs:20-246) -/

def mintWithdrawalToken (e : Endpoint I G R SR EV) : Endpoint I G R SR EV × WithdrawalToken :=
  ({ e with
    nextWithdrawalToken :=
      if e.nextWithdrawalToken = 18446744073709551615 then e.nextWithdrawalToken
      else e.nextWithdrawalToken + 1 }, ⟨e.nextWithdrawalToken⟩)

def retainRelinquished (e : Endpoint I G R SR EV) (records : ServiceRecords)
    (emitted : PerFamily EmittedRecords) (now : I) : Endpoint I G R SR EV :=
  { e with screen := e.screen.retain e.config.relinquishedRetention records emitted now }

def enqueueWithdrawal (e : Endpoint I G R SR EV) (item : WithdrawalItem I) :
    Endpoint I G R SR EV :=
  let (e, token) := e.mintWithdrawalToken
  { e with withdrawals := e.withdrawals ++ [(token, item)] }

def enqueueRenameWithdrawal (e : Endpoint I G R SR EV) (handoff : RenameGoodbyeHandoff) (now : I)
    (holdsName : Bool) (leftBy : ServiceHandle) : Endpoint I G R SR EV :=
  let e := e.retainRelinquished handoff.records handoff.multicast now
  let owed := owedPerFamily handoff.owned
  if owed = .both 0 then e
  else e.enqueueWithdrawal
    { records := handoff.records
      owned := handoff.owned
      multicast := handoff.multicast
      owed := owed
      nextAt := now
      ceilingAt := (checkedAddDuration now withdrawalCeiling).getD now
      finalAttempt := false
      route := none
      holdsName := holdsName
      leftBy := leftBy }

def drainRenameGoodbye (e : Endpoint I G R SR EV) (key : Nat) (now : I) : Endpoint I G R SR EV :=
  match e.route key with
  | none => e
  | some route =>
    match route.proto.renameGoodbyeHandoff with
    | none => e
    | some handoff =>
      let e := e.updateRoute key fun route =>
        { route with proto := route.proto.takeRenameGoodbyeHandoff.1 }
      e.enqueueRenameWithdrawal handoff now (route.name.sameOwner handoff.records.instanceName)
        route.handle

def beginWithdrawal (e : Endpoint I G R SR EV) (handle : ServiceHandle)
    (snapshot : WithdrawalSnapshot) (now : I) : Endpoint I G R SR EV :=
  match e.serviceKey handle with
  | none => e
  | some key =>
    if e.withdrawals.any fun tw => tw.2.route == some handle then e
    else
      let e := e.updateRoute key fun route =>
        { route with
          proto := route.proto.quiesceForWithdrawal
          withdrawing := true }
      e.enqueueWithdrawal
        { records := snapshot.records
          owned := snapshot.owned
          multicast := snapshot.multicast
          owed := owedPerFamily snapshot.owned
          nextAt := now
          ceilingAt := (checkedAddDuration now withdrawalCeiling).getD now
          finalAttempt := false
          route := some handle
          holdsName := false
          leftBy := handle }

/-! ### Driving a service (service.rs:441-953) -/

def namesInUse (e : Endpoint I G R SR EV) (except_ : Nat) : NamesInUse :=
  ⟨(e.routes.filter fun kr => kr.1 != except_).map (·.2.name) ++
    (e.withdrawals.filter fun tw => tw.2.holds).map (·.2.records.instanceName)⟩

def renameScratch (e : Endpoint I G R SR EV) (key : Nat) (route : Route I R EV) : NamesInUse :=
  if route.proto.renameImminent then e.namesInUse key else ⟨[]⟩

def Route.mirrorName (route : Route I R EV) : Route I R EV :=
  if route.name.sameOwner route.proto.records.instanceName then route
  else { route with name := route.proto.records.instanceName }

def handleServiceTimeout (e : Endpoint I G R SR EV) (handle : ServiceHandle) (now : I) :
    Endpoint I G R SR EV × Except HandleTimeoutError Unit :=
  match e.serviceKey handle with
  | none => (e, .ok ())
  | some key =>
    match e.route key with
    | none => (e, .ok ())
    | some route =>
      if route.withdrawing then (e, .ok ())
      else
        let (proto, outcome) :=
          route.proto.handleTimeout now e.flood (e.renameScratch key route)
        let e := e.updateRoute key fun route => Route.mirrorName { route with proto := proto }
        (e.drainRenameGoodbye key now, outcome)

def pollServiceTransmit (e : Endpoint I G R SR EV) (handle : ServiceHandle) (now : I)
    (buf : Bytes) : Endpoint I G R SR EV × Except TransmitError (Option Sent) :=
  match e.serviceKey handle with
  | none => (e, .ok none)
  | some key =>
    match e.route key with
    | none => (e, .ok none)
    | some route =>
      if route.withdrawing then (e, .ok none)
      else
        let (proto, sent) := (route.proto.deferFirstProbeUnderFlood now e.flood).pollTransmit now buf
        (e.updateRoute key fun route => { route with proto := proto }, sent)

def pollService (e : Endpoint I G R SR EV) (handle : ServiceHandle) :
    Endpoint I G R SR EV × Option ServiceUpdate :=
  match e.serviceKey handle with
  | none => (e, none)
  | some key =>
    match e.route key with
    | none => (e, none)
    | some route =>
      let (proto, update) := route.proto.poll
      (e.updateRoute key fun route => { route with proto := proto }, update)

def Route.mirrorAddrs (route : Route I R EV) : Route I R EV :=
  { route with
    advertisedA := route.proto.goodbye.all.a.map (·.1)
    advertisedAaaa := route.proto.goodbye.all.aaaa.map (·.1) }

def reclaimDetachedGoodbyes (e : Endpoint I G R SR EV) (handle : ServiceHandle) (name : Name) :
    Endpoint I G R SR EV :=
  if !e.withdrawals.any fun tw => tw.2.reclaimableFor name then e
  else
    match e.routes.find? fun kr => kr.2.handle == handle with
    | none => e
    | some (_, route) =>
      { e with
        withdrawals := e.withdrawals.filterMap fun (token, item) =>
          (item.reclaim name route.serviceType route.subtypes).map fun item => (token, item) }

def noteServiceTransmitOutcome (e : Endpoint I G R SR EV) (handle : ServiceHandle) (now : I)
    (v4 v6 : FamilyAttempt I) : Endpoint I G R SR EV × TransmitConfirm :=
  match e.serviceKey handle with
  | none => (e, .nothing)
  | some key =>
    match e.route key with
    | none => (e, .nothing)
    | some route =>
      let (proto, confirm) := route.proto.noteTransmitOutcome now v4 v6
      let e := e.updateRoute key fun route => Route.mirrorAddrs { route with proto := proto }
      let e := if proto.fullyAnnounced then e.reclaimDetachedGoodbyes handle route.name else e
      (e.drainRenameGoodbye key now, confirm)

def unregisterService (e : Endpoint I G R SR EV) (handle : ServiceHandle) (now : I) :
    Endpoint I G R SR EV :=
  match e.serviceKey handle with
  | none => e
  | some key =>
    let e := e.drainRenameGoodbye key now
    match e.route key with
    | none => e
    | some route => e.beginWithdrawal handle route.proto.withdrawalSnapshot now

def forceRemoveService (e : Endpoint I G R SR EV) (handle : ServiceHandle) (now : I) :
    Endpoint I G R SR EV × Bool :=
  match e.serviceKey handle with
  | none => (e, false)
  | some key =>
    let e := match e.route key with
      | some route =>
        let snapshot := route.proto.withdrawalSnapshot
        e.retainRelinquished snapshot.records snapshot.multicast now
      | none => e
    let (e, removed) := match Pool.tryRemove e.services key with
      | some (_, services) => ({ e with services := services }, true)
      | none => (e, false)
    let dropped := e.withdrawals.filter fun tw => tw.2.route == some handle
    let e := { e with withdrawals := e.withdrawals.filter fun tw => tw.2.route != some handle }
    (dropped.foldl (fun e tw => e.retainRelinquished tw.2.records tw.2.multicast now) e, removed)

def dispatch (e : Endpoint I G R SR EV) (key : Nat) (event : ServiceEvent) (now : I) :
    Endpoint I G R SR EV :=
  match e.route key with
  | none => e
  | some route =>
    let (proto, flood) := route.proto.handleEvent event now e.flood
    { (e.updateRoute key fun route => { route with proto := proto }) with flood := flood }

def handleTimeout (e : Endpoint I G R SR EV) (now : I) : Endpoint I G R SR EV :=
  { e with screen := e.screen.sweep now }

end Endpoint
end Hick
