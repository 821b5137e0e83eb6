import Mathlib
import Hick.Service.Forms
import Hick.Service.State

/-!
# What an endpoint has given up (endpoint/relinquished.rs)

Record sets that left the endpoint are kept for a while, so that late echoes of them are not taken
for a peer's conflict.
-/

namespace Hick
open Octets Wire Respond

deriving instance DecidableEq for ServiceRecords

def maxRelinquishedRrsets : Nat := 128
def maxRelinquishedIdentities : Nat := 512

structure Relinquished (I : Type) where
  records : ServiceRecords
  emitted : PerFamily EmittedRecords
  expiresAt : I

structure Identity where
  owner : Name
  rtype : ResourceType
  rdata : Bytes
  deriving DecidableEq

structure RelinquishedIdentity (I : Type) where
  identity : Identity
  expiresAt : PerFamily (Option I)

/-- The two tiers: `relinquished` and `relinquished_identities` of the endpoint. -/
structure Screen (I : Type) where
  relinquished : List (Relinquished I)
  relinquishedIdentities : List (RelinquishedIdentity I)

def identities (records : ServiceRecords) (emitted : EmittedRecords) : List Identity :=
  emitted.a.map (fun ip => ⟨records.host, .a, ip.octets⟩) ++
    (emitted.aaaa.map (fun ip => ⟨records.host, .aaaa, ip.octets⟩) ++
      instanceCanonicalRtypes.flatMap fun rtype =>
        if instanceRtypeExposed emitted rtype then
          (transmittedRdataForms records rtype).map fun form => ⟨records.instanceName, rtype, form⟩
        else [])

/-- The record arrives as one of class IN in the section and with the cache-flush bit that the
encoders write for its type. -/
def arrivesAsWritten (r : Ref) (sect : RecordSection) : Bool :=
  r.rclass == .in_ && transmittedEnvelope r.rtype sect r.cacheFlush

def peerRdata (r : Ref) : Option Bytes := r.canonicalRdataFolded.toOption

def Identity.matches (i : Identity) (r : Ref) : Bool :=
  r.rtype == i.rtype && namesMatchRecord i.owner r && peerRdata r == some i.rdata

def assertsAddress (emitted : EmittedRecords) (r : Ref) : Bool :=
  match r.rdataView with
  | .ok (.a addr) => emitted.a.contains addr
  | .ok (.aaaa addr) => emitted.aaaa.contains addr
  | _ => false

def assertsInstance (records : ServiceRecords) (emitted : EmittedRecords) (r : Ref) : Bool :=
  if namesMatchRecord records.instanceName r && instanceRtypeExposed emitted r.rtype then
    match peerRdata r with
    | some peer => (transmittedRdataForms records r.rtype).any fun form => form == peer
    | none => false
  else false

def asserts (records : ServiceRecords) (emitted : PerFamily EmittedRecords) (r : Ref)
    (family : Family) (sect : RecordSection) : Bool :=
  if !arrivesAsWritten r sect then false
  else if namesMatchRecord records.host r && assertsAddress (family.pick emitted) r then true
  else assertsInstance records (family.pick emitted) r

def screensSomething (emitted : PerFamily EmittedRecords) : Bool :=
  let any (e : EmittedRecords) : Bool :=
    e.srv || e.txt || e.nsec || !e.a.isEmpty || !e.aaaa.isEmpty
  any emitted.v4 || any emitted.v6

namespace RelinquishedIdentity
variable {I : Type} [Instant I]

def expired (until_ : Option I) (now : I) : Bool :=
  match until_ with
  | some t => decide (t ≤ now)
  | none => true

/-- `identity_asserts` (relinquished.rs:303-317). -/
def asserts (e : RelinquishedIdentity I) (r : Ref) (now : I) (family : Family)
    (sect : RecordSection) : Bool :=
  !expired (family.pick e.expiresAt) now && arrivesAsWritten r sect && e.identity.matches r

/-- `identity_live` (relinquished.rs:327-332). -/
def live (e : RelinquishedIdentity I) (now : I) : Bool :=
  !expired e.expiresAt.v4 now || !expired e.expiresAt.v6 now

def same (e : RelinquishedIdentity I) (i : Identity) : Bool :=
  e.identity.rtype == i.rtype && e.identity.rdata == i.rdata && e.identity.owner.sameOwner i.owner

def extend (e : RelinquishedIdentity I) (on : PerFamily (Option I)) : RelinquishedIdentity I :=
  let later : Option I → Option I → Option I
    | some a, some b => some (max a b)
    | some a, none => some a
    | none, b => b
  { e with expiresAt := e.expiresAt.zipWith later on }

end RelinquishedIdentity

def updateFirst {α : Type} (p : α → Bool) (f : α → α) : List α → Option (List α)
  | [] => none
  | x :: xs => if p x then some (f x :: xs) else (updateFirst p f xs).map (x :: ·)

namespace Screen
variable {I : Type} [Instant I]

def new : Screen I := ⟨[], []⟩

def recordIdentity (ids : List (RelinquishedIdentity I)) (on : PerFamily (Option I))
    (i : Identity) : List (RelinquishedIdentity I) :=
  match updateFirst (fun e => e.same i) (fun e => e.extend on) ids with
  | some ids => ids
  | none => if maxRelinquishedIdentities ≤ ids.length then ids else ids ++ [⟨i, on⟩]

/-- `retain_relinquished_identities` (relinquished.rs:777-849). -/
def retainIdentities (s : Screen I) (records : ServiceRecords)
    (emitted : PerFamily EmittedRecords) (now expiresAt : I) : Screen I :=
  let live := s.relinquishedIdentities.filter fun e => e.live now
  let v4 := (identities records emitted.v4).foldl
    (fun ids i => recordIdentity ids ⟨some expiresAt, none⟩ i) live
  { s with
    relinquishedIdentities := (identities records emitted.v6).foldl
      (fun ids i => recordIdentity ids ⟨none, some expiresAt⟩ i) v4 }

/-- `retain_relinquished` (relinquished.rs:704-756). -/
def retain (s : Screen I) (retention : Duration) (records : ServiceRecords)
    (emitted : PerFamily EmittedRecords) (now : I) : Screen I :=
  if !screensSomething emitted then s
  else
    match checkedAddDuration now retention with
    | none => s
    | some expiresAt =>
      let s := { s with relinquished := s.relinquished.filter fun e => decide (now < e.expiresAt) }
      match updateFirst (fun e => e.records == records && e.emitted == emitted)
          (fun e => { e with expiresAt := max e.expiresAt expiresAt }) s.relinquished with
      | some rows => { s with relinquished := rows }
      | none =>
        if maxRelinquishedRrsets ≤ s.relinquished.length then
          s.retainIdentities records emitted now expiresAt
        else { s with relinquished := s.relinquished ++ [⟨records, emitted, expiresAt⟩] }

/-- `sweep_relinquished` (relinquished.rs:858-863). -/
def sweep (s : Screen I) (now : I) : Screen I where
  relinquished := s.relinquished.filter fun e => decide (now < e.expiresAt)
  relinquishedIdentities := s.relinquishedIdentities.filter fun e => e.live now

/-- `relinquished_asserts` (relinquished.rs:593-614); `resident` are the record sets of the
withdrawal items and what each family has carried of them. -/
def relinquishedAsserts (s : Screen I) (resident : List (ServiceRecords × PerFamily EmittedRecords))
    (r : Ref) (now : I) (family : Family) (sect : RecordSection) : Bool :=
  (resident.any fun w => asserts w.1 w.2 r family sect) ||
    (s.relinquished.any fun e =>
      decide (now < e.expiresAt) && asserts e.records e.emitted r family sect) ||
    s.relinquishedIdentities.any fun e => e.asserts r now family sect

end Screen

end Hick
