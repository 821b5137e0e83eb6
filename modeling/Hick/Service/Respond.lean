import Mathlib
import Hick.Transmit
import Hick.Wire.Builder
import Hick.Wire.NameRef

/-!
# The datagrams of a service (service/respond.rs)

Each `write_*` function encodes one datagram into a caller's buffer. A `Message` is what such
a call leaves in the first octets of the buffer; `header` and `entries` are ghost state, the
builder's header and the entries it completed.
-/

namespace Hick
open Octets LabelSeq Wire

structure Message where
  octets : Bytes
  header : Header
  entries : List Entry
  deriving DecidableEq

def encode {α : Type} (header : Header) (out : Bytes) (prog : EncodeM α) :
    Except EncodeError (Message × α) :=
  match MessageBuilder.tryNew out header with
  | .error e => .error e
  | .ok b =>
    match prog.exec b with
    | (.error e, _) => .error e
    | (.ok a, b) =>
      match b.finish with
      | .error e => .error e
      | .ok octets => .ok (⟨octets, b.header, b.pushed⟩, a)

namespace Respond
open MessageBuilder

/-! ### Canonical rdata (respond.rs:27-142) -/

def writeCanonicalWireName (nameStr : Bytes) : Bytes :=
  let trimmed := trim nameStr
  if trimmed = [] then [0]
  else
    (splitDot trimmed).flatMap (fun label =>
      if label = [] then []
      else Fin.ofNat 256 (min label.length 63) :: lower (label.take 63)) ++ [0]

/-- The loop of `write_canonical_txt`; a segment longer than 255 octets is left out. -/
def writeCanonicalTxt (segments : List Bytes) : Bytes :=
  let kept := segments.filter fun seg => seg.length ≤ 255
  if kept = [] then [0] else kept.flatMap fun seg => Fin.ofNat 256 seg.length :: seg

def instanceCanonicalRtypes : List ResourceType := [.srv, .txt, .nsec]

def srvRdata (records : ServiceRecords) : Bytes :=
  be16 records.priority ++ be16 records.weight ++ be16 records.port ++
    writeCanonicalWireName records.host.text

/-! ### NSEC identities (respond.rs:237-419) -/

def instanceNsecTypes : List UInt16 := [ResourceType.srv.toU16, ResourceType.txt.toU16]

def instanceRrsetTypes (records : ServiceRecords) : List UInt16 :=
  instanceNsecTypes ++
    if records.instanceName.sameOwner records.host then
      (if records.aAddrs.isEmpty then [] else [ResourceType.a.toU16]) ++
        (if records.aaaaAddrs.isEmpty then [] else [ResourceType.aaaa.toU16])
    else []

def emittedNsecTypes (records : ServiceRecords) : List UInt16 := instanceRrsetTypes records

def markType (st : Bytes × Option Nat) (t : UInt16) : Bytes × Option Nat :=
  if t ≥ 256 then st
  else
    let byteIdx := (t >>> 3).toNat
    let mask : Byte := Fin.ofNat 256 (0x80 >>> (t &&& 0x07).toNat)
    match st.1[byteIdx]? with
    | none => st
    | some slot =>
      (st.1.set byteIdx (slot ||| mask), some (match st.2 with
        | none => byteIdx
        | some m => max m byteIdx))

def writeNsecTypeBitmap (presentTypes : List UInt16) : Bytes :=
  match presentTypes.foldl markType (List.replicate 32 0, none) with
  | (_, none) => []
  | (bitmap, some maxByte) =>
    let blen := maxByte + 1
    0 :: Fin.ofNat 256 blen :: bitmap.take blen

def nsecIdentity (records : ServiceRecords) (types : List UInt16) : Bytes :=
  writeCanonicalWireName records.instanceName.text ++ writeNsecTypeBitmap types

def ourNsecIdentities (records : ServiceRecords) : List Bytes :=
  let known := nsecIdentity records instanceNsecTypes
  let published := nsecIdentity records (instanceRrsetTypes records)
  if [known].contains published then [known] else [known, published]

def emittedNsecIdentity (records : ServiceRecords) : Bytes :=
  nsecIdentity records (emittedNsecTypes records)

def canonicalRdataForms (records : ServiceRecords) : ResourceType → List Bytes
  | .srv => [srvRdata records]
  | .txt => [writeCanonicalTxt records.txt]
  | .nsec => ourNsecIdentities records
  | _ => []

/-! ### What goes out, and where (respond.rs:456-609) -/

def transmittedRdataForms (records : ServiceRecords) (rtype : ResourceType) : List Bytes :=
  match rtype with
  | .srv => canonicalRdataForms records .srv
  | .txt => canonicalRdataForms records .txt
  | .nsec => [emittedNsecIdentity records]
  | _ => []

def transmittedEnvelope (rtype : ResourceType) (sect : RecordSection) (cacheFlush : Bool) :
    Bool :=
  match rtype with
  | .srv | .txt | .a | .aaaa => sect == .answer && cacheFlush
  | .nsec => sect == .additional && cacheFlush
  | _ => false

def emittedOwnerName (records : ServiceRecords) : ResourceType → Option Name
  | .ptr => some records.serviceType
  | .srv | .txt | .nsec => some records.instanceName
  | .a | .aaaa => some records.host
  | _ => none

/-! ### Emitted records (respond.rs:895-1089) -/

structure EmittedRecords where
  ptr : Bool
  srv : Bool
  txt : Bool
  a : List Ipv4Addr
  aaaa : List Ipv6Addr
  subtypes : Bool
  nsec : Bool
  deriving DecidableEq

namespace EmittedRecords

def default : EmittedRecords := ⟨false, false, false, [], [], false, false⟩

def isEmpty (e : EmittedRecords) : Bool :=
  !e.ptr && !e.srv && !e.txt && !e.subtypes && e.a.isEmpty && e.aaaa.isEmpty

def claimsInstanceName (e : EmittedRecords) : Bool := e.srv || e.txt

def mergeInstance (self other : EmittedRecords) : EmittedRecords :=
  { self with
    ptr := self.ptr || other.ptr
    srv := self.srv || other.srv
    txt := self.txt || other.txt
    subtypes := self.subtypes || other.subtypes
    nsec := self.nsec || other.nsec }

def mergeInto {α : Type} [BEq α] (addrs more : List α) : List α :=
  more.foldl (fun acc ip => if acc.contains ip then acc else acc ++ [ip]) addrs

def mergeAddrs (self other : EmittedRecords) : EmittedRecords :=
  { self with
    a := mergeInto self.a other.a
    aaaa := mergeInto self.aaaa other.aaaa }

def keepOnlySharedPtrs (self : EmittedRecords) (typePtr subtypes : Bool) : EmittedRecords :=
  { default with
    ptr := self.ptr && typePtr
    subtypes := self.subtypes && subtypes }

end EmittedRecords

def instanceRtypeExposed (emitted : EmittedRecords) : ResourceType → Bool
  | .srv => emitted.srv
  | .txt => emitted.txt
  | .nsec => emitted.nsec
  | _ => false

def responseHeader : Header := Header.new.withFlags Flags.new.withResponse.withAuthoritative

def legacyUnicastMaxTtlSecs : UInt32 := 10

def writeProbe (records : ServiceRecords) (out : Bytes) : Except EncodeError (Message × Unit) :=
  encode Header.new out do
    pushQuestion records.instanceName .any .in_ true
    pushSrvAuthority records.instanceName records.ttlSecs records.priority records.weight
      records.port records.host
    pushTxtAuthority records.instanceName records.ttlSecs records.txt
    pushEach (fun a => pushAAuthority records.host records.ttlSecs a) records.aAddrs
    pushEach (fun a => pushAaaaAuthority records.host records.ttlSecs a) records.aaaaAddrs

def pushServiceNsec (records : ServiceRecords) : EncodeM Bool := do
  let types := emittedNsecTypes records
  let checkpoint := (← get).checkpoint
  try
    pushNsecAdditional records.instanceName records.ttlSecs types true
    pure true
  catch _ =>
    modify fun b => b.restore checkpoint
    pure false

def writeAnnounce (records : ServiceRecords) (out : Bytes) :
    Except EncodeError (Message × Bool) :=
  encode responseHeader out do
    pushPtrAnswer records.serviceType records.ttlSecs records.instanceName
    pushEach (fun sub => pushPtrAnswer sub records.ttlSecs records.instanceName) records.subtypes
    pushSrvAnswer records.instanceName records.ttlSecs records.priority records.weight
      records.port records.host true
    pushTxtAnswer records.instanceName records.ttlSecs records.txt true
    pushEach (fun a => pushAAnswer records.host records.ttlSecs a true) records.aAddrs
    pushEach (fun a => pushAaaaAnswer records.host records.ttlSecs a true) records.aaaaAddrs
    pushServiceNsec records

/-- The report of an announcement (service/mod.rs:5421-5429). -/
def announced (records : ServiceRecords) (nsec : Bool) : EmittedRecords :=
  { ptr := true
    srv := true
    txt := true
    a := records.aAddrs
    aaaa := records.aaaaAddrs
    subtypes := !records.subtypes.isEmpty
    nsec := nsec }

def writeMetaResponse (records : ServiceRecords) (metaName : Name) (out : Bytes) :
    Except EncodeError (Message × Unit) :=
  encode responseHeader out do
    pushPtrAnswer metaName records.ttlSecs records.serviceType

def writeLegacyMetaResponse (records : ServiceRecords) (queryId : UInt16) (metaName : Name)
    (qtype : ResourceType) (qclass : ResourceClass) (out : Bytes) :
    Except EncodeError (Message × Unit) :=
  encode (responseHeader.withId queryId) out do
    pushQuestion metaName qtype qclass false
    let ttl := min records.ttlSecs legacyUnicastMaxTtlSecs
    pushPtrAnswer metaName ttl records.serviceType

def writeLegacyResponse (records : ServiceRecords) (queryId : UInt16) (qname : Name)
    (qtype : ResourceType) (qclass : ResourceClass) (out : Bytes) :
    Except EncodeError (Message × EmittedRecords) :=
  encode (responseHeader.withId queryId) out do
    pushQuestion qname qtype qclass false
    let ttl := min records.ttlSecs legacyUnicastMaxTtlSecs
    pushPtrAnswer records.serviceType ttl records.instanceName
    pushEach (fun sub => pushPtrAnswer sub ttl records.instanceName) records.subtypes
    pushSrvAnswer records.instanceName ttl records.priority records.weight records.port
      records.host false
    pushTxtAnswer records.instanceName ttl records.txt false
    pushEach (fun a => pushAAnswer records.host ttl a false) records.aAddrs
    pushEach (fun a => pushAaaaAnswer records.host ttl a false) records.aaaaAddrs
    pure
      { ptr := true
        srv := true
        txt := true
        a := records.aAddrs
        aaaa := records.aaaaAddrs
        subtypes := !records.subtypes.isEmpty
        nsec := false }

def offer (suppressed : Bool) (push : EncodeM Unit) : EncodeM Bool := do
  if suppressed then pure false
  else
    push
    pure true

def offerEach {α : Type} (suppressed : α → Bool) (push : α → EncodeM Unit) :
    List α → EncodeM (List α)
  | [] => pure []
  | x :: xs => do
    let pushed ← offer (suppressed x) (push x)
    let rest ← offerEach suppressed push xs
    pure (if pushed then x :: rest else rest)

def writeAnnounceFiltered (records : ServiceRecords) (out : Bytes)
    (hintMatches : ResourceType → Bytes → Bool) :
    Except EncodeError (Message × EmittedRecords) :=
  encode responseHeader out do
    let ptr ← offer (hintMatches .ptr (writeCanonicalWireName records.instanceName.text))
      (pushPtrAnswer records.serviceType records.ttlSecs records.instanceName)
    pushEach (fun sub => pushPtrAnswer sub records.ttlSecs records.instanceName) records.subtypes
    let srv ← offer (hintMatches .srv (srvRdata records))
      (pushSrvAnswer records.instanceName records.ttlSecs records.priority records.weight
        records.port records.host true)
    let txt ← offer (hintMatches .txt (writeCanonicalTxt records.txt))
      (pushTxtAnswer records.instanceName records.ttlSecs records.txt true)
    let a ← offerEach (fun a => hintMatches .a a.octets)
      (fun a => pushAAnswer records.host records.ttlSecs a true) records.aAddrs
    let aaaa ← offerEach (fun a => hintMatches .aaaa a.octets)
      (fun a => pushAaaaAnswer records.host records.ttlSecs a true) records.aaaaAddrs
    let emitted : EmittedRecords :=
      { ptr := ptr
        srv := srv
        txt := txt
        a := a
        aaaa := aaaa
        subtypes := !records.subtypes.isEmpty
        nsec := false }
    if emitted.isEmpty then pure emitted
    else
      let nsec ← pushServiceNsec records
      pure { emitted with nsec := nsec }

def writeGoodbye (records : ServiceRecords) (out : Bytes)
    (includePtr includeSrv includeTxt includeSubtypes : Bool) (aAddrs : List Ipv4Addr)
    (aaaaAddrs : List Ipv6Addr) : Except EncodeError (Message × Unit) :=
  encode responseHeader out do
    if includePtr then pushPtrAnswer records.serviceType 0 records.instanceName
    if includeSrv then
      pushSrvAnswer records.instanceName 0 records.priority records.weight records.port
        records.host true
    if includeTxt then pushTxtAnswer records.instanceName 0 records.txt true
    if includeSubtypes then
      pushEach (fun sub => pushPtrAnswer sub 0 records.instanceName) records.subtypes
    pushEach (fun a => pushAAnswer records.host 0 a true) aAddrs
    pushEach (fun a => pushAaaaAnswer records.host 0 a true) aaaaAddrs

end Respond
end Hick
