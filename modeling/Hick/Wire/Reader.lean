import Mathlib
import Hick.Records
import Hick.Wire.NameRef

/-!
# Reading messages (wire/reader.rs, wire/question.rs, wire/record/)

Questions and records are parsed at an offset and hand back the next one; the section
iterators are the lists of the items they yield. `write_canonical_rdata`
(`wire/record/mod.rs:284-355`) is the rdata with its names written out in full.
-/

namespace Hick.Wire
open Octets LabelSeq

structure QuestionRef where
  qname : NameRef
  qtype : ResourceType
  qclass : ResourceClass
  unicastResponse : Bool
  deriving DecidableEq

def QuestionRef.tryParse (message : Bytes) (offset : Nat) :
    Except ParseError (QuestionRef × Nat) :=
  match NameRef.tryParse message offset with
  | .error e => .error e
  | .ok (qname, nameBytes) =>
    let afterName := offset + nameBytes
    match readBe16 message afterName with
    | none => .error (.bufferTooShort 2 afterName (message.length - afterName))
    | some qtype =>
      let afterType := afterName + 2
      match readBe16 message afterType with
      | none => .error (.bufferTooShort 2 afterType (message.length - afterType))
      | some raw => .ok (
          { qname := qname
            qtype := ResourceType.fromU16 qtype
            qclass := ResourceClass.fromU16 raw
            unicastResponse := raw &&& unicastResponseBit != 0 }, afterType + 2)

structure Ref where
  message : Bytes
  name : NameRef
  rtype : ResourceType
  rclass : ResourceClass
  cacheFlush : Bool
  ttl : UInt32
  rdataStart : Nat
  rdataLen : Nat
  deriving DecidableEq

def readRecordHead (hdr : Bytes) : Option (UInt16 × UInt16 × UInt32 × UInt16) :=
  match hdr with
  | [t0, t1, c0, c1, l0, l1, l2, l3, r0, r1] =>
    some (ofBe16 t0 t1, ofBe16 c0 c1, ofBe32 l0 l1 l2 l3, ofBe16 r0 r1)
  | _ => none

def Ref.tryParse (message : Bytes) (offset : Nat) : Except ParseError (Ref × Nat) :=
  match NameRef.tryParse message offset with
  | .error e => .error e
  | .ok (name, nameBytes) =>
    let afterName := offset + nameBytes
    match (slice message afterName 10).bind readRecordHead with
    | none => .error (.bufferTooShort 10 afterName (message.length - afterName))
    | some (rtype, rclassRaw, ttl, rdlen) =>
      let rdataStart := afterName + 10
      let rdataEnd := rdataStart + rdlen.toNat
      if rdataEnd > message.length then
        .error (.rdlengthOverrun rdlen rdataStart (message.length - rdataStart))
      else .ok (
        { message := message
          name := name
          rtype := ResourceType.fromU16 rtype
          rclass := ResourceClass.fromU16 rclassRaw
          cacheFlush := rclassRaw &&& cacheFlushBit != 0
          ttl := ttl
          rdataStart := rdataStart
          rdataLen := rdlen.toNat }, rdataEnd)

def Ref.rdata (r : Ref) : Bytes := (slice r.message r.rdataStart r.rdataLen).getD []

structure Srv where
  priority : UInt16
  weight : UInt16
  port : UInt16
  target : NameRef
  deriving DecidableEq

structure Nsec where
  nextName : NameRef
  typeBitmap : Bytes
  deriving DecidableEq

inductive Rdata where
  | a (addr : Ipv4Addr)
  | aaaa (addr : Ipv6Addr)
  | ptr (target : NameRef)
  | cname (target : NameRef)
  | srv (s : Srv)
  | txt (rdata : Bytes)
  | nsec (n : Nsec)
  | other (rdata : Bytes)
  deriving DecidableEq

def aTryFromRdata (rdata : Bytes) : Except ParseError Ipv4Addr :=
  if h : rdata.length = 4 then .ok ⟨rdata, h⟩ else .error (.bufferTooShort 4 0 rdata.length)

def aaaaTryFromRdata (rdata : Bytes) : Except ParseError Ipv6Addr :=
  if h : rdata.length = 16 then .ok ⟨rdata, h⟩ else .error (.bufferTooShort 16 0 rdata.length)

/-- `Ptr::try_from_message` and `Cname::try_from_message`: one name fills the rdata. -/
def targetTryFromMessage (message : Bytes) (rdataOffset rdataLen : Nat) :
    Except ParseError NameRef :=
  match NameRef.tryParse message rdataOffset with
  | .error e => .error e
  | .ok (target, consumed) =>
    if consumed ≠ rdataLen then .error (.bufferTooShort consumed rdataOffset rdataLen)
    else .ok target

def Srv.tryFromMessage (message : Bytes) (rdataOffset rdataLen : Nat) : Except ParseError Srv :=
  if rdataLen < 6 then .error (.bufferTooShort 6 rdataOffset rdataLen)
  else
    match slice message rdataOffset 6 with
    | some [p0, p1, w0, w1, q0, q1] =>
      match NameRef.tryParse message (rdataOffset + 6) with
      | .error e => .error e
      | .ok (target, consumed) =>
        if consumed + 6 ≠ rdataLen then
          .error (.bufferTooShort (consumed + 6) rdataOffset rdataLen)
        else .ok ⟨ofBe16 p0 p1, ofBe16 w0 w1, ofBe16 q0 q1, target⟩
    | _ => .error (.bufferTooShort 6 rdataOffset (message.length - rdataOffset))

def Nsec.tryFromMessage (message : Bytes) (rdataOffset rdataLen : Nat) :
    Except ParseError Nsec :=
  match NameRef.tryParse message rdataOffset with
  | .error e => .error e
  | .ok (nextName, nameBytes) =>
    let bitmapStart := rdataOffset + nameBytes
    let rdataEnd := rdataOffset + rdataLen
    if bitmapStart > rdataEnd then .error (.bufferTooShort (bitmapStart - rdataEnd) rdataEnd 0)
    else
      match slice message bitmapStart (rdataEnd - bitmapStart) with
      | none => .error (.bufferTooShort (rdataEnd - bitmapStart) bitmapStart
          (message.length - bitmapStart))
      | some bitmap => .ok ⟨nextName, bitmap⟩

def Ref.rdataView (r : Ref) : Except ParseError Rdata :=
  match r.rtype with
  | .a => (aTryFromRdata r.rdata).map .a
  | .aaaa => (aaaaTryFromRdata r.rdata).map .aaaa
  | .ptr => (targetTryFromMessage r.message r.rdataStart r.rdataLen).map .ptr
  | .cname => (targetTryFromMessage r.message r.rdataStart r.rdataLen).map .cname
  | .srv => (Srv.tryFromMessage r.message r.rdataStart r.rdataLen).map .srv
  | .txt => .ok (.txt r.rdata)
  | .nsec => (Nsec.tryFromMessage r.message r.rdataStart r.rdataLen).map .nsec
  | _ => .ok (.other r.rdata)

/-- The items of `Txt::segments`; a segment that overruns the rdata ends the iteration. -/
def txtSegments : Nat → Bytes → List (Except ParseError Bytes)
  | 0, _ => []
  | _ + 1, [] => []
  | fuel + 1, len :: after =>
    if after.length < len.val then [.error (.bufferTooShort len.val 0 after.length)]
    else .ok (after.take len.val) :: txtSegments fuel (after.drop len.val)

structure RdataForm where
  foldCase : Bool
  normaliseEmptyTxt : Bool
  deriving DecidableEq

def RdataForm.asSent : RdataForm := ⟨false, false⟩
def RdataForm.preservingCase : RdataForm := ⟨false, true⟩
def RdataForm.folded : RdataForm := ⟨true, true⟩

/-- The names of a type this crate does not parse, decompressed one after the other. -/
def decompressNames (message : Bytes) (rtype : UInt16) (foldCase : Bool) (rdataEnd : Nat) :
    Nat → Nat → Except ParseError (Bytes × Nat)
  | 0, cursor => .ok ([], cursor)
  | names + 1, cursor =>
    match NameRef.tryParse message cursor with
    | .error e => .error e
    | .ok (name, consumed) =>
      match name.writeWire foldCase with
      | .error e => .error e
      | .ok wire =>
        if cursor + consumed > rdataEnd then .error (.unsupportedNameBearingType rtype)
        else
          match decompressNames message rtype foldCase rdataEnd names (cursor + consumed) with
          | .error e => .error e
          | .ok (rest, after) => .ok (wire ++ rest, after)

def Ref.writeDecompressedRdata (r : Ref) (lead names : Nat) (foldCase : Bool) :
    Except ParseError Bytes :=
  let rdataEnd := r.rdataStart + r.rdataLen
  let cursor := r.rdataStart + lead
  if cursor > rdataEnd then .error (.unsupportedNameBearingType r.rtype.toU16)
  else
    match decompressNames r.message r.rtype.toU16 foldCase rdataEnd names cursor with
    | .error e => .error e
    | .ok (wire, after) =>
      .ok ((slice r.message r.rdataStart lead).getD [] ++ wire ++
        (slice r.message after (rdataEnd - after)).getD [])

def canonicalTxt : List (Except ParseError Bytes) → Except ParseError Bytes
  | [] => .ok []
  | .error e :: _ => .error e
  | .ok seg :: rest =>
    match canonicalTxt rest with
    | .error e => .error e
    | .ok tail => .ok (Fin.ofNat 256 seg.length :: seg ++ tail)

def Ref.writeCanonicalRdata (r : Ref) (form : RdataForm) : Except ParseError Bytes :=
  match r.rdataView with
  | .error e => .error e
  | .ok (.ptr target) => target.writeWire form.foldCase
  | .ok (.cname target) => target.writeWire form.foldCase
  | .ok (.srv s) =>
    match s.target.writeWire form.foldCase with
    | .error e => .error e
    | .ok wire => .ok (be16 s.priority ++ be16 s.weight ++ be16 s.port ++ wire)
  | .ok (.nsec n) =>
    match n.nextName.writeWire form.foldCase with
    | .error e => .error e
    | .ok wire => .ok (wire ++ n.typeBitmap)
  | .ok (.other bytes) =>
    match r.rtype.rdataNames with
    | .opaqueRdata => .ok bytes
    | .compressible lead names => r.writeDecompressedRdata lead names form.foldCase
  | .ok (.txt rdata) =>
    let segments := txtSegments rdata.length rdata
    match canonicalTxt segments with
    | .error e => .error e
    | .ok out => .ok (if segments.isEmpty && form.normaliseEmptyTxt then [0] else out)
  | .ok (.a _) => .ok r.rdata
  | .ok (.aaaa _) => .ok r.rdata

def Ref.canonicalRdata (r : Ref) : Except ParseError Bytes :=
  r.writeCanonicalRdata .preservingCase

def Ref.canonicalRdataFolded (r : Ref) : Except ParseError Bytes :=
  r.writeCanonicalRdata .folded

/-! ### Sections (wire/reader.rs) -/

def questionItems (message : Bytes) : Nat → Nat → List (Except ParseError QuestionRef)
  | 0, _ => []
  | remaining + 1, cursor =>
    match QuestionRef.tryParse message cursor with
    | .ok (q, next) => .ok q :: questionItems message remaining next
    | .error e => [.error e]

def recordItems (message : Bytes) : Nat → Nat → List (Except ParseError Ref)
  | 0, _ => []
  | remaining + 1, cursor =>
    match Ref.tryParse message cursor with
    | .ok (r, next) => .ok r :: recordItems message remaining next
    | .error e => [.error e]

def skipQuestions (message : Bytes) : Nat → Nat → Option Nat
  | 0, cursor => some cursor
  | remaining + 1, cursor =>
    match QuestionRef.tryParse message cursor with
    | .ok (_, next) => skipQuestions message remaining next
    | .error _ => none

def skipRecords (message : Bytes) : Nat → Nat → Option Nat
  | 0, cursor => some cursor
  | count + 1, cursor =>
    match Ref.tryParse message cursor with
    | .ok (_, next) => skipRecords message count next
    | .error _ => none

structure MessageReader where
  message : Bytes
  header : Header
  deriving DecidableEq

namespace MessageReader

def tryParse (message : Bytes) : Except ParseError MessageReader :=
  match Header.tryParse message with
  | .error e => .error e
  | .ok (header, _) => .ok ⟨message, header⟩

def questions (m : MessageReader) : List (Except ParseError QuestionRef) :=
  questionItems m.message m.header.questionCount.toNat headerSize

def afterQuestions (m : MessageReader) : Option Nat :=
  skipQuestions m.message m.header.questionCount.toNat headerSize

def afterAnswers (m : MessageReader) : Option Nat :=
  m.afterQuestions.bind (skipRecords m.message m.header.answerCount.toNat)

def afterAuthority (m : MessageReader) : Option Nat :=
  m.afterAnswers.bind (skipRecords m.message m.header.authorityCount.toNat)

def recordsAt (m : MessageReader) (count : UInt16) :
    Option Nat → List (Except ParseError Ref)
  | some cursor => recordItems m.message count.toNat cursor
  | none => []

def answers (m : MessageReader) : List (Except ParseError Ref) :=
  m.recordsAt m.header.answerCount m.afterQuestions

def authority (m : MessageReader) : List (Except ParseError Ref) :=
  m.recordsAt m.header.authorityCount m.afterAnswers

def additional (m : MessageReader) : List (Except ParseError Ref) :=
  m.recordsAt m.header.additionalCount m.afterAuthority

def sectionRecords (m : MessageReader) : RecordSection → List (Except ParseError Ref)
  | .answer => m.answers
  | .authority => m.authority
  | .additional => m.additional

end MessageReader

end Hick.Wire
