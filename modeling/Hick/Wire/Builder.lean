import Mathlib
import Hick.Records
import Hick.Wire.Types

/-!
# The message builder (wire/builder.rs)

A builder owns a fixed output buffer and a cursor. Every `push_*` call writes at the cursor
and may fail part way, leaving the bytes, the table entries and the cursor of its partial
write behind; `checkpoint` and `restore` undo that. `pushed` is ghost state: the entries
whose push has completed, in order. No operation reads it.
-/

namespace Hick.Wire
open Octets LabelSeq

/-! ### Suffix compression table (builder.rs:23-89) -/

def defaultCompressionTable : Nat := 32

structure CompressionTable where
  entries : List (UInt64 × UInt16)
  used : Nat
  length_eq : entries.length = defaultCompressionTable

namespace CompressionTable

def new : CompressionTable where
  entries := List.replicate defaultCompressionTable (0, 0)
  used := 0
  length_eq := List.length_replicate

def live (t : CompressionTable) : List (UInt64 × UInt16) := t.entries.take t.used

def lookup (t : CompressionTable) (hash : UInt64) : Option UInt16 :=
  (t.live.find? fun e => e.1 == hash).map (·.2)

def insert (t : CompressionTable) (hash : UInt64) (offset : UInt16) : CompressionTable :=
  if t.used < defaultCompressionTable then
    { entries := t.entries.set t.used (hash, offset)
      used := t.used + 1
      length_eq := by rw [List.length_set, t.length_eq] }
  else t

end CompressionTable

def fnvBasis : UInt64 := 0xcbf29ce484222325
def fnvPrime : UInt64 := 0x100000001b3

def fnvStep (h : UInt64) (b : Byte) : UInt64 := (h ^^^ UInt64.ofNat b.val) * fnvPrime

def hashSuffix (labels : List Label) : UInt64 :=
  labels.foldl (fun h label => fnvStep ((lower label).foldl fnvStep h) dot) fnvBasis

inductive EntryData where
  | a (addr : Ipv4Addr)
  | aaaa (addr : Ipv6Addr)
  | ptr (target : Name)
  | srv (priority weight port : UInt16) (target : Name)
  | txt (segments : List Bytes)
  | nsec (nextName : Name) (presentTypes : List UInt16)
  deriving DecidableEq

def EntryData.rtype : EntryData → ResourceType
  | .a _ => .a
  | .aaaa _ => .aaaa
  | .ptr _ => .ptr
  | .srv .. => .srv
  | .txt _ => .txt
  | .nsec .. => .nsec

structure RecordEntry where
  sect : RecordSection
  owner : Name
  ttl : UInt32
  cacheFlush : Bool
  data : EntryData
  deriving DecidableEq

structure QuestionEntry where
  name : Name
  qtype : ResourceType
  qclass : ResourceClass
  unicastResponse : Bool
  deriving DecidableEq

inductive Entry where
  | question (q : QuestionEntry)
  | record (r : RecordEntry)
  deriving DecidableEq

structure MessageBuilder where
  out : Bytes
  cursor : Nat
  header : Header
  compression : CompressionTable
  pushed : List Entry

structure BuilderCheckpoint where
  cursor : Nat
  header : Header
  compressionUsed : Nat
  pushedLength : Nat

/-- An operation on a builder: it may fail, and keeps what it wrote before failing. -/
abbrev EncodeM := ExceptT EncodeError (StateM MessageBuilder)

def EncodeM.exec {α : Type} (m : EncodeM α) (b : MessageBuilder) :
    Except EncodeError α × MessageBuilder :=
  (ExceptT.run m).run b

namespace MessageBuilder

def tryNew (out : Bytes) (header : Header) : Except EncodeError MessageBuilder :=
  if out.length < headerSize then .error (.bufferTooSmall headerSize out.length)
  else .ok
    { out := out
      cursor := headerSize
      header := header
      compression := CompressionTable.new
      pushed := [] }

def checkpoint (b : MessageBuilder) : BuilderCheckpoint where
  cursor := b.cursor
  header := b.header
  compressionUsed := b.compression.used
  pushedLength := b.pushed.length

def restore (b : MessageBuilder) (cp : BuilderCheckpoint) : MessageBuilder :=
  { b with
    cursor := cp.cursor
    header := cp.header
    compression := { b.compression with used := cp.compressionUsed }
    pushed := b.pushed.take cp.pushedLength }

def written (b : MessageBuilder) : Bytes := b.out.take b.cursor

/-! ### Primitive writes (builder.rs:707-737) -/

def writeSlice (bs : Bytes) : EncodeM Unit := do
  let b ← get
  match overwrite b.out b.cursor bs with
  | none => throw (.bufferTooSmall bs.length 0)
  | some out => set { b with out := out, cursor := b.cursor + bs.length }

def writeByte (x : Byte) : EncodeM Unit := writeSlice [x]

def writeU16 (v : UInt16) : EncodeM Unit := writeSlice (be16 v)

def writeU32 (v : UInt32) : EncodeM Unit := writeSlice (be32 v)

def writeBytes : Bytes → EncodeM Unit
  | [] => pure ()
  | x :: xs => do
    writeByte x
    writeBytes xs

def u16TryFrom (n : Nat) : EncodeM UInt16 :=
  if n ≤ 65535 then pure (UInt16.ofNat n) else throw .integerConversion

/-! ### Names (builder.rs:612-705) -/

/-- The labels before the longest suffix the table knows, and where that suffix is. -/
def splitKnown (t : CompressionTable) : List Label → Nat × Option UInt16
  | [] => (0, none)
  | label :: rest =>
    match t.lookup (hashSuffix (label :: rest)) with
    | some off => (0, some off)
    | none =>
      let p := splitKnown t rest
      (p.1 + 1, p.2)

/-- Writes the first labels of `labels`, recording the position of each suffix before it. -/
def writeLabels : Nat → List Label → EncodeM Unit
  | 0, _ => pure ()
  | _ + 1, [] => pure ()
  | n + 1, label :: rest => do
    let b ← get
    if label.length > maxLabelBytes then throw (.bufferTooSmall label.length b.out.length)
    let offset ← u16TryFrom b.cursor
    set { b with compression := b.compression.insert (hashSuffix (label :: rest)) offset }
    writeByte (Fin.ofNat 256 label.length)
    writeBytes (lower label)
    writeLabels n rest

def writeNameEnd : Option UInt16 → EncodeM Unit
  | some off => do
    writeByte (Fin.ofNat 256 (off.toNat / 256) ||| 0b1100_0000)
    writeByte (Fin.ofNat 256 off.toNat)
  | none => writeByte 0

def writeName (name : Name) : EncodeM Unit := do
  if name.text = [] then writeByte 0
  else
    let labels := splitDot (trim name.text)
    let b ← get
    if labels.length > 128 then throw (.bufferTooSmall maxNameBytes b.out.length)
    let known := splitKnown b.compression labels
    writeLabels known.1 labels
    writeNameEnd known.2

/-! ### Questions and records (builder.rs:152-608) -/

def pushQuestion (name : Name) (qtype : ResourceType) (qclass : ResourceClass)
    (unicastResponse : Bool) : EncodeM Unit := do
  writeName name
  writeU16 qtype.toU16
  writeU16 (qclass.toU16 ||| if unicastResponse then unicastResponseBit else 0)
  modify fun b =>
    { b with
      header := b.header.countQuestion
      pushed := b.pushed ++ [.question ⟨name, qtype, qclass, unicastResponse⟩] }

def writeRecordHead (e : RecordEntry) : EncodeM Unit := do
  writeName e.owner
  writeU16 e.data.rtype.toU16
  writeU16 (ResourceClass.in_.toU16 ||| if e.cacheFlush then cacheFlushBit else 0)
  writeU32 e.ttl

def countRecord (e : RecordEntry) : EncodeM Unit :=
  modify fun b =>
    { b with header := b.header.countRecord e.sect, pushed := b.pushed ++ [.record e] }

def pushFixed (e : RecordEntry) (rdlen : UInt16) (octets : Bytes) : EncodeM Unit := do
  writeRecordHead e
  writeU16 rdlen
  writeBytes octets
  countRecord e

def patch (at_ : Nat) (bs : Bytes) : EncodeM Unit := do
  let b ← get
  match overwrite b.out at_ bs with
  | none => throw (.bufferTooSmall 2 0)
  | some out => set { b with out := out }

def pushPatched (e : RecordEntry) (rdata : EncodeM Unit) : EncodeM Unit := do
  writeRecordHead e
  let lenOffset := (← get).cursor
  writeU16 0
  let rdataStart := (← get).cursor
  rdata
  let rdataEnd := (← get).cursor
  let rdlen ← u16TryFrom (rdataEnd - rdataStart)
  patch lenOffset (be16 rdlen)
  countRecord e

def pushA (sect : RecordSection) (name : Name) (ttl : UInt32) (addr : Ipv4Addr)
    (cacheFlush : Bool) : EncodeM Unit :=
  pushFixed ⟨sect, name, ttl, cacheFlush, .a addr⟩ 4 addr.octets

def pushAaaa (sect : RecordSection) (name : Name) (ttl : UInt32) (addr : Ipv6Addr)
    (cacheFlush : Bool) : EncodeM Unit :=
  pushFixed ⟨sect, name, ttl, cacheFlush, .aaaa addr⟩ 16 addr.octets

def writeSrvRdata (priority weight port : UInt16) (target : Name) : EncodeM Unit := do
  writeU16 priority
  writeU16 weight
  writeU16 port
  writeName target

def pushSrv (sect : RecordSection) (name : Name) (ttl : UInt32) (priority weight port : UInt16)
    (target : Name) (cacheFlush : Bool) : EncodeM Unit :=
  pushPatched ⟨sect, name, ttl, cacheFlush, .srv priority weight port target⟩
    (writeSrvRdata priority weight port target)

def writeSegments : List Bytes → EncodeM Unit
  | [] => pure ()
  | s :: rest => do
    if s.length > 255 then throw (.bufferTooSmall s.length 255)
    writeByte (Fin.ofNat 256 s.length)
    writeBytes s
    writeSegments rest

def writeTxtRdata (segments : List Bytes) : EncodeM Unit := do
  writeSegments segments
  if segments = [] then writeByte 0

def pushTxt (sect : RecordSection) (name : Name) (ttl : UInt32) (segments : List Bytes)
    (cacheFlush : Bool) : EncodeM Unit :=
  pushPatched ⟨sect, name, ttl, cacheFlush, .txt segments⟩ (writeTxtRdata segments)

def pushPtr (sect : RecordSection) (name : Name) (ttl : UInt32) (target : Name) :
    EncodeM Unit :=
  pushPatched ⟨sect, name, ttl, false, .ptr target⟩ (writeName target)

/-- One pass of the bitmap loop: the type's bit in window block zero, and the last byte used. -/
def setTypeBit (st : Bytes × Option Nat) (t : UInt16) : Bytes × Option Nat :=
  if t ≥ 256 then st
  else
    let idx := t.toNat / 8
    let mask : Byte := Fin.ofNat 256 (128 >>> (t.toNat % 8))
    match st.1[idx]? with
    | none => st
    | some slot => (st.1.set idx (slot ||| mask), some (st.2.elim idx fun m => max m idx))

def typeBits (presentTypes : List UInt16) : Bytes × Option Nat :=
  presentTypes.foldl setTypeBit (List.replicate 32 0, none)

def writeBitmap (bitmap : Bytes) : Nat → Nat → EncodeM Unit
  | 0, _ => pure ()
  | n + 1, i => do
    writeByte ((bitmap[i]?).getD 0)
    writeBitmap bitmap n (i + 1)

def writeNsecRdata (name : Name) (presentTypes : List UInt16) : EncodeM Unit := do
  writeName name
  match typeBits presentTypes with
  | (_, none) => pure ()
  | (bitmap, some maxByte) => do
    writeByte 0
    writeByte (Fin.ofNat 256 (maxByte + 1))
    writeBitmap bitmap (maxByte + 1) 0

def pushAAnswer (name : Name) (ttl : UInt32) (addr : Ipv4Addr) (cacheFlush : Bool) :
    EncodeM Unit := pushA .answer name ttl addr cacheFlush

def pushAaaaAnswer (name : Name) (ttl : UInt32) (addr : Ipv6Addr) (cacheFlush : Bool) :
    EncodeM Unit := pushAaaa .answer name ttl addr cacheFlush

def pushSrvAnswer (name : Name) (ttl : UInt32) (priority weight port : UInt16) (target : Name)
    (cacheFlush : Bool) : EncodeM Unit :=
  pushSrv .answer name ttl priority weight port target cacheFlush

def pushTxtAnswer (name : Name) (ttl : UInt32) (segments : List Bytes) (cacheFlush : Bool) :
    EncodeM Unit := pushTxt .answer name ttl segments cacheFlush

def pushPtrAnswer (name : Name) (ttl : UInt32) (target : Name) : EncodeM Unit :=
  pushPtr .answer name ttl target

def pushAAuthority (name : Name) (ttl : UInt32) (addr : Ipv4Addr) : EncodeM Unit :=
  pushA .authority name ttl addr false

def pushAaaaAuthority (name : Name) (ttl : UInt32) (addr : Ipv6Addr) : EncodeM Unit :=
  pushAaaa .authority name ttl addr false

def pushSrvAuthority (name : Name) (ttl : UInt32) (priority weight port : UInt16)
    (target : Name) : EncodeM Unit :=
  pushSrv .authority name ttl priority weight port target false

def pushTxtAuthority (name : Name) (ttl : UInt32) (segments : List Bytes) : EncodeM Unit :=
  pushTxt .authority name ttl segments false

def pushPtrAuthority (name : Name) (ttl : UInt32) (target : Name) : EncodeM Unit :=
  pushPtr .authority name ttl target

def pushNsecAdditional (name : Name) (ttl : UInt32) (presentTypes : List UInt16)
    (cacheFlush : Bool) : EncodeM Unit :=
  pushPatched ⟨.additional, name, ttl, cacheFlush, .nsec name presentTypes⟩
    (writeNsecRdata name presentTypes)

def pushEach {α : Type} (push : α → EncodeM Unit) : List α → EncodeM Unit
  | [] => pure ()
  | x :: xs => do
    push x
    pushEach push xs

/-- The finished message, `out[..n]` for the length `n` that `finish` returns: the header is
stored over the first octets of the buffer. -/
def finish (b : MessageBuilder) : Except EncodeError Bytes :=
  match overwrite b.out 0 b.header.toBytes with
  | none => .error (.bufferTooSmall headerSize 0)
  | some out => .ok (out.take b.cursor)

end MessageBuilder
end Hick.Wire
