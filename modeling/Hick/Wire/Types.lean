import Mathlib
import Hick.Lib.Octets

/-!
# Message header, type and class codes (wire/header.rs, wire/flags.rs, wire/resource_type.rs,
wire/resource_class.rs, error.rs)
-/

namespace Hick.Wire
open Octets

/-! ### Errors (error.rs:162-225) -/

inductive ParseError where
  | bufferTooShort (needed at_ have_ : Nat)
  | labelTooLong (len : Nat)
  | nameTooLong (len : Nat)
  | pointerChainTooLong (hops : Nat)
  | pointerForward (ptr at_ : Nat)
  | invalidLabelKind (kind : Byte)
  | rdlengthOverrun (rdlen : UInt16) (at_ rem : Nat)
  | integerConversion
  | unsupportedNameBearingType (rtype : UInt16)
  deriving DecidableEq, Repr

inductive EncodeError where
  | bufferTooSmall (needed have_ : Nat)
  | integerConversion
  deriving DecidableEq, Repr

inductive ResourceType where
  | a | aaaa | ptr | srv | txt | nsec | hinfo | cname | any
  | unknown (v : UInt16)
  deriving DecidableEq, Repr

namespace ResourceType

def toU16 : ResourceType → UInt16
  | a => 1
  | aaaa => 28
  | ptr => 12
  | srv => 33
  | txt => 16
  | nsec => 47
  | hinfo => 13
  | cname => 5
  | any => 255
  | unknown v => v

def fromU16 (v : UInt16) : ResourceType :=
  if v = 1 then a
  else if v = 28 then aaaa
  else if v = 12 then ptr
  else if v = 33 then srv
  else if v = 16 then txt
  else if v = 47 then nsec
  else if v = 13 then hinfo
  else if v = 5 then cname
  else if v = 255 then any
  else unknown v

/-- Where the domain names of a type's rdata lie: `lead` fixed octets, then `names` names. -/
inductive RdataNames where
  | opaqueRdata
  | compressible (lead names : Nat)
  deriving DecidableEq, Repr

def rdataNames (t : ResourceType) : RdataNames :=
  let v := t.toU16
  if v = 2 ∨ v = 5 ∨ v = 12 ∨ v = 39 then .compressible 0 1
  else if v = 6 ∨ v = 17 then .compressible 0 2
  else if v = 15 ∨ v = 18 ∨ v = 21 ∨ v = 36 then .compressible 2 1
  else if v = 26 then .compressible 2 2
  else if v = 33 then .compressible 6 1
  else if v = 47 then .compressible 0 1
  else .opaqueRdata

theorem toU16_fromU16 (v : UInt16) : (fromU16 v).toU16 = v := by
  unfold fromU16
  repeat' split
  all_goals first | (rename_i h; exact h.symm) | rfl

end ResourceType

inductive ResourceClass where
  | in_
  | any
  | unknown (v : UInt16)
  deriving DecidableEq, Repr

def cacheFlushBit : UInt16 := 0x8000
def unicastResponseBit : UInt16 := 0x8000

namespace ResourceClass

def toU16 : ResourceClass → UInt16
  | in_ => 1
  | any => 255
  | unknown v => v

def fromU16Raw (v : UInt16) : ResourceClass :=
  if v = 1 then in_ else if v = 255 then any else unknown v

def fromU16 (v : UInt16) : ResourceClass := fromU16Raw (v &&& ~~~cacheFlushBit)

end ResourceClass

structure Flags where
  bits : UInt16
  deriving DecidableEq, Repr

namespace Flags

def qrBit : UInt16 := 0x8000
def aaBit : UInt16 := 0x0400
def tcBit : UInt16 := 0x0200

def new : Flags := ⟨0⟩

def fromU16 (bits : UInt16) : Flags := ⟨bits⟩

def toU16 (f : Flags) : UInt16 := f.bits

def isResponse (f : Flags) : Bool := f.bits &&& qrBit != 0

def isTruncated (f : Flags) : Bool := f.bits &&& tcBit != 0

def withResponse (f : Flags) : Flags := ⟨f.bits ||| qrBit⟩

def withAuthoritative (f : Flags) : Flags := ⟨f.bits ||| aaBit⟩

end Flags

/-- Section of a resource record (service/respond.rs:475-487). -/
inductive RecordSection where
  | answer | authority | additional
  deriving DecidableEq, Repr

def saturatingSucc (v : UInt16) : UInt16 := if v = 0xffff then v else v + 1

def headerSize : Nat := 12

structure Header where
  id : UInt16
  flags : Flags
  questionCount : UInt16
  answerCount : UInt16
  authorityCount : UInt16
  additionalCount : UInt16
  deriving DecidableEq, Repr

namespace Header

def new : Header := ⟨0, Flags.new, 0, 0, 0, 0⟩

def withId (h : Header) (v : UInt16) : Header := { h with id := v }

def withFlags (h : Header) (f : Flags) : Header := { h with flags := f }

def countQuestion (h : Header) : Header :=
  { h with questionCount := saturatingSucc h.questionCount }

def countRecord (h : Header) : RecordSection → Header
  | .answer => { h with answerCount := saturatingSucc h.answerCount }
  | .authority => { h with authorityCount := saturatingSucc h.authorityCount }
  | .additional => { h with additionalCount := saturatingSucc h.additionalCount }

def recordCount (h : Header) : RecordSection → UInt16
  | .answer => h.answerCount
  | .authority => h.authorityCount
  | .additional => h.additionalCount

def tryParse (buf : Bytes) : Except ParseError (Header × Bytes) :=
  match buf with
  | i0 :: i1 :: f0 :: f1 :: q0 :: q1 :: a0 :: a1 :: n0 :: n1 :: r0 :: r1 :: rest =>
    .ok (⟨ofBe16 i0 i1, Flags.fromU16 (ofBe16 f0 f1), ofBe16 q0 q1, ofBe16 a0 a1, ofBe16 n0 n1,
      ofBe16 r0 r1⟩, rest)
  | _ => .error (.bufferTooShort headerSize 0 buf.length)

def toBytes (h : Header) : Bytes :=
  be16 h.id ++ be16 h.flags.toU16 ++ be16 h.questionCount ++ be16 h.answerCount ++
    be16 h.authorityCount ++ be16 h.additionalCount

@[simp] theorem toBytes_length (h : Header) : h.toBytes.length = headerSize := rfl

theorem tryParse_toBytes (h : Header) (rest : Bytes) :
    tryParse (h.toBytes ++ rest) = .ok (h, rest) := by
  have hi := ofBe16_be16 h.id _ _ rfl
  have hf := ofBe16_be16 h.flags.bits _ _ rfl
  have hq := ofBe16_be16 h.questionCount _ _ rfl
  have ha := ofBe16_be16 h.answerCount _ _ rfl
  have hn := ofBe16_be16 h.authorityCount _ _ rfl
  have hr := ofBe16_be16 h.additionalCount _ _ rfl
  simp only [toBytes, be16, Flags.toU16, List.cons_append, List.nil_append, tryParse, hi, hf, hq,
    ha, hn, hr, Flags.fromU16]

end Header

end Hick.Wire
